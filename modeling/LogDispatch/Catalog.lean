import LogDispatch.Config

/-! Message catalogs by language. An alias makes a language read the catalog of another one. -/

namespace LogDispatch

/-- The language of last resort. -/
def defaultLanguage : String := "default"

/-- The languages of a configuration. One built by `ofMessages` resolves the default language. -/
structure Catalog where
  languages : SortedDict LangEntry

namespace Catalog

/-- No languages but the default one, without messages. -/
def plain : Catalog := ⟨SortedDict.empty.insert defaultLanguage (.catalog .empty)⟩

/-- Follows aliases until a language with a catalog, an unknown language or one seen before. Each step adds
    a known language to those seen, so fuel of one more than the languages never runs out. -/
def follow? (c : Catalog) : Nat → List String → String → Option String
  | 0, _, _ => none
  | fuel + 1, seen, language =>
    if language ∈ seen then none
    else match c.languages.get? language with
      | none => none
      | some (.catalog _) => some language
      | some (.alias target) => c.follow? fuel (language :: seen) (Text.trim target)

/-- The language that owns the catalog read under a name; a blank name stands for the default language. -/
def resolve? (c : Catalog) (language : String) : Option String :=
  let name := Text.trim language
  c.follow? (c.languages.entries.length + 1) [] (if name = "" then defaultLanguage else name)

/-- The catalog of the option `messages`, which must resolve the default language. -/
def ofMessages : Option (SortedDict LangEntry) → Except ConfigFault Catalog
  | none => .ok plain
  | some languages =>
    let c : Catalog := ⟨languages⟩
    if (c.resolve? defaultLanguage).isSome then .ok c else .error .noDefaultLanguage

/-- The language that a configuration names, resolved. -/
def require (c : Catalog) (language : String) : Except ConfigFault String :=
  match c.resolve? language with
  | some owner => .ok owner
  | none => .error (.unknownLanguage language)

/-- The text of a message in a resolved language. -/
def lookup? (c : Catalog) (language key : String) : Option String :=
  match c.languages.get? language with
  | some (.catalog messages) => messages.get? key
  | _ => none

end Catalog

end LogDispatch
