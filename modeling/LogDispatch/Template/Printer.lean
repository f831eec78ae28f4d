import LogDispatch.Template
import Mathlib.Data.List.Chain
import Mathlib.Data.List.Forall2

/-! Templates written back as text: what a template says, and the text that says it. -/

namespace LogDispatch.Template

/-- An argument: a value under its position, or under a key of its own. -/
inductive Arg where
  | positional (value : String)
  | keyed (key value : String)
  deriving DecidableEq, Repr

structure Pipe where
  name : String
  args : List Arg
  deriving DecidableEq, Repr

inductive Part where
  | literal (text : String)
  /-- A variable, what it is called with, and the stages its value passes through. -/
  | reference (name : String) (args : List String) (stages : List Pipe)
  deriving DecidableEq, Repr

/-! ### What the parts say -/

def Arg.entry (index : Nat) : Arg → String × String
  | .positional value => (toString index, value)
  | .keyed key value => (key, value)

/-- The arguments under the keys a stage finds them by. -/
def Pipe.entries (p : Pipe) : List (String × String) := p.args.mapIdx Arg.entry

/-- The variable of a reference as a pipe. -/
def Pipe.subject (name : String) (args : List String) : Pipe := ⟨name, args.map .positional⟩

structure Pipe.Reads (formatters : Formatters) (p : Pipe) (s : Stage) : Prop where
  name : s.name = p.name
  args : s.args.entries = p.entries
  formatter : s.formatter = formatters.get? p.name

inductive Part.Reads (formatters : Formatters) : Part → Segment → Prop where
  | literal (text : String) : Reads formatters (.literal text) (.literal text)
  | reference {r : Reference} {stages : List Pipe}
      (h : List.Forall₂ (Pipe.Reads formatters) stages r.stages) :
      Reads formatters (.reference r.name r.callArgs stages) (.reference r)

/-! ### Their text -/

def escapeLiteral : List Char → List Char
  | '$' :: '\x7b' :: cs => '\\' :: '$' :: '\x7b' :: escapeLiteral cs
  | '\x7b' :: cs => '\\' :: '\x7b' :: escapeLiteral cs
  | ',' :: cs => '\\' :: ',' :: escapeLiteral cs
  | c :: cs => c :: escapeLiteral cs
  | [] => []

/-- A backslash before each of `marks`. -/
def escape (marks cs : List Char) : List Char :=
  cs.flatMap fun c => if c ∈ marks then ['\\', c] else [c]

def escapeArg (cs : List Char) : List Char := escape [',', '\x7d'] cs

def Arg.chars : Arg → List Char
  | .positional value => escapeArg value.toList
  | .keyed key value => key.toList ++ '=' :: escapeArg value.toList

def Pipe.chars (p : Pipe) : List Char :=
  p.name.toList ++
    if p.args = [] then [] else '(' :: ([','].intercalate (p.args.map Arg.chars) ++ [')'])

def body (name : String) (args : List String) (stages : List Pipe) : List Char :=
  ['|'].intercalate ((Pipe.subject name args :: stages).map Pipe.chars)

def Part.chars : Part → List Char
  | .literal text => escapeLiteral text.toList
  | .reference name args stages => '$' :: '\x7b' :: (body name args stages ++ ['\x7d'])

def print (parts : List Part) : String := String.ofList (parts.flatMap Part.chars)

/-! ### What can be written -/

def IsName (s : String) : Prop :=
  s ≠ "" ∧ Text.trim s = s ∧ ∀ c ∈ s.toList, c ∉ ['|', '(', ')', '\x7d', '\\']

def IsKey (s : String) : Prop := IsName s ∧ ',' ∉ s.toList ∧ '=' ∉ s.toList

def IsValue (s : String) : Prop :=
  Text.trim s = s ∧ '|' ∉ s.toList ∧ s.toList.getLast? ≠ some '\\'

def Arg.Printable : Arg → Prop
  | .positional value => IsValue value ∧ Text.isAllBlank value = false ∧ '=' ∉ value.toList
  | .keyed key value => IsKey key ∧ IsValue value

def Pipe.Printable (p : Pipe) : Prop :=
  IsName p.name ∧ (∀ a ∈ p.args, a.Printable) ∧ (p.entries.map (·.1)).Nodup

def Part.Printable : Part → Prop
  | .literal text => text ≠ ""
  | .reference name args stages =>
    IsName name ∧ (∀ v ∈ args, (Arg.positional v).Printable) ∧ ∀ p ∈ stages, p.Printable

/-- Two literals would be read as one, and a backslash would keep a reference from being read. -/
def Part.MayPrecede : Part → Part → Prop
  | .literal _, .literal _ => False
  | .literal text, .reference .. => text.toList.getLast? ≠ some '\\'
  | .reference .., _ => True

structure Printable (parts : List Part) : Prop where
  each : ∀ p ∈ parts, p.Printable
  neighbours : parts.IsChain Part.MayPrecede

instance (s : String) : Decidable (IsName s) :=
  decidable_of_iff (s ≠ "" ∧ Text.trim s = s ∧ s.toList.all (· ∉ ['|', '(', ')', '\x7d', '\\']) = true)
    (by simp [IsName])

instance (s : String) : Decidable (IsKey s) := inferInstanceAs (Decidable (_ ∧ _ ∧ _))

instance (s : String) : Decidable (IsValue s) := inferInstanceAs (Decidable (_ ∧ _ ∧ _))

instance : (a : Arg) → Decidable a.Printable
  | .positional _ => inferInstanceAs (Decidable (_ ∧ _ ∧ _))
  | .keyed .. => inferInstanceAs (Decidable (_ ∧ _))

instance (p : Pipe) : Decidable p.Printable := inferInstanceAs (Decidable (_ ∧ _ ∧ _))

instance : (p : Part) → Decidable p.Printable
  | .literal text => inferInstanceAs (Decidable (text ≠ ""))
  | .reference .. => inferInstanceAs (Decidable (_ ∧ _ ∧ _))

instance : DecidableRel Part.MayPrecede
  | .literal _, .literal _ => inferInstanceAs (Decidable False)
  | .literal text, .reference .. => inferInstanceAs (Decidable (text.toList.getLast? ≠ some '\\'))
  | .reference .., _ => inferInstanceAs (Decidable True)

instance (parts : List Part) : Decidable (Printable parts) :=
  decidable_of_iff ((∀ p ∈ parts, p.Printable) ∧ parts.IsChain Part.MayPrecede)
    ⟨fun h => ⟨h.1, h.2⟩, fun h => ⟨h.1, h.2⟩⟩

example : print [.literal "a$\x7bb", .reference "x" ["1,2"] [⟨"align", [.keyed "w" "5\x7d"]⟩]] =
    "a\\$\x7bb$\x7bx(1\\,2)|align(w=5\\\x7d)\x7d" := by decide

end LogDispatch.Template
