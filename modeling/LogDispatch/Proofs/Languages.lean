import LogDispatch.Proofs.WellFormed
import Mathlib.Data.List.Perm.Subperm
import Mathlib.Tactic.Tauto

/-! Which catalog a language reads. The walk along the aliases from a name comes to a language with a catalog of its
    own, to one that is not known, or back to one that it has passed (`exists_end`), and a name is resolved just in the
    first case (`resolve?_walks`). -/

namespace LogDispatch.Catalog

/-- The language that is looked up first for a name. -/
def first (name : String) : String :=
  if Text.trim name = "" then defaultLanguage else Text.trim name

theorem first_default : first defaultLanguage = defaultLanguage := by decide +kernel

/-- The language is an alias of the next one. -/
def Leads (c : Catalog) (language next : String) : Prop :=
  ∃ target, c.languages.get? language = some (.alias target) ∧ next = Text.trim target

/-- A walk along aliases that comes to no language twice, with all languages on its way. -/
inductive Walk (c : Catalog) : String → String → List String → Prop
  | here (language : String) : Walk c language language [language]
  | step {language next last : String} {path : List String} : c.Leads language next → Walk c next last path →
      language ∉ path → Walk c language last (language :: path)

/-- The walk cannot go on: where it has come to is not known, or leads to a language that it has passed. -/
def Lost (c : Catalog) (last : String) (path : List String) : Prop :=
  c.languages.get? last = none ∨ ∃ next ∈ path, c.Leads last next

variable {c : Catalog} {language next last owner : String} {path seen : List String} {fuel : Nat}

theorem Leads.unique {next' : String} (h : c.Leads language next) (h' : c.Leads language next') : next = next' := by
  obtain ⟨target, halias, rfl⟩ := h
  obtain ⟨target', halias', rfl⟩ := h'
  rw [halias] at halias'
  obtain rfl := LangEntry.alias.inj (Option.some.inj halias')
  rfl

theorem Leads.not_owns (h : c.Leads language next) : ¬c.Owns language := by
  rintro ⟨messages, hmessages⟩
  obtain ⟨target, halias, -⟩ := h
  rw [halias] at hmessages
  cases hmessages

/-! ### Walks -/

namespace Walk

theorem nodup (h : c.Walk language last path) : path.Nodup := by
  induction h with
  | here language => exact List.nodup_singleton language
  | step _ _ hnew ih => exact List.nodup_cons.mpr ⟨hnew, ih⟩

/-- The walk goes on by an alias. -/
theorem concat (h : c.Walk language last path) (hleads : c.Leads last next) (hnew : next ∉ path) :
    c.Walk language next (path ++ [next]) := by
  induction h with
  | here language =>
    refine .step hleads (.here next) fun hmem => hnew ?_
    rw [List.mem_singleton.mp hmem]
    exact List.mem_cons_self
  | @step language _ _ path hfirst _ hpassed ih =>
    rw [List.mem_cons, not_or] at hnew
    refine .step hfirst (ih hleads hnew.2) fun hmem => ?_
    rcases List.mem_append.mp hmem with hmem | hmem
    · exact hpassed hmem
    · exact hnew.1 (List.mem_singleton.mp hmem).symm

/-- From each language on its way the walk goes on to the same end. -/
theorem from_mem (h : c.Walk language last path) {passed : String} (hmem : passed ∈ path) :
    ∃ path', c.Walk passed last path' := by
  induction h with
  | here language =>
    rw [List.mem_singleton.mp hmem]
    exact ⟨_, .here language⟩
  | step hleads hwalk hnew ih =>
    rcases List.mem_cons.mp hmem with rfl | hmem
    · exact ⟨_, .step hleads hwalk hnew⟩
    · exact ih hmem

/-- All languages on the way are known, but for the last one perhaps. -/
theorem known (h : c.Walk language last path) :
    ∀ passed ∈ path, passed = last ∨ passed ∈ c.languages.entries.map (·.1) := by
  induction h with
  | here => exact fun passed hpassed => .inl (List.mem_singleton.mp hpassed)
  | step hleads _ _ ih =>
    refine List.forall_mem_cons.mpr ⟨.inr ?_, ih⟩
    obtain ⟨target, halias, -⟩ := hleads
    exact List.mem_map_of_mem (f := Prod.fst) (SortedDict.mem_of_get? halias)

/-- No walk is longer than there are languages, by more than one. -/
theorem length_le (h : c.Walk language last path) : path.length ≤ c.languages.entries.length + 1 := by
  have hsub : path ⊆ last :: c.languages.entries.map (·.1) := by
    intro passed hpassed
    rcases h.known passed hpassed with rfl | hknown
    · exact List.mem_cons_self
    · exact List.mem_cons_of_mem _ hknown
  simpa using (h.nodup.subperm hsub).length_le

end Walk

/-- A walk that has not come to an end goes on; since none is longer than there are languages, it comes to one. -/
theorem exists_end_of_walk {last : String} {path : List String} (h : c.Walk language last path) :
    ∃ last' path', c.Walk language last' path' ∧ (c.Owns last' ∨ c.Lost last' path') := by
  by_cases hend : c.Owns last ∨ c.Lost last path
  · exact ⟨last, path, h, hend⟩
  · rw [not_or] at hend
    obtain ⟨howns, hlost⟩ := hend
    cases hentry : c.languages.get? last with
    | none => exact absurd (.inl hentry) hlost
    | some entry =>
      rcases entry with target | messages
      · have hleads : c.Leads last (Text.trim target) := ⟨target, hentry, rfl⟩
        have hnew : Text.trim target ∉ path := fun hmem => hlost (.inr ⟨_, hmem, hleads⟩)
        have hnext := h.concat hleads hnew
        have hbound : path.length + 1 ≤ c.languages.entries.length + 1 := by simpa using hnext.length_le
        exact exists_end_of_walk hnext
      · exact absurd ⟨messages, hentry⟩ howns
termination_by c.languages.entries.length + 1 - path.length
decreasing_by
  rw [List.length_append, List.length_singleton]
  omega

theorem exists_end (c : Catalog) (language : String) :
    ∃ last path, c.Walk language last path ∧ (c.Owns last ∨ c.Lost last path) :=
  exists_end_of_walk (.here language)

/-! ### Following aliases -/

theorem follow?_of_mem (h : language ∈ seen) : c.follow? fuel seen language = none := by
  cases fuel with
  | zero => rfl
  | succ fuel => rw [follow?, if_pos h]

theorem follow?_of_leads (hleads : c.Leads language next) (hnew : language ∉ seen) :
    c.follow? (fuel + 1) seen language = c.follow? fuel (language :: seen) next := by
  obtain ⟨target, halias, rfl⟩ := hleads
  simp only [follow?, if_neg hnew, halias]

/-- With fuel for all languages on the way, following the aliases finds the language that the walk comes to. -/
theorem follow?_of_owns (h : c.Walk language owner path) (howns : c.Owns owner) (hseen : ∀ passed ∈ path, passed ∉ seen)
    (hfuel : path.length ≤ fuel) : c.follow? fuel seen language = some owner := by
  induction h generalizing seen fuel with
  | here language =>
    obtain ⟨fuel, rfl⟩ := Nat.exists_eq_succ_of_ne_zero (Nat.ne_of_gt (Nat.lt_of_lt_of_le Nat.one_pos hfuel))
    obtain ⟨messages, hmessages⟩ := howns
    rw [follow?, if_neg (hseen language List.mem_cons_self), hmessages]
  | @step language next last path hleads _ hnew ih =>
    rw [List.length_cons] at hfuel
    obtain ⟨fuel, rfl⟩ := Nat.exists_eq_succ_of_ne_zero (Nat.ne_of_gt (Nat.lt_of_lt_of_le (Nat.succ_pos _) hfuel))
    obtain ⟨hlanguage, hpath⟩ := List.forall_mem_cons.mp hseen
    rw [Nat.succ_eq_add_one, follow?_of_leads hleads hlanguage]
    refine ih howns (fun passed hpassed => ?_) (Nat.le_of_succ_le_succ hfuel)
    rw [List.mem_cons, not_or]
    exact ⟨fun heq => hnew (heq ▸ hpassed), hpath passed hpassed⟩

/-- Following the aliases of a walk that is lost finds nothing. -/
theorem follow?_of_lost (h : c.Walk language last path) (hlost : c.Lost last (path ++ seen)) :
    c.follow? fuel seen language = none := by
  by_cases hseen : language ∈ seen
  · exact follow?_of_mem hseen
  · induction h generalizing seen fuel with
    | here language =>
      cases fuel with
      | zero => rfl
      | succ fuel =>
        rcases hlost with hunknown | ⟨next, hnext, hleads⟩
        · rw [follow?, if_neg hseen, hunknown]
        · rw [follow?_of_leads hleads hseen, follow?_of_mem (by simpa using hnext)]
    | @step language next last path hleads _ hnew ih =>
      cases fuel with
      | zero => rfl
      | succ fuel =>
        rw [follow?_of_leads hleads hseen]
        by_cases hmem : next ∈ language :: seen
        · exact follow?_of_mem hmem
        · refine ih (hlost.imp_right ?_) hmem
          rintro ⟨next', hnext', hleads'⟩
          refine ⟨next', ?_, hleads'⟩
          simp only [List.cons_append, List.mem_cons, List.mem_append] at hnext' ⊢
          tauto

/-! ### Resolving -/

theorem resolve?_eq_follow? (name : String) :
    c.resolve? name = c.follow? (c.languages.entries.length + 1) [] (first name) := rfl

theorem resolve?_of_owns {name : String} (h : c.Walk (first name) owner path) (howns : c.Owns owner) :
    c.resolve? name = some owner :=
  follow?_of_owns h howns (fun _ _ => List.not_mem_nil) h.length_le

theorem resolve?_of_lost {name : String} (h : c.Walk (first name) last path) (hlost : c.Lost last path) :
    c.resolve? name = none :=
  follow?_of_lost h (by rwa [List.append_nil])

theorem resolve?_eq_some_iff {name : String} :
    c.resolve? name = some owner ↔ c.Owns owner ∧ ∃ path, c.Walk (first name) owner path := by
  refine ⟨fun h => ?_, fun ⟨howns, path, hwalk⟩ => resolve?_of_owns hwalk howns⟩
  obtain ⟨last, path, hwalk, howns | hlost⟩ := c.exists_end (first name)
  · rw [resolve?_of_owns hwalk howns] at h
    obtain rfl := Option.some.inj h
    exact ⟨howns, path, hwalk⟩
  · rw [resolve?_of_lost hwalk hlost] at h
    cases h

theorem resolve?_eq_none_iff {name : String} :
    c.resolve? name = none ↔ ∃ last path, c.Walk (first name) last path ∧ c.Lost last path := by
  refine ⟨fun h => ?_, fun ⟨last, path, hwalk, hlost⟩ => resolve?_of_lost hwalk hlost⟩
  obtain ⟨last, path, hwalk, howns | hlost⟩ := c.exists_end (first name)
  · rw [resolve?_of_owns hwalk howns] at h
    cases h
  · exact ⟨last, path, hwalk, hlost⟩

/-- What an alias leads to is resolved as the alias is. -/
theorem resolve?_alias {name target : String} (halias : c.languages.get? (first name) = some (.alias target))
    (htarget : Text.trim target ≠ "") : c.resolve? name = c.resolve? target := by
  have hleads : c.Leads (first name) (first target) := ⟨target, halias, by rw [first, if_neg htarget]⟩
  ext owner
  rw [resolve?_eq_some_iff, resolve?_eq_some_iff]
  refine and_congr_right fun howns => ⟨?_, ?_⟩
  · rintro ⟨path, hwalk⟩
    generalize first name = language at hwalk hleads
    cases hwalk with
    | here => exact absurd howns hleads.not_owns
    | step hleads' hwalk _ => exact ⟨_, hleads.unique hleads' ▸ hwalk⟩
  · rintro ⟨path, hwalk⟩
    by_cases hmem : first name ∈ path
    · exact hwalk.from_mem hmem
    · exact ⟨_, .step hleads hwalk hmem⟩

/-- The catalog of a configuration resolves the default language. -/
theorem resolve?_default {messages : Option (SortedDict LangEntry)} (h : ofMessages messages = .ok c) :
    ∃ owner, c.resolve? defaultLanguage = some owner := by
  cases messages with
  | none =>
    obtain rfl := Except.ok.inj h
    exact ⟨defaultLanguage, by decide +kernel⟩
  | some languages =>
    simp only [ofMessages] at h
    split at h
    · rename_i hsome
      obtain rfl := Except.ok.inj h
      exact Option.isSome_iff_exists.mp hsome
    · cases h

/-- More steps than there are languages change nothing: following the aliases comes to its end before. -/
theorem follow?_eq_resolve? {name : String} (hfuel : c.languages.entries.length < fuel) :
    c.follow? fuel [] (first name) = c.resolve? name := by
  obtain ⟨last, path, hwalk, howns | hlost⟩ := c.exists_end (first name)
  · rw [resolve?_of_owns hwalk howns]
    exact follow?_of_owns hwalk howns (fun _ _ => List.not_mem_nil) (Nat.le_trans hwalk.length_le hfuel)
  · rw [resolve?_of_lost hwalk hlost]
    exact follow?_of_lost hwalk (by rwa [List.append_nil])

/-- What is read under the language of a catalog are the messages of that catalog. -/
theorem lookup?_of_owns (howns : c.Owns owner) :
    ∃ messages, c.languages.get? owner = some (.catalog messages) ∧ ∀ key, c.lookup? owner key = messages.get? key := by
  obtain ⟨messages, hmessages⟩ := howns
  exact ⟨messages, hmessages, fun key => by rw [lookup?, hmessages]⟩

/-- A name is resolved to the language with a catalog that the walk from it comes to, and not resolved where the walk is
    lost; one of the two comes in no more steps than there are languages and one. An alias is resolved as what it leads
    to, the catalog of a configuration resolves a blank name and the default language, and a resolved language is read
    without an alias. -/
theorem resolve?_walks (c : Catalog) (name : String) :
    (∀ fuel, c.languages.entries.length < fuel → c.follow? fuel [] (first name) = c.resolve? name) ∧
    (∀ owner, c.resolve? name = some owner ↔ c.Owns owner ∧ ∃ path, c.Walk (first name) owner path) ∧
    (c.resolve? name = none ↔ ∃ last path, c.Walk (first name) last path ∧ c.Lost last path) ∧
    (∀ target, c.languages.get? (first name) = some (.alias target) → Text.trim target ≠ "" →
      c.resolve? name = c.resolve? target) ∧
    (∀ messages, ofMessages messages = .ok c → Text.trim name = "" ∨ Text.trim name = defaultLanguage →
      ∃ owner, c.resolve? name = some owner) ∧
    ∀ owner, c.resolve? name = some owner → ∃ messages, c.languages.get? owner = some (.catalog messages) ∧
      ∀ key, c.lookup? owner key = messages.get? key := by
  refine ⟨fun _ => follow?_eq_resolve?, fun _ => resolve?_eq_some_iff, resolve?_eq_none_iff,
    fun _ => resolve?_alias, fun messages hmessages hname => ?_, fun owner howner => ?_⟩
  · have hfirst : first name = first defaultLanguage := by
      rcases hname with hname | hname
      · rw [first, if_pos hname, first_default]
      · rw [first, hname, if_neg (by decide), first_default]
    rw [resolve?_eq_follow?, hfirst, ← resolve?_eq_follow?]
    exact resolve?_default hmessages
  · exact lookup?_of_owns (resolve?_eq_some_iff.mp howner).1

/-- A language in two spellings, and two languages that lead to each other. -/
def tongues : Catalog :=
  ⟨.ofList [("default", .catalog (.ofList [("hello", "Hello")])), ("en", .alias "default"), ("en-GB", .alias " en "),
    ("there", .alias "back"), ("back", .alias "there")]⟩

theorem tongues_walks :
    (tongues.Owns "default" ∧ ∃ path, tongues.Walk (first " en-GB") "default" path) ∧
    (∃ last path, tongues.Walk (first "there") last path ∧ tongues.Lost last path) ∧
    tongues.resolve? " en-GB" = tongues.resolve? " en " :=
  ⟨((resolve?_walks tongues " en-GB").2.1 "default").mp (by decide +kernel),
    (resolve?_walks tongues "there").2.2.1.mp (by decide +kernel),
    (resolve?_walks tongues " en-GB").2.2.2.1 " en " rfl (by decide +kernel)⟩

end LogDispatch.Catalog
