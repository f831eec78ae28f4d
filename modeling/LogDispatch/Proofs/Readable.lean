import LogDispatch.Formatter.Caching
import LogDispatch.Proofs.RoundTrip

/-! Which texts are templates. Main statement: with formatters that take any arguments a text is read just if each of its
    references is closed and each pipe in it is a name, alone or before arguments; any other text is refused together with
    the whole of it (`compile_iff_readable`).

    A backslash is read together with a closing brace right behind it and with no other character. So a reference ends at
    the first brace without a backslash before it, and what the reader has passed over does not matter
    (`chunks_enclosed`). -/

namespace LogDispatch

namespace Template

variable {c : Char} {cs body rest pipe : List Char}

/-! ### The rule -/

/-- A name without parentheses, or a name before the first parenthesis of a text that ends with a closing one. -/
inductive IsPipe : List Char → Prop
  | plain {pipe : List Char} (hopen : '(' ∉ pipe) (hclose : ')' ∉ pipe) (hname : ∃ c ∈ pipe, Text.isBlank c = false) :
      IsPipe pipe
  | called {name args : List Char} (hopen : '(' ∉ name) (hname : ∃ c ∈ name, Text.isBlank c = false) :
      IsPipe (name ++ '(' :: (args ++ [')']))

/-- What may stand between the braces of a reference: each closing brace in it has a backslash before it, and its end is
    no backslash. -/
structure Enclosed (body : List Char) : Prop where
  escaped : ∀ before after, body = before ++ '\x7d' :: after → before.getLast? = some '\\'
  last : body.getLast? ≠ some '\\'

/-- The pipes of a reference, blanks around it and around each of them left out. -/
def HasPipes (body : List Char) : Prop := ∀ pipe ∈ (Text.trimChars body).splitOn '|', IsPipe (Text.trimChars pipe)

/-- What a backslash in literal text keeps from being read. -/
def keptMarks : List (List Char) := [['$', '\x7b'], ['\x7b'], [',']]

/-- A text from left to right: an escape, a reference that is closed, or a character that begins neither of them. -/
inductive Readable : List Char → Prop
  | nil : Readable []
  | escape {mark cs : List Char} (hmark : mark ∈ keptMarks) (hrest : Readable cs) : Readable ('\\' :: (mark ++ cs))
  | reference {body cs : List Char} (hbody : Enclosed body) (hpipes : HasPipes body) (hrest : Readable cs) :
      Readable ('$' :: '\x7b' :: (body ++ '\x7d' :: cs))
  | plain {c : Char} {cs : List Char} (hescape : c = '\\' → ∀ mark ∈ keptMarks, ¬mark <+: cs)
      (hopen : c = '$' → cs.head? ≠ some '\x7b') (hrest : Readable cs) : Readable (c :: cs)

/-! ### A result or a refusal -/

section
variable {α β : Type} {source : String} {p q : Prop}

/-- What is in order gives a result, and what is not is refused together with the whole source. -/
def Settles (source : String) (p : Prop) (result : Except LogError α) : Prop :=
  (p ∧ ∃ a, result = .ok a) ∨ (¬p ∧ ∃ fault, result = .error (refuse source fault))

theorem Settles.congr {result : Except LogError α} (h : Settles source p result) (hpq : p ↔ q) :
    Settles source q result := by
  rwa [Settles, ← hpq]

theorem Settles.ok (a : α) : Settles source True (.ok a) := .inl ⟨trivial, a, rfl⟩

theorem Settles.refused (fault : Fault) : Settles source False (.error (refuse source fault) : Except LogError α) :=
  .inr ⟨id, fault, rfl⟩

theorem Settles.bind {x : Except LogError α} {f : α → Except LogError β} (hx : Settles source p x)
    (hf : ∀ a, Settles source q (f a)) : Settles source (p ∧ q) (x >>= f) := by
  obtain ⟨hp, a, rfl⟩ | ⟨hp, fault, rfl⟩ := hx
  · exact (hf a).congr (and_iff_right hp).symm
  · exact .inr ⟨fun h => hp h.1, fault, rfl⟩

theorem Settles.map {x : Except LogError α} (hx : Settles source p x) (f : α → β) :
    Settles source p (x >>= fun a => pure (f a)) :=
  (hx.bind fun a => .ok (f a)).congr (iff_of_eq (and_true p))

theorem Settles.mapM {p : α → Prop} {f : α → Except LogError β} (h : ∀ a, Settles source (p a) (f a)) (as : List α) :
    Settles source (∀ a ∈ as, p a) (as.mapM f) := by
  induction as with
  | nil => exact (Settles.ok []).congr (by simp)
  | cons a as ih =>
    rw [List.mapM_cons]
    exact ((h a).bind fun b => ih.map (b :: ·)).congr List.forall_mem_cons.symm

end

/-! ### Pipes and references -/

section
variable {name : List Char} {formatters : Formatters} (source : String)

theorem isPipe_called_iff (hopen : '(' ∉ name) :
    IsPipe (name ++ '(' :: rest) ↔ (∃ c ∈ name, Text.isBlank c = false) ∧ rest.getLast? = some ')' := by
  constructor
  · intro h
    generalize hpipe : name ++ '(' :: rest = pipe at h
    cases h with
    | plain hnone => exact absurd (hpipe ▸ by simp) hnone
    | @called name' args hopen' hname =>
      have hsplit : Text.splitFirst? '(' (name ++ '(' :: rest) = some (name, rest) := Text.splitFirst?_append hopen
      rw [hpipe, Text.splitFirst?_append hopen'] at hsplit
      obtain ⟨rfl, rfl⟩ := Prod.mk.inj (Option.some.inj hsplit)
      exact ⟨hname, by simp⟩
  · rintro ⟨hname, hlast⟩
    obtain ⟨args, rfl⟩ := List.getLast?_eq_some_iff.mp hlast
    exact .called hopen hname

theorem isPipe_plain_iff (hopen : '(' ∉ pipe) :
    IsPipe pipe ↔ ')' ∉ pipe ∧ ∃ c ∈ pipe, Text.isBlank c = false := by
  constructor
  · intro h
    cases h with
    | plain _ hclose hname => exact ⟨hclose, hname⟩
    | called => exact absurd (by simp) hopen
  · exact fun h => .plain hopen h.1 h.2

theorem exists_nonblank_iff : (∃ c ∈ cs, Text.isBlank c = false) ↔ (Text.trimChars cs).isEmpty = false := by
  rw [← Bool.not_eq_true, List.isEmpty_iff, Text.trimChars_eq_nil_iff]
  simp

/-- A name is refused just if it is blank. -/
theorem named_settles (name : List Char) (args : Args) : Settles source (∃ c ∈ name, Text.isBlank c = false)
    ((if (Text.trimChars name).isEmpty then Except.error Fault.noName
      else .ok (String.ofList (Text.trimChars name), args)).mapError (refuse source)) := by
  rw [exists_nonblank_iff]
  split_ifs with hblank
  · exact (Settles.refused _).congr (by simp [hblank])
  · exact (Settles.ok _).congr (by simp [hblank])

theorem readPipe_settles (pipe : List Char) :
    Settles source (IsPipe (Text.trimChars pipe)) ((readPipe pipe).mapError (refuse source)) := by
  unfold readPipe
  dsimp only
  generalize Text.trimChars pipe = pipe
  by_cases hopen : '(' ∈ pipe
  · obtain ⟨name, rest, rfl, hname⟩ := List.eq_append_cons_of_mem hopen
    rw [Text.splitFirst?_append hname]
    dsimp only
    by_cases hlast : rest.getLast? = some ')'
    · rw [if_pos hlast]
      exact (named_settles source name _).congr ((isPipe_called_iff hname).trans (and_iff_left hlast)).symm
    · rw [if_neg hlast]
      exact (Settles.refused _).congr (iff_of_false id fun h => hlast ((isPipe_called_iff hname).mp h).2)
  · rw [Text.splitFirst?_eq_none hopen]
    dsimp only
    by_cases hclose : ')' ∈ pipe
    · rw [if_pos hclose]
      exact (Settles.refused _).congr (iff_of_false id fun h => ((isPipe_plain_iff hopen).mp h).1 hclose)
    · rw [if_neg hclose]
      exact (named_settles source pipe _).congr ((isPipe_plain_iff hopen).trans (and_iff_right hclose)).symm

variable (hprepare : ∀ name f, formatters.get? name = some f → ∀ args, ∃ readied, f.prepare args = .ok readied)

include hprepare

theorem readStage_settles (pipe : List Char) :
    Settles source (IsPipe (Text.trimChars pipe)) (readStage source formatters pipe) := by
  refine ((readPipe_settles source pipe).bind fun named => ?_).congr (iff_of_eq (and_true _))
  obtain ⟨name, args⟩ := named
  cases hget : formatters.get? name with
  | none =>
    simp only [hget]
    exact .ok _
  | some f =>
    obtain ⟨readied, hreadied⟩ := hprepare name f hget args
    simp only [hget, hreadied]
    exact .ok _

theorem readReference_settles (body : List Char) :
    Settles source (HasPipes body) (readReference source formatters body) := by
  rw [HasPipes, readReference, ← Text.splitAll_eq_splitOn]
  cases hpipes : Text.splitAll '|' (Text.trimChars body) with
  | nil =>
    rw [Text.splitAll_eq_splitOn] at hpipes
    exact absurd hpipes (List.splitOn_ne_nil _ _)
  | cons subject pipes =>
    have hall := List.forall_mem_cons (p := fun pipe => IsPipe (Text.trimChars pipe)) (a := subject) (l := pipes)
    refine ((readPipe_settles source subject).bind fun named => ?_).congr hall.symm
    obtain ⟨name, args⟩ := named
    exact (Settles.mapM (readStage_settles source hprepare) pipes).map (Reference.mk name args.values)

end

/-! ### The chunks of a text -/

/-- What is cut off a text can be read. -/
def Chunk.IsReadable : Chunk → Prop
  | .literal _ => True
  | .body cs => HasPipes cs
  | .unclosed => False

theorem forall_consLiteral {cks : List Chunk} :
    (∀ ck ∈ consLiteral c cks, ck.IsReadable) ↔ ∀ ck ∈ cks, ck.IsReadable := by
  unfold consLiteral
  split <;> simp [Chunk.IsReadable]

theorem Enclosed.nil : Enclosed [] := ⟨by simp, by simp⟩

theorem Enclosed.pair_iff : Enclosed ('\\' :: '\x7d' :: body) ↔ Enclosed body := by
  constructor
  · intro h
    refine ⟨fun before after heq => ?_, fun hlast => h.last (by simp [List.getLast?_cons, hlast])⟩
    have hlast := h.escaped ('\\' :: '\x7d' :: before) after (by rw [heq]; rfl)
    cases before with
    | nil => simp at hlast
    | cons b before => simpa [List.getLast?_cons] using hlast
  · intro h
    refine ⟨fun before after heq => ?_, ?_⟩
    · match before with
      | [] => simp at heq
      | [b] =>
        rw [← (List.cons.inj heq).1]
        rfl
      | b :: d :: before =>
        simp only [List.cons_append, List.cons.injEq] at heq
        have hlast := h.escaped before after heq.2.2
        simp [List.getLast?_cons, hlast]
    · have hlast := h.last
      cases body with
      | nil => simp
      | cons b body => simpa [List.getLast?_cons] using hlast

theorem Enclosed.cons_iff (hc : c ≠ '\x7d') (h : c = '\\' → ∃ d ∈ body.head?, d ≠ '\x7d') :
    Enclosed (c :: body) ↔ Enclosed body := by
  constructor
  · intro henclosed
    refine ⟨fun before after heq => ?_, fun hlast => henclosed.last (by simp [List.getLast?_cons, hlast])⟩
    have hlast := henclosed.escaped (c :: before) after (by rw [heq]; rfl)
    cases before with
    | nil =>
      obtain ⟨d, hd, hne⟩ := h (by simpa using hlast)
      simp_all
    | cons b before => simpa [List.getLast?_cons] using hlast
  · intro henclosed
    refine ⟨fun before after heq => ?_, ?_⟩
    · cases before with
      | nil => exact absurd (List.cons.inj heq).1 hc
      | cons b before =>
        have hlast := henclosed.escaped before after (List.cons.inj heq).2
        simp [List.getLast?_cons, hlast]
    · have hlast := henclosed.last
      cases body with
      | nil =>
        intro heq
        obtain ⟨d, hd, -⟩ := h (by simpa using heq)
        simp at hd
      | cons b body => simpa [List.getLast?_cons] using hlast

/-- The reader takes what is enclosed into the body it has read so far, and ends it at the brace behind. -/
theorem chunks_enclosed (h : Enclosed body) (acc : List Char) :
    chunks (.inside acc) (body ++ '\x7d' :: rest) = .body (acc.reverse ++ body) :: chunks .outside rest := by
  induction hn : body.length using Nat.strongRecOn generalizing body acc with
  | ind n ih =>
    subst hn
    rcases body with - | ⟨c, body⟩
    · simp [chunks]
    · have hc : c ≠ '\x7d' := by
        rintro rfl
        simpa using h.escaped [] body rfl
      by_cases hpair : c = '\\' ∧ body.head? = some '\x7d'
      · obtain ⟨rfl, hhead⟩ := hpair
        obtain ⟨body, rfl⟩ := List.head?_eq_some_iff.mp hhead
        rw [List.cons_append, List.cons_append, chunks,
          ih _ (by simp only [List.length_cons]; omega) (Enclosed.pair_iff.mp h) _ rfl]
        simp
      · have hnext : c = '\\' → ∃ d ∈ body.head?, d ≠ '\x7d' := by
          rintro rfl
          cases body with
          | nil => exact absurd rfl h.last
          | cons d body => exact ⟨d, rfl, fun heq => hpair ⟨rfl, congrArg some heq⟩⟩
        have hhead : c = '\\' → (body ++ '\x7d' :: rest).head? ≠ some '\x7d' := fun heq => by
          obtain ⟨d, hd, hne⟩ := hnext heq
          rw [List.head?_append, hd]
          simpa using hne
        rw [List.cons_append, chunks_inside_cons hc hhead, ih _ (by simp) ((Enclosed.cons_iff hc hnext).mp h) _ rfl]
        simp

theorem chunks_outside_cons (hescape : c = '\\' → ∀ mark ∈ keptMarks, ¬mark <+: cs)
    (hopen : c = '$' → cs.head? ≠ some '\x7b') : chunks .outside (c :: cs) = consLiteral c (chunks .outside cs) := by
  rw [chunks]
  · rintro tail rfl rfl
    exact hescape rfl ['$', '\x7b'] (by simp [keptMarks]) ⟨tail, rfl⟩
  · rintro tail rfl rfl
    exact hescape rfl ['\x7b'] (by simp [keptMarks]) ⟨tail, rfl⟩
  · rintro tail rfl rfl
    exact hescape rfl [','] (by simp [keptMarks]) ⟨tail, rfl⟩
  · rintro tail rfl rfl
    exact hopen rfl rfl

/-- A character that is read alone is no backslash before a mark. -/
theorem not_keptMark (hdollar : ∀ tail, c = '\\' → cs = '$' :: '\x7b' :: tail → False)
    (hbrace : ∀ tail, c = '\\' → cs = '\x7b' :: tail → False) (hcomma : ∀ tail, c = '\\' → cs = ',' :: tail → False) :
    c = '\\' → ∀ mark ∈ keptMarks, ¬mark <+: cs := by
  rintro hc mark hmark ⟨tail, rfl⟩
  simp only [keptMarks, List.mem_cons, List.not_mem_nil, or_false] at hmark
  rcases hmark with rfl | rfl | rfl
  · exact hdollar tail hc rfl
  · exact hbrace tail hc rfl
  · exact hcomma tail hc rfl

theorem head?_ne_of_forall {p : Prop} {d : Char} (h : ∀ tail, p → cs = d :: tail → False) : p → cs.head? ≠ some d := by
  intro hp hhead
  obtain ⟨tail, htail⟩ := List.head?_eq_some_iff.mp hhead
  exact h tail hp htail

theorem Readable.chunks (h : Readable cs) : ∀ ck ∈ chunks .outside cs, ck.IsReadable := by
  induction h with
  | nil => simp [Template.chunks]
  | escape hmark _ ih =>
    simp only [keptMarks, List.mem_cons, List.not_mem_nil, or_false] at hmark
    rcases hmark with rfl | rfl | rfl <;> simpa [Template.chunks, forall_consLiteral] using ih
  | reference hbody hpipes _ ih =>
    rw [Template.chunks, chunks_enclosed hbody]
    exact List.forall_mem_cons.mpr ⟨hpipes, ih⟩
  | plain hescape hopen _ ih =>
    rw [chunks_outside_cons hescape hopen, forall_consLiteral]
    exact ih

/-- What is left to read is readable when the chunks are: outside of references by itself, inside of one after what closes
    it. -/
def Place.Leaves (cs : List Char) : Place → Prop
  | .outside => Readable cs
  | .inside acc => ∃ body rest, cs = body ++ '\x7d' :: rest ∧ Enclosed body ∧ HasPipes (acc.reverse ++ body) ∧ Readable rest

theorem leaves_of_chunks (place : Place) (cs : List Char) (h : ∀ ck ∈ chunks place cs, ck.IsReadable) :
    place.Leaves cs := by
  induction place, cs using chunks.induct with
  | case1 cs ih =>
    simp only [chunks, forall_consLiteral] at h
    exact .escape (show ['$', '\x7b'] ∈ keptMarks by simp [keptMarks]) (ih h)
  | case2 cs ih =>
    simp only [chunks, forall_consLiteral] at h
    exact .escape (show ['\x7b'] ∈ keptMarks by simp [keptMarks]) (ih h)
  | case3 cs ih =>
    simp only [chunks, forall_consLiteral] at h
    exact .escape (show [','] ∈ keptMarks by simp [keptMarks]) (ih h)
  | case4 cs ih =>
    rw [chunks] at h
    obtain ⟨body, rest, rfl, hbody, hpipes, hrest⟩ := ih h
    exact .reference hbody hpipes hrest
  | case5 c cs hdollar hbrace hcomma hopen ih =>
    have hescape := not_keptMark hdollar hbrace hcomma
    have hopen' := head?_ne_of_forall hopen
    rw [chunks_outside_cons hescape hopen', forall_consLiteral] at h
    exact .plain hescape hopen' (ih h)
  | case6 => exact .nil
  | case7 acc cs ih =>
    rw [chunks] at h
    obtain ⟨body, rest, rfl, hbody, hpipes, hrest⟩ := ih h
    exact ⟨_, rest, rfl, Enclosed.pair_iff.mpr hbody, by simpa using hpipes, hrest⟩
  | case8 acc cs ih =>
    rw [chunks] at h
    obtain ⟨hpipes, hrest⟩ := List.forall_mem_cons.mp h
    exact ⟨[], cs, rfl, .nil, by simpa [Chunk.IsReadable] using hpipes, ih hrest⟩
  | case9 acc c cs hpair hc ih =>
    have hhead := head?_ne_of_forall hpair
    rw [chunks_inside_cons hc hhead] at h
    obtain ⟨body, rest, rfl, hbody, hpipes, hrest⟩ := ih h
    refine ⟨c :: body, rest, rfl, (Enclosed.cons_iff hc fun heq => ?_).mpr hbody, by simpa using hpipes, hrest⟩
    cases body with
    | nil => exact absurd rfl (hhead heq)
    | cons d body => exact ⟨d, rfl, fun hd => hhead heq (congrArg some hd)⟩
  | case10 acc => exact absurd (h .unclosed (by simp [chunks])) id

theorem readable_iff : Readable cs ↔ ∀ ck ∈ chunks .outside cs, ck.IsReadable :=
  ⟨Readable.chunks, leaves_of_chunks .outside cs⟩

/-! ### Whole texts -/

section
variable {formatters : Formatters}
  (hprepare : ∀ name f, formatters.get? name = some f → ∀ args, ∃ readied, f.prepare args = .ok readied)

include hprepare

theorem readChunks_settles (source : String) (cks : List Chunk) :
    Settles source (∀ ck ∈ cks, ck.IsReadable) (readChunks source formatters cks) := by
  induction cks with
  | nil => exact (Settles.ok []).congr (by simp)
  | cons ck cks ih =>
    cases ck with
    | literal cs => exact (ih.map _).congr (by simp [Chunk.IsReadable])
    | body cs =>
      exact ((readReference_settles source hprepare cs).bind fun r => ih.map _).congr
        (by simp [Chunk.IsReadable])
    | unclosed => exact (Settles.refused _).congr (by simp [Chunk.IsReadable])

/-- A text is a template just if it is readable. Any other text is refused, and the refusal has the whole text in it. -/
theorem compile_iff_readable (source : String) :
    ((∃ t, compile source formatters = .ok t) ↔ Readable source.toList) ∧
      (¬Readable source.toList → ∃ message, compile source formatters = .error (.compile "template" source message)) := by
  have h : Settles source (Readable source.toList) (compile source formatters) := by
    rw [readable_iff]
    exact (readChunks_settles hprepare source _).map _
  obtain ⟨hreadable, t, ht⟩ | ⟨hnot, fault, hfault⟩ := h
  · exact ⟨iff_of_true ⟨t, ht⟩ hreadable, fun hnot => absurd hreadable hnot⟩
  · refine ⟨iff_of_false ?_ hnot, fun _ => ⟨fault.message, hfault⟩⟩
    rintro ⟨t, ht⟩
    rw [hfault] at ht
    cases ht

end

theorem builtins_prepare {name : String} {f : Formatter} (h : Formatters.builtins.get? name = some f) (args : Args) :
    ∃ readied, f.prepare args = .ok readied := by
  have hmem := Dict.mem_of_get? h
  rw [Formatters.builtins, Dict.entries_ofList (by decide)] at hmem
  simp only [List.mem_cons, List.not_mem_nil, or_false, Prod.mk.injEq] at hmem
  obtain ⟨-, rfl⟩ | ⟨-, rfl⟩ := hmem
  · exact ⟨_, rfl⟩
  · exact ⟨_, rfl⟩

/-- Braces and parentheses inside of arguments are passed over; with the backslash before the brace taken away the same
    text is none. -/
theorem escaped_brace_readable :
    (∀ name f, Formatters.builtins.get? name = some f → ∀ args, ∃ readied, f.prepare args = .ok readied) ∧
      Readable "\\$\x7ba $\x7b x(\x7b, \\\x7d)|align(f=\\\\\x7d,(w=5) \x7d".toList ∧
      ¬Readable "\\$\x7ba $\x7b x(\x7b, \x7d)|align(f=\\\\\x7d,(w=5) \x7d".toList := by
  have hprepare := fun name f => @builtins_prepare name f
  refine ⟨hprepare, (compile_iff_readable hprepare _).1.mp ⟨_, rfl⟩, fun h => ?_⟩
  obtain ⟨t, ht⟩ := (compile_iff_readable hprepare _).1.mpr h
  cases ht

end Template

end LogDispatch
