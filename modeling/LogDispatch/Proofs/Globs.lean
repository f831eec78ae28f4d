import LogDispatch.Rule
import Mathlib.Data.List.Forall2
import Mathlib.Data.List.Infix

/-! What a wildcard pattern matches (`Covers`), and that the table of suffixes finds it (`fits_iff`). A token in front
    turns the table of the tokens behind it into its own, so the induction is on the pattern and carries the whole table
    (`Tells`). -/

namespace LogDispatch.Glob

/-- The whole text matches the pattern: `*` stands for a run of characters within a line, `?` for one of them, and any
    other character for itself in either case. -/
inductive Covers : List Char → List Char → Prop
  | nil : Covers [] []
  | run {pattern run rest : List Char} : '\n' ∉ run → Covers pattern rest → Covers ('*' :: pattern) (run ++ rest)
  | one {pattern rest : List Char} {c : Char} : c ≠ '\n' → Covers pattern rest → Covers ('?' :: pattern) (c :: rest)
  | char {pattern rest : List Char} {x c : Char} : x ≠ '*' → x ≠ '?' → Text.foldChar x = Text.foldChar c →
      Covers pattern rest → Covers (x :: pattern) (c :: rest)

/-- The token matches a text whose rest has the property. -/
def Token.Ahead (P : List Char → Prop) : Token → List Char → Prop
  | .run, text => ∃ run rest, text = run ++ rest ∧ '\n' ∉ run ∧ P rest
  | .one, text => ∃ c rest, text = c :: rest ∧ c ≠ '\n' ∧ P rest
  | .char x, text => ∃ c rest, text = c :: rest ∧ Text.foldChar x = Text.foldChar c ∧ P rest

/-- The table tells of each suffix, the whole text first, whether it has the property. -/
def Tells (P : List Char → Prop) (text : List Char) (table : List Bool) : Prop :=
  List.Forall₂ (fun told suffix => told = true ↔ P suffix) table text.tails

variable {P : List Char → Prop} {x c : Char} {pattern text cs : List Char} {bs : List Bool} {t : Token}

/-! ### What a pattern covers -/

theorem covers_nil : Covers [] text ↔ text = [] := by
  constructor
  · rintro ⟨⟩
    rfl
  · rintro rfl
    exact .nil

theorem covers_cons : Covers (x :: pattern) text ↔ (Token.ofChar x).Ahead (Covers pattern) text := by
  constructor
  · intro h
    cases h with
    | run hline hrest => exact ⟨_, _, rfl, hline, hrest⟩
    | one hline hrest => exact ⟨_, _, rfl, hline, hrest⟩
    | char hrun hone hfold hrest =>
      rw [Token.ofChar, if_neg hrun, if_neg hone]
      exact ⟨_, _, rfl, hfold, hrest⟩
  · intro h
    by_cases hrun : x = '*'
    · subst hrun
      obtain ⟨run, rest, rfl, hline, hrest⟩ := h
      exact .run hline hrest
    · by_cases hone : x = '?'
      · subst hone
        obtain ⟨c, rest, rfl, hline, hrest⟩ := h
        exact .one hline hrest
      · rw [Token.ofChar, if_neg hrun, if_neg hone] at h
        obtain ⟨c, rest, rfl, hfold, hrest⟩ := h
        exact .char hrun hone hfold hrest

/-! ### One token -/

theorem inLine_iff : inLine c = true ↔ c ≠ '\n' := bne_iff_ne

theorem sameFold_iff : Text.sameFold x c = true ↔ Text.foldChar x = Text.foldChar c := beq_iff_eq

theorem Token.ahead_nil : t.Ahead P [] ↔ t = .run ∧ P [] := by
  cases t with
  | run =>
    refine ⟨?_, fun ⟨_, h⟩ => ⟨[], [], rfl, List.not_mem_nil, h⟩⟩
    rintro ⟨run, rest, heq, -, hrest⟩
    obtain ⟨rfl, rfl⟩ := List.append_eq_nil_iff.mp heq.symm
    exact ⟨rfl, hrest⟩
  | one => simp [Ahead]
  | char x => simp [Ahead]

/-- A run stands for nothing, or for one character and what a run stands for. -/
theorem Token.run_ahead_cons : Token.run.Ahead P (c :: cs) ↔ P (c :: cs) ∨ c ≠ '\n' ∧ Token.run.Ahead P cs := by
  constructor
  · rintro ⟨run, rest, heq, hline, hrest⟩
    cases run with
    | nil => exact .inl (heq ▸ hrest)
    | cons d run =>
      obtain ⟨rfl, rfl⟩ := List.cons.inj heq
      rw [List.mem_cons, not_or] at hline
      exact .inr ⟨Ne.symm hline.1, run, rest, rfl, hline.2, hrest⟩
  · rintro (h | ⟨hc, run, rest, rfl, hline, hrest⟩)
    · exact ⟨[], c :: cs, rfl, List.not_mem_nil, h⟩
    · refine ⟨c :: run, rest, rfl, ?_, hrest⟩
      rw [List.mem_cons, not_or]
      exact ⟨Ne.symm hc, hline⟩

theorem Token.one_ahead_cons : Token.one.Ahead P (c :: cs) ↔ c ≠ '\n' ∧ P cs := by simp [Ahead]

theorem Token.char_ahead_cons : (Token.char x).Ahead P (c :: cs) ↔ Text.foldChar x = Text.foldChar c ∧ P cs := by
  simp [Ahead]

/-! ### Tables -/

theorem tells_nil : Tells P [] bs ↔ ∃ told, bs = [told] ∧ (told = true ↔ P []) := by
  rw [Tells, List.tails, List.forall₂_cons_right_iff]
  simp only [List.forall₂_nil_right_iff]
  constructor
  · rintro ⟨told, _, htold, rfl, rfl⟩
    exact ⟨told, rfl, htold⟩
  · rintro ⟨told, rfl, htold⟩
    exact ⟨told, [], htold, rfl, rfl⟩

theorem tells_cons : Tells P (c :: cs) bs ↔
    ∃ told rest, bs = told :: rest ∧ (told = true ↔ P (c :: cs)) ∧ Tells P cs rest := by
  rw [Tells, List.tails_cons, List.forall₂_cons_right_iff]
  constructor
  · rintro ⟨told, rest, htold, hrest, rfl⟩
    exact ⟨told, rest, rfl, htold, hrest⟩
  · rintro ⟨told, rest, rfl, htold, hrest⟩
    exact ⟨told, rest, htold, hrest, rfl⟩

/-- The first entry is that of the whole text. -/
theorem Tells.headD (h : Tells P text bs) : bs.headD false = true ↔ P text := by
  cases text with
  | nil =>
    obtain ⟨told, rfl, htold⟩ := tells_nil.mp h
    exact htold
  | cons c cs =>
    obtain ⟨told, rest, rfl, htold, -⟩ := tells_cons.mp h
    exact htold

theorem Tells.extend (h : Tells P text bs) : Tells (t.Ahead P) text (extend t text bs) := by
  induction text generalizing bs with
  | nil =>
    obtain ⟨told, rfl, htold⟩ := tells_nil.mp h
    refine tells_nil.mpr ⟨_, rfl, ?_⟩
    rw [Bool.and_eq_true, beq_iff_eq, htold, Token.ahead_nil]
  | cons c cs ih =>
    obtain ⟨told, rest, rfl, htold, hrest⟩ := tells_cons.mp h
    refine tells_cons.mpr ⟨_, _, rfl, ?_, ih hrest⟩
    cases t with
    | run => rw [Bool.or_eq_true, Bool.and_eq_true, inLine_iff, (ih hrest).headD, htold, Token.run_ahead_cons]
    | one => rw [Bool.and_eq_true, inLine_iff, hrest.headD, Token.one_ahead_cons]
    | char x => rw [Bool.and_eq_true, sameFold_iff, hrest.headD, Token.char_ahead_cons]

/-- Without tokens only the empty suffix matches. -/
theorem tells_start : Tells (Covers []) text (List.replicate text.length false ++ [true]) := by
  induction text with
  | nil => exact tells_nil.mpr ⟨true, rfl, iff_of_true rfl .nil⟩
  | cons c cs ih => exact tells_cons.mpr ⟨false, _, rfl, iff_of_false nofun (by rw [covers_nil]; exact nofun), ih⟩

theorem tells_table : Tells (Covers pattern) text (table (pattern.map Token.ofChar) text) := by
  induction pattern with
  | nil => exact tells_start
  | cons x pattern ih =>
    have hcovers : Covers (x :: pattern) = (Token.ofChar x).Ahead (Covers pattern) :=
      funext fun _ => propext covers_cons
    rw [hcovers]
    exact ih.extend

theorem fits_iff {pattern text : String} : fits pattern text = true ↔ Covers pattern.toList text.toList :=
  tells_table.headD

theorem isWild_iff {pattern : String} : isWild pattern = true ↔ '*' ∈ pattern.toList ∨ '?' ∈ pattern.toList := by
  simp only [isWild, List.any_eq_true, Bool.or_eq_true, beq_iff_eq]
  constructor
  · rintro ⟨c, hc, rfl | rfl⟩
    · exact .inl hc
    · exact .inr hc
  · rintro (h | h)
    · exact ⟨_, h, .inl rfl⟩
    · exact ⟨_, h, .inr rfl⟩

end LogDispatch.Glob
