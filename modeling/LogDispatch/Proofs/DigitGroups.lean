import LogDispatch.Pattern.Number
import LogDispatch.Proofs.Text
import Mathlib.Data.List.TakeWhile

/-! Which texts are number patterns, and what is read in them. Main statement: a pattern needs a digit and nothing else.
    Read is the first digit group in it, as far as it goes, and where each of its digits is one byte and its points stand
    where they are looked for, the precision is the number of digits written (`compile_reads_first_form`).

    The reader takes runs of digits whole. A form that is read otherwise at the same place has a shorter run, and then
    nothing behind it, since no part of a form that follows a run begins with a digit (`run_cases`). So the one that is
    read is the longest. -/

namespace LogDispatch

namespace NumberPattern

open Text (isDecimalDigit)

variable {cs ds rest before after text body : List Char} {fraction bracket : Option (List Char)}

/-! ### The rule -/

/-- A digit group as it is written: perhaps digits and a comma, digits, perhaps a point and digits, perhaps a bracket. -/
structure Form where
  /-- The digits before the comma, which may be none. -/
  lead : Option (List Char)
  whole : List Char
  /-- The digits behind the point, which may be none. -/
  fraction : Option (List Char)
  bracket : Option (List Char)

/-- The point and the bracket as they are written. -/
def tailChars (fraction bracket : Option (List Char)) : List Char :=
  fraction.elim [] ('.' :: ·) ++ bracket.elim [] fun inner => '[' :: (inner ++ [']'])

/-- Digits stand behind the point, digits and points in the bracket. -/
structure IsTail (fraction bracket : Option (List Char)) : Prop where
  fraction : ∀ ds ∈ fraction, ∀ c ∈ ds, isDecimalDigit c = true
  bracket : ∀ inner ∈ bracket, inner ≠ [] ∧ ∀ c ∈ inner, isBracketChar c = true

namespace Form

def chars (f : Form) : List Char := f.lead.elim [] (· ++ [',']) ++ f.whole ++ tailChars f.fraction f.bracket

/-- What a reader keeps of the form. -/
def group (f : Form) : Group := ⟨f.lead.isSome, f.fraction, f.bracket⟩

structure IsCorrect (f : Form) : Prop where
  lead : ∀ ds ∈ f.lead, ∀ c ∈ ds, isDecimalDigit c = true
  whole : ∀ c ∈ f.whole, isDecimalDigit c = true
  whole_ne : f.whole ≠ []
  tail : IsTail f.fraction f.bracket

/-- How many digits stand behind the fixed point. -/
def fixedDigits (f : Form) : Nat := (f.fraction.getD []).countP isDecimalDigit

/-- How many digits stand in the bracket, behind its point if it has one. -/
def bracketDigits (f : Form) : Nat :=
  let inner := f.bracket.getD []
  (if '.' ∈ inner then (inner.dropWhile (· != '.')).drop 1 else inner).countP isDecimalDigit

/-- The digits behind the point and in the bracket are of one byte each, and there is one point at most. -/
structure IsCountable (f : Form) : Prop where
  ascii : ∀ c ∈ f.fraction.getD [] ++ f.bracket.getD [], c.toNat < 128
  point : (f.bracket.getD []).count '.' ≤ if f.fraction.isSome then 0 else 1

end Form

/-- The text without parentheses around it, and that without a percent sign at its end. -/
def Bares (text body : List Char) : Prop :=
  ∃ inner, (text = '(' :: (inner ++ [')']) ∨ text = inner ∧ ∀ cs, text ≠ '(' :: (cs ++ [')'])) ∧
    (inner = body ++ ['%'] ∨ inner = body ∧ inner.getLast? ≠ some '%')

/-- The form stands in the text, no other one begins before it, and none that begins at the same place is longer. -/
structure Finds (cs before : List Char) (f : Form) (after : List Char) : Prop where
  correct : f.IsCorrect
  text : cs = before ++ (f.chars ++ after)
  first : ∀ before' (g : Form) after', g.IsCorrect → cs = before' ++ (g.chars ++ after') → before.length ≤ before'.length
  longest : ∀ (g : Form) after', g.IsCorrect → cs = before ++ (g.chars ++ after') → g.chars.length ≤ f.chars.length

/-! ### Runs of digits -/

/-- A character that is no digit, or no character at all. -/
def Stops (p : Char → Bool) (cs : List Char) : Prop := ∀ c ∈ cs.head?, p c = false

theorem stops_dropWhile (p : Char → Bool) (cs : List Char) : Stops p (cs.dropWhile p) := by
  intro c hc
  have hnot := List.head?_dropWhile_not p cs
  rw [Option.mem_def] at hc
  rwa [hc] at hnot

theorem takeWhile_run {p : Char → Bool} (hds : ∀ c ∈ ds, p c = true) (hrest : Stops p rest) :
    (ds ++ rest).takeWhile p = ds ∧ (ds ++ rest).dropWhile p = rest := by
  have hnone : rest.takeWhile p = [] ∧ rest.dropWhile p = rest := by
    cases rest with
    | nil => exact ⟨rfl, rfl⟩
    | cons c rest =>
      have hc := hrest c rfl
      simp [hc]
  rw [List.takeWhile_append_of_pos hds, List.dropWhile_append_of_pos hds, hnone.1, hnone.2, List.append_nil]
  exact ⟨rfl, rfl⟩

/-- A run is whole, or it is shorter and a character of the run follows. -/
theorem run_cases {p : Char → Bool} {run ds rest rest' : List Char} (h : ds ++ rest' = run ++ rest)
    (hds : ∀ c ∈ ds, p c = true) (hrun : ∀ c ∈ run, p c = true) (hrest : Stops p rest) :
    ds = run ∧ rest' = rest ∨ ds.length < run.length ∧ ∃ c ∈ rest'.head?, p c = true := by
  rcases List.append_eq_append_iff.mp h with ⟨as, rfl, rfl⟩ | ⟨as, rfl, rfl⟩
  · cases as with
    | nil => simp
    | cons a as => exact .inr ⟨by simp, a, rfl, hrun a (by simp)⟩
  · cases as with
    | nil => simp
    | cons a as =>
      have ha := hds a (by simp)
      rw [hrest a rfl] at ha
      cases ha

/-! ### What follows the whole digits -/

theorem bracketAt?_eq_some_iff {inner : List Char} : bracketAt? cs = some inner ↔
    (inner ≠ [] ∧ ∀ c ∈ inner, isBracketChar c = true) ∧ ∃ after, cs = '[' :: (inner ++ ']' :: after) := by
  constructor
  · intro h
    unfold bracketAt? at h
    split at h
    · rename_i cs
      dsimp only at h
      split at h
      · rename_i c inner' after htake hdrop
        obtain rfl := Option.some.inj h
        refine ⟨⟨by simp [htake], fun c hc => List.mem_takeWhile_imp hc⟩, after, ?_⟩
        rw [← hdrop, List.takeWhile_append_dropWhile]
      · cases h
    · cases h
  · rintro ⟨⟨hne, hinner⟩, after, rfl⟩
    have hstops : Stops isBracketChar (']' :: after) := by simp [Stops, isBracketChar, isDecimalDigit, Char.isDigit]
    obtain ⟨htake, hdrop⟩ := takeWhile_run hinner hstops
    obtain ⟨c, inner, rfl⟩ := List.exists_cons_of_ne_nil hne
    simp only [bracketAt?, htake, hdrop]

@[simp] theorem tailChars_some : tailChars (some ds) bracket = '.' :: (ds ++ tailChars none bracket) := rfl

/-- A tail begins with a point or an opening bracket, if it is not empty. -/
theorem tailChars_eq_nil {c : Char} (hc : c ∈ (tailChars fraction bracket ++ after).head?) (hpoint : c ≠ '.')
    (hopen : c ≠ '[') : tailChars fraction bracket = [] := by
  cases fraction with
  | some ds => exact absurd (Option.some.inj hc).symm hpoint
  | none =>
    cases bracket with
    | some inner => exact absurd (Option.some.inj hc).symm hopen
    | none => rfl

theorem tailChars_of_digit (h : ∃ c ∈ (tailChars fraction bracket ++ after).head?, isDecimalDigit c = true) :
    tailChars fraction bracket = [] := by
  obtain ⟨c, hc, hdigit⟩ := h
  refine tailChars_eq_nil hc ?_ ?_ <;> rintro rfl <;> cases hdigit

/-- The bracket that is read is as long as any that stands there. -/
theorem bracketAt?_spec (cs : List Char) :
    IsTail none (bracketAt? cs) ∧ (∃ after, cs = tailChars none (bracketAt? cs) ++ after) ∧
    ∀ bracket after, IsTail none bracket → cs = tailChars none bracket ++ after →
      (tailChars none bracket).length ≤ (tailChars none (bracketAt? cs)).length := by
  cases h : bracketAt? cs with
  | none =>
    refine ⟨⟨by simp, by simp⟩, ⟨cs, rfl⟩, fun bracket after htail heq => ?_⟩
    cases bracket with
    | none => exact Nat.le_refl _
    | some inner =>
      rw [bracketAt?_eq_some_iff.mpr ⟨htail.bracket inner rfl, after, by simp [heq, tailChars]⟩] at h
      cases h
  | some inner =>
    obtain ⟨hinner, after, heq⟩ := bracketAt?_eq_some_iff.mp h
    refine ⟨⟨by simp, by simpa using hinner⟩, ⟨after, by simp [heq, tailChars]⟩, fun bracket after' htail heq' => ?_⟩
    cases bracket with
    | none => exact Nat.zero_le _
    | some inner' =>
      rw [bracketAt?_eq_some_iff.mpr ⟨htail.bracket inner' rfl, after', by simp [heq', tailChars]⟩] at h
      rw [Option.some.inj h]

theorem ofTail_spec (thousands : Bool) (cs : List Char) : ∃ fraction bracket,
    Group.ofTail thousands cs = ⟨thousands, fraction, bracket⟩ ∧ IsTail fraction bracket ∧
      (∃ after, cs = tailChars fraction bracket ++ after) ∧
      ∀ fraction' bracket' after, IsTail fraction' bracket' → cs = tailChars fraction' bracket' ++ after →
        (tailChars fraction' bracket').length ≤ (tailChars fraction bracket).length := by
  unfold Group.ofTail
  split
  · rename_i rest
    obtain ⟨htail, ⟨after, hafter⟩, hlongest⟩ := bracketAt?_spec (rest.dropWhile isDecimalDigit)
    refine ⟨_, _, rfl, ⟨?_, htail.bracket⟩, ⟨after, ?_⟩, fun fraction bracket after' htail' heq => ?_⟩
    · rintro ds ⟨⟩ c hc
      exact List.mem_takeWhile_imp hc
    · rw [tailChars_some, List.cons_append, List.append_assoc, ← hafter, List.takeWhile_append_dropWhile]
    · rcases fraction with - | ds
      · have hnil : tailChars none bracket = [] := by
          cases bracket with
          | none => rfl
          | some inner => cases heq
        rw [hnil]
        exact Nat.zero_le _
      · rw [tailChars_some, List.cons_append, List.append_assoc, List.cons.injEq] at heq
        have hrun := heq.2.symm.trans (List.takeWhile_append_dropWhile (p := isDecimalDigit) (l := rest)).symm
        simp only [tailChars_some, List.length_cons, List.length_append]
        rcases run_cases hrun (htail'.fraction ds rfl) (fun c hc => List.mem_takeWhile_imp hc) (stops_dropWhile _ _) with
          ⟨hds, hrest⟩ | ⟨hlt, hdigit⟩
        · have hle := hlongest bracket after' ⟨by simp, htail'.bracket⟩ hrest.symm
          rw [hds]
          omega
        · rw [tailChars_of_digit hdigit, List.length_nil]
          omega
  · rename_i hpoint
    obtain ⟨htail, hafter, hlongest⟩ := bracketAt?_spec cs
    refine ⟨none, _, rfl, htail, hafter, fun fraction bracket after' htail' heq => ?_⟩
    rcases fraction with - | ds
    · exact hlongest bracket after' htail' heq
    · exact absurd heq (hpoint _)

/-! ### The group at the start of a text -/

/-- The two ways in which a text can begin: with digits, a comma and digits, or with digits and no such comma. -/
theorem groupAt?_cases (cs : List Char) :
    (∃ lead whole rest, cs = lead ++ ',' :: (whole ++ rest) ∧ (∀ c ∈ lead, isDecimalDigit c = true) ∧
      (∀ c ∈ whole, isDecimalDigit c = true) ∧ whole ≠ [] ∧ Stops isDecimalDigit rest ∧
      groupAt? cs = some (Group.ofTail true rest)) ∨
    ∃ whole rest, cs = whole ++ rest ∧ (∀ c ∈ whole, isDecimalDigit c = true) ∧ Stops isDecimalDigit rest ∧
      (∀ after, rest = ',' :: after → Stops isDecimalDigit after) ∧
      groupAt? cs = if whole.isEmpty then none else some (Group.ofTail false rest) := by
  have hrun (cs : List Char) := (List.takeWhile_append_dropWhile (p := isDecimalDigit) (l := cs)).symm
  have hdigits (cs : List Char) : ∀ c ∈ cs.takeWhile isDecimalDigit, isDecimalDigit c = true := fun c hc =>
    List.mem_takeWhile_imp hc
  have hstops (cs : List Char) := stops_dropWhile isDecimalDigit cs
  unfold groupAt?
  dsimp only
  split
  · rename_i after hcomma
    by_cases hnone : (after.takeWhile isDecimalDigit).isEmpty = true
    · refine .inr ⟨_, _, hrun cs, hdigits cs, hstops cs, ?_, if_pos hnone⟩
      rintro after' heq
      obtain rfl := (List.cons.inj (hcomma.symm.trans heq)).2
      have hsame := hrun after
      rw [List.isEmpty_iff.mp hnone, List.nil_append] at hsame
      rw [hsame]
      exact hstops after
    · refine .inl ⟨cs.takeWhile isDecimalDigit, after.takeWhile isDecimalDigit, after.dropWhile isDecimalDigit, ?_,
        hdigits cs, hdigits after, by simpa using hnone, hstops after, if_neg hnone⟩
      rw [← hrun after, ← hcomma]
      exact hrun cs
  · rename_i hcomma
    exact .inr ⟨_, _, hrun cs, hdigits cs, hstops cs, fun after heq => absurd heq (hcomma after), rfl⟩

theorem stops_comma : Stops isDecimalDigit (',' :: cs) := by
  rintro c ⟨⟩
  rfl

/-- A form beside a run of digits with a tail behind it: it has the same digits, or fewer of them and no tail. -/
theorem tail_cases {run whole : List Char} (h : whole ++ (tailChars fraction bracket ++ after) = run ++ rest)
    (hwhole : ∀ c ∈ whole, isDecimalDigit c = true) (hrun : ∀ c ∈ run, isDecimalDigit c = true)
    (hrest : Stops isDecimalDigit rest) : whole = run ∧ tailChars fraction bracket ++ after = rest ∨
      whole.length < run.length ∧ tailChars fraction bracket = [] :=
  (run_cases h hwhole hrun hrest).imp_right fun ⟨hlt, hdigit⟩ => ⟨hlt, tailChars_of_digit hdigit⟩

/-- What is read at the start of a text is as long as any form that stands there, and only where none does nothing is
    read. -/
theorem groupAt?_spec (cs : List Char) :
    (groupAt? cs = none ∧ ∀ (f : Form) after, f.IsCorrect → cs ≠ f.chars ++ after) ∨
    ∃ (f : Form) (after : List Char), groupAt? cs = some f.group ∧ f.IsCorrect ∧ cs = f.chars ++ after ∧
      ∀ (g : Form) after', g.IsCorrect → cs = g.chars ++ after' → g.chars.length ≤ f.chars.length := by
  obtain ⟨lead, whole, rest, rfl, hlead, hwhole, hne, hrest, hgroup⟩ | ⟨whole, rest, rfl, hwhole, hrest, hcomma, hgroup⟩ :=
    groupAt?_cases cs
  · obtain ⟨fraction, bracket, htail, hcorrect, ⟨after, rfl⟩, hlongest⟩ := ofTail_spec true rest
    refine .inr ⟨⟨some lead, whole, fraction, bracket⟩, after, by rw [hgroup, htail]; rfl,
      ⟨by simpa using hlead, hwhole, hne, hcorrect⟩, by simp [Form.chars], fun g after' hg heq => ?_⟩
    obtain ⟨lead' | lead', whole', fraction', bracket'⟩ := g
    · simp only [Form.chars, Option.elim_none, Option.elim_some, List.nil_append, List.append_assoc,
        List.length_append] at heq ⊢
      rcases tail_cases heq.symm hg.whole hlead stops_comma with ⟨rfl, hbehind⟩ | ⟨hlt, hnil⟩
      · rw [tailChars_eq_nil (c := ',') (by rw [hbehind]; rfl) (by decide) (by decide), List.length_nil]
        omega
      · rw [hnil, List.length_nil]
        omega
    · simp only [Form.chars, Option.elim_some, List.append_assoc, List.cons_append, List.nil_append, List.length_append,
        List.length_cons] at heq ⊢
      rcases run_cases heq.symm (hg.lead lead' rfl) hlead stops_comma with ⟨rfl, hbehind⟩ | ⟨-, c, hc, hdigit⟩
      · rcases tail_cases (List.cons.inj hbehind).2 hg.whole hwhole hrest with ⟨rfl, htail'⟩ | ⟨hlt, hnil⟩
        · have hle := hlongest fraction' bracket' after' hg.tail htail'.symm
          omega
        · rw [hnil, List.length_nil]
          omega
      · rw [stops_comma c hc] at hdigit
        cases hdigit
  · -- No form that stands here has a comma: behind it would be a digit.
    have hplain : ∀ (g : Form) after', g.IsCorrect → whole ++ rest = g.chars ++ after' →
        g.chars = g.whole ++ tailChars g.fraction g.bracket ∧
          (g.whole = whole ∧ tailChars g.fraction g.bracket ++ after' = rest ∨
            g.whole.length < whole.length ∧ tailChars g.fraction g.bracket = []) := by
      rintro ⟨lead' | lead', whole', fraction', bracket'⟩ after' hg heq
      · simp only [Form.chars, Option.elim_none, List.nil_append, List.append_assoc] at heq
        exact ⟨rfl, tail_cases heq.symm hg.whole hwhole hrest⟩
      · simp only [Form.chars, Option.elim_some, List.append_assoc, List.cons_append, List.nil_append] at heq
        exfalso
        rcases run_cases heq.symm (hg.lead lead' rfl) hwhole hrest with ⟨-, hbehind⟩ | ⟨-, c, hc, hdigit⟩
        · obtain ⟨d, whole', rfl⟩ := List.exists_cons_of_ne_nil hg.whole_ne
          have hdigit := hg.whole d List.mem_cons_self
          rw [hcomma _ hbehind.symm d rfl] at hdigit
          cases hdigit
        · rw [stops_comma c hc] at hdigit
          cases hdigit
    rcases whole with - | ⟨d, whole⟩
    · refine .inl ⟨hgroup, fun g after' hg heq => ?_⟩
      obtain ⟨-, ⟨hnil, -⟩ | ⟨hlt, -⟩⟩ := hplain g after' hg heq
      · exact hg.whole_ne hnil
      · exact Nat.not_lt_zero _ hlt
    · obtain ⟨fraction, bracket, htail, hcorrect, ⟨after, rfl⟩, hlongest⟩ := ofTail_spec false rest
      refine .inr ⟨⟨none, d :: whole, fraction, bracket⟩, after, by rw [hgroup, htail]; rfl,
        ⟨by simp, hwhole, by simp, hcorrect⟩, by simp [Form.chars], fun g after' hg heq => ?_⟩
      have hchars : (⟨none, d :: whole, fraction, bracket⟩ : Form).chars = d :: whole ++ tailChars fraction bracket := rfl
      obtain ⟨hg', ⟨hwhole', htail'⟩ | ⟨hlt, hnil⟩⟩ := hplain g after' hg heq
      · have hle := hlongest _ _ after' hg.tail htail'.symm
        rw [hg', hchars, hwhole', List.length_append, List.length_append]
        omega
      · rw [hg', hchars, hnil, List.append_nil, List.length_append]
        omega

/-! ### The first group of a text -/

theorem firstGroup?_spec (cs : List Char) :
    (firstGroup? cs = none ∧ ∀ before (f : Form) after, f.IsCorrect → cs ≠ before ++ (f.chars ++ after)) ∨
    ∃ before f after, firstGroup? cs = some f.group ∧ Finds cs before f after := by
  induction cs with
  | nil =>
    refine .inl ⟨rfl, fun before f after hf heq => hf.whole_ne ?_⟩
    simp only [Form.chars, List.nil_eq, List.append_eq_nil_iff] at heq
    exact heq.2.1.1.2
  | cons c cs ih =>
    rw [firstGroup?]
    obtain ⟨hnone, hnot⟩ | ⟨f, after, hsome, hf, htext, hlongest⟩ := groupAt?_spec (c :: cs)
    · -- Whatever stands in the text stands behind its first character.
      have hbehind : ∀ before (g : Form) after, g.IsCorrect → c :: cs = before ++ (g.chars ++ after) →
          ∃ before', before = c :: before' ∧ cs = before' ++ (g.chars ++ after) := by
        intro before g after hg heq
        cases before with
        | nil => exact absurd heq (hnot g after hg)
        | cons b before =>
          obtain ⟨rfl, hcs⟩ := List.cons.inj heq
          exact ⟨before, rfl, hcs⟩
      rw [hnone]
      obtain ⟨hnone', hnot'⟩ | ⟨before, f, after, hsome, hfinds⟩ := ih
      · refine .inl ⟨hnone', fun before g after hg heq => ?_⟩
        obtain ⟨before', -, heq'⟩ := hbehind before g after hg heq
        exact hnot' before' g after hg heq'
      · refine .inr ⟨c :: before, f, after, hsome, hfinds.correct, by rw [hfinds.text]; rfl,
          fun before' g after' hg heq => ?_, fun g after' hg heq => ?_⟩
        · obtain ⟨before', rfl, heq'⟩ := hbehind before' g after' hg heq
          exact Nat.succ_le_succ (hfinds.first before' g after' hg heq')
        · exact hfinds.longest g after' hg (List.cons.inj heq).2
    · rw [hsome]
      exact .inr ⟨[], f, after, rfl, hf, htext, fun _ _ _ _ _ => Nat.zero_le _, hlongest⟩

/-- A digit by itself is a form. -/
theorem firstGroup?_eq_none_iff : firstGroup? cs = none ↔ ∀ c ∈ cs, isDecimalDigit c = false := by
  obtain ⟨hnone, hnot⟩ | ⟨before, f, after, hsome, hfinds⟩ := firstGroup?_spec cs
  · refine iff_of_true hnone fun c hc => ?_
    by_contra hdigit
    obtain ⟨before, after, rfl⟩ := List.append_of_mem hc
    exact hnot before ⟨none, [c], none, none⟩ after
      ⟨by simp, by simpa using hdigit, by simp, by simp, by simp⟩ rfl
  · refine iff_of_false (by simp [hsome]) fun h => ?_
    obtain ⟨d, whole, hd⟩ := List.exists_cons_of_ne_nil hfinds.correct.whole_ne
    have hdigit := hfinds.correct.whole d (by simp [hd])
    rw [h d (by simp [hfinds.text, Form.chars, hd])] at hdigit
    cases hdigit

/-! ### Parentheses and the percent sign -/

theorem exists_bares (text : List Char) : Bares text (stripPercent (stripParens text).2).2 := by
  refine ⟨(stripParens text).2, ?_, ?_⟩
  · unfold stripParens
    split
    · rename_i rest
      by_cases hlast : rest.getLast? = some ')'
      · rw [if_pos hlast]
        obtain ⟨inner, rfl⟩ := List.getLast?_eq_some_iff.mp hlast
        exact .inl (by simp)
      · rw [if_neg hlast]
        exact .inr ⟨rfl, by rintro cs ⟨⟩; simp at hlast⟩
    · rename_i hopen
      exact .inr ⟨rfl, fun cs heq => hopen _ heq⟩
  · unfold stripPercent
    by_cases hlast : (stripParens text).2.getLast? = some '%'
    · rw [if_pos hlast]
      obtain ⟨body, hbody⟩ := List.getLast?_eq_some_iff.mp hlast
      exact .inl (by simp [hbody])
    · rw [if_neg hlast]
      exact .inr ⟨rfl, hlast⟩

/-! ### Precision -/

theorem byteCount_eq_length (h : ∀ c ∈ cs, c.toNat < 128) : byteCount cs = cs.length :=
  Text.utf8ByteSize_of_ascii h

theorem countP_of_no_point (h : ∀ c ∈ cs, isBracketChar c = true) (hpoint : '.' ∉ cs) :
    cs.countP isDecimalDigit = cs.length := by
  refine List.countP_eq_length.mpr fun c hc => ?_
  have hchar := h c hc
  rw [isBracketChar, Bool.or_eq_true, beq_iff_eq] at hchar
  exact hchar.resolve_right fun heq => hpoint (heq ▸ hc)

/-- The precision of a form is the number of its digits behind a point, where these can be counted. -/
theorem precision_group {f : Form} (hf : f.IsCorrect) (hcount : f.IsCountable) :
    f.group.precision = (f.fixedDigits, f.fixedDigits + f.bracketDigits) := by
  obtain ⟨lead, whole, fraction, bracket⟩ := f
  obtain ⟨hascii, hpoint⟩ := hcount
  have hinner : ∀ c ∈ bracket.getD [], isBracketChar c = true := by
    cases bracket with
    | none => simp
    | some inner => exact (hf.tail.bracket inner rfl).2
  simp only [List.forall_mem_append] at hascii
  simp only [Form.group, Form.fixedDigits, Form.bracketDigits]
  rcases fraction with - | ds
  · rcases bracket with - | inner
    · rfl
    · simp only [Option.getD_some, Option.getD_none, List.countP_nil, Nat.zero_add] at *
      by_cases hmem : '.' ∈ inner
      · obtain ⟨first, last, rfl, hfirst⟩ := List.eq_append_cons_of_mem hmem
        have hdrop : (first ++ '.' :: last).dropWhile (· != '.') = '.' :: last := by
          rw [List.dropWhile_append_of_pos fun c hc => by simpa using fun heq : c = '.' => hfirst (heq ▸ hc)]
          rfl
        have hlast : '.' ∉ last := by
          simp only [List.count_append, List.count_cons_self, Option.isSome_none, Bool.false_eq_true, if_false] at hpoint
          exact List.count_eq_zero.mp (by omega)
        have hcountP := countP_of_no_point (fun c hc => hinner c (by simp [hc])) hlast
        rw [if_pos hmem, hdrop, List.drop_one, List.tail_cons, hcountP,
          ← byteCount_eq_length fun c hc => hascii.2 c (by simp [hc])]
        simp only [Group.precision, hdrop]
      · have hdrop : inner.dropWhile (· != '.') = [] := by
          simpa using fun c hc (heq : c = '.') => hmem (heq ▸ hc)
        rw [if_neg hmem, countP_of_no_point hinner hmem, ← byteCount_eq_length hascii.2]
        simp only [Group.precision, hdrop]
  · have hmem : '.' ∉ bracket.getD [] := List.count_eq_zero.mp (Nat.le_zero.mp hpoint)
    have hfixed : ds.countP isDecimalDigit = ds.length := List.countP_eq_length.mpr (hf.tail.fraction ds rfl)
    have hbytes : byteCount ds = ds.length := byteCount_eq_length hascii.1
    rw [if_neg hmem, countP_of_no_point hinner hmem, Option.getD_some, hfixed, ← hbytes, ← byteCount_eq_length hascii.2]
    rfl

/-! ### The pattern of a text -/

/-- A text is a pattern just if there is a digit in it, between the parentheses and before the percent sign. The first form
    in it, of those that begin there the longest, is what is read; all else in the text makes no difference. -/
theorem compile_reads_first_form (source : String) : ∃ body, Bares (Text.trimChars source.toList) body ∧
    ((∃ p, compile source = .ok p) ↔ ∃ c ∈ body, isDecimalDigit c = true) ∧
    ((∀ c ∈ body, isDecimalDigit c = false) →
      compile source = .error (.compile "number pattern" source "no digit group found")) ∧
    ∀ p, compile source = .ok p → ∃ before f after, Finds body before f after ∧ p.thousands = f.lead.isSome ∧
      (f.IsCountable → p.minFraction = f.fixedDigits ∧ p.maxFraction = p.minFraction + f.bracketDigits) := by
  refine ⟨_, exists_bares _, ?_⟩
  unfold compile
  dsimp only
  generalize (stripPercent (stripParens (Text.trimChars source.toList)).2).2 = body
  obtain ⟨hnone, -⟩ | ⟨before, f, after, hsome, hfinds⟩ := firstGroup?_spec body
  · have hdigit := firstGroup?_eq_none_iff.mp hnone
    rw [hnone]
    refine ⟨iff_of_false (by simp) ?_, fun _ => rfl, by simp⟩
    rintro ⟨c, hc, hd⟩
    rw [hdigit c hc] at hd
    cases hd
  · rw [hsome]
    have hdigit : ¬∀ c ∈ body, isDecimalDigit c = false := by
      rw [← firstGroup?_eq_none_iff, hsome]
      simp
    refine ⟨iff_of_true ⟨_, rfl⟩ (by simpa using hdigit), fun h => absurd h hdigit, ?_⟩
    rintro p ⟨⟩
    refine ⟨before, f, after, hfinds, rfl, fun hcount => ?_⟩
    rw [precision_group hfinds.correct hcount]
    exact ⟨rfl, rfl⟩

theorem mem_chars {f : Form} (hf : f.IsCorrect) {c : Char} (hc : c ∈ f.chars) :
    isDecimalDigit c = true ∨ c ∈ [',', '.', '[', ']'] := by
  obtain ⟨lead, whole, fraction, bracket⟩ := f
  simp only [Form.chars, tailChars, List.mem_append] at hc
  rcases hc with (hc | hc) | hc | hc
  · rcases lead with - | ds
    · cases hc
    · simp only [Option.elim_some, List.mem_append, List.mem_singleton] at hc
      exact hc.imp (hf.lead ds rfl c) fun heq => by simp [heq]
  · exact .inl (hf.whole c hc)
  · rcases fraction with - | ds
    · cases hc
    · simp only [Option.elim_some, List.mem_cons] at hc
      exact hc.symm.imp (hf.tail.fraction ds rfl c) fun heq => by simp [heq]
  · rcases bracket with - | inner
    · cases hc
    · simp only [Option.elim_some, List.mem_cons, List.mem_append, List.not_mem_nil, or_false] at hc
      rcases hc with rfl | hc | rfl
      · exact .inr (by simp)
      · have hchar := (hf.tail.bracket inner rfl).2 c hc
        rw [isBracketChar, Bool.or_eq_true, beq_iff_eq] at hchar
        exact hchar.imp_right fun heq => by simp [heq]
      · exact .inr (by simp)

/-- A word behind the digits keeps the text from having the form of a digit group, but not from being a pattern. -/
theorem word_behind_group_ignored : (∃ p, compile "0 USD" = .ok p) ∧
    ¬∃ f : Form, f.IsCorrect ∧ Bares (Text.trimChars "0 USD".toList) f.chars := by
  refine ⟨⟨_, rfl⟩, ?_⟩
  rintro ⟨f, hf, inner, hinner, hbody⟩
  have htext : Text.trimChars "0 USD".toList = ['0', ' ', 'U', 'S', 'D'] := by decide
  rw [htext] at hinner
  obtain rfl : ['0', ' ', 'U', 'S', 'D'] = inner := hinner.elim (fun heq => by cases heq) And.left
  obtain heq | ⟨heq, -⟩ := hbody
  · have hlast := congrArg List.getLast? heq
    simp at hlast
  · have hblank := mem_chars hf (c := ' ') (heq ▸ by simp)
    exact absurd hblank (by decide)

end NumberPattern

end LogDispatch
