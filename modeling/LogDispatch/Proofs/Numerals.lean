import LogDispatch.Decimal.Layout
import LogDispatch.Proofs.Digits
import Mathlib.Algebra.Order.Field.Rat
import Mathlib.Tactic.Positivity

/-! Plain numerals and what they denote. The plain text of a finite double denotes the shortest decimal that stands for
    it, and has no zeros in front that it could do without (`exists_plain`). -/

namespace LogDispatch.Decimal

/-- A plain numeral: digits before the point and digits behind it, and a minus or no sign at all. -/
structure Numeral where
  negative : Bool
  whole : List Char
  fraction : List Char
  isDigit : ∀ c ∈ whole ++ fraction, c.isDigit = true
  whole_ne : whole ≠ []

namespace Numeral

/-- The numeral as it is written; a whole number has no point. -/
def chars (n : Numeral) : List Char :=
  (if n.negative then ['-'] else []) ++ n.whole ++ (if n.fraction.isEmpty then [] else '.' :: n.fraction)

/-- What the numeral denotes, but for its sign. -/
def magnitude (n : Numeral) : ℚ := worth (n.whole ++ n.fraction) / 10 ^ n.fraction.length

def value (n : Numeral) : ℚ := if n.negative then -n.magnitude else n.magnitude

/-- A zero stands in front of the whole digits only if it is the only one of them. -/
def IsTidy (n : Numeral) : Prop := n.whole.head? = some '0' → n.whole = ['0']

/-- The numeral without a sign is written as the text, denotes the number and is tidy. -/
structure Writes (n : Numeral) (text : List Char) (x : ℚ) : Prop where
  positive : n.negative = false
  chars : n.chars = text
  magnitude : n.magnitude = x
  tidy : n.IsTidy

theorem magnitude_nonneg (n : Numeral) : 0 ≤ n.magnitude := by
  unfold magnitude
  positivity

end Numeral

/-! ### The point in its place -/

section positional
variable {ds : List Char} {k : Int}

/-- Zeros behind the digits. -/
theorem exists_writes_whole (hdigit : ∀ c ∈ ds, c.isDigit = true) (hne : ds ≠ []) (hk : 0 ≤ k)
    (htidy : ds.head? = some '0' → ds = ['0'] ∧ k ≤ 0) :
    ∃ n : Numeral, n.Writes (positional false ds k) (worth ds * 10 ^ k) := by
  obtain ⟨k, rfl⟩ := Int.eq_ofNat_of_zero_le hk
  refine ⟨⟨false, ds ++ List.replicate k '0', [], fun c hc => ?_, by simp [hne]⟩, rfl, ?_, ?_, fun hhead => ?_⟩
  · simp only [List.append_nil, List.mem_append, List.mem_replicate] at hc
    rcases hc with hc | ⟨-, rfl⟩
    · exact hdigit c hc
    · rfl
  · simp [Numeral.chars, positional]
  · simp [Numeral.magnitude, worth_append]
  · obtain ⟨c, cs, rfl⟩ := List.exists_cons_of_ne_nil hne
    obtain ⟨hone, hle⟩ := htidy hhead
    obtain rfl : k = 0 := by omega
    simpa using hone

/-- The point among the digits. -/
theorem exists_writes_pointed (hdigit : ∀ c ∈ ds, c.isDigit = true) (hk : k < 0) (hpoint : 0 < ds.length + k)
    (htidy : ds.head? = some '0' → ds = ['0']) :
    ∃ n : Numeral, n.Writes (positional false ds k) (worth ds * 10 ^ k) := by
  obtain ⟨p, hp⟩ := Int.eq_ofNat_of_zero_le hpoint.le
  have hlength : k = -((ds.drop p).length : Int) := by
    rw [List.length_drop]
    omega
  have hrest : ds.drop p ≠ [] := fun hnil => by
    rw [hnil] at hlength
    exact hk.ne hlength
  have hfirst : ds.take p ≠ [] := fun hnil => by
    rw [List.take_eq_nil_iff] at hnil
    rcases hnil with rfl | rfl
    · omega
    · simp at hrest
  have hpos : p ≠ 0 := by omega
  refine ⟨⟨false, ds.take p, ds.drop p, by simpa using hdigit, hfirst⟩, rfl, ?_, ?_, fun hhead => ?_⟩
  · simp [Numeral.chars, positional, hrest, hp, Int.not_le.mpr hk, hpos]
  · show (worth (ds.take p ++ ds.drop p) : ℚ) / 10 ^ (ds.drop p).length = _
    rw [List.take_append_drop, hlength, zpow_neg, zpow_natCast, div_eq_mul_inv]
  · rw [List.head?_take, if_neg hpos] at hhead
    rw [htidy hhead, List.length_singleton] at hpoint
    omega

/-- Zeros before the digits, and before them the point. -/
theorem exists_writes_small (hdigit : ∀ c ∈ ds, c.isDigit = true) (hne : ds ≠ []) (hpoint : ds.length + k ≤ 0) :
    ∃ n : Numeral, n.Writes (positional false ds k) (worth ds * 10 ^ k) := by
  have hlength : 0 < ds.length := List.length_pos_iff.mpr hne
  obtain ⟨z, hz⟩ := Int.eq_ofNat_of_zero_le (Int.neg_nonneg_of_nonpos hpoint)
  have hk : k = -((List.replicate z '0' ++ ds).length : Int) := by
    rw [List.length_append, List.length_replicate]
    omega
  refine ⟨⟨false, ['0'], List.replicate z '0' ++ ds, fun c hc => ?_, by simp⟩, rfl, ?_, ?_, fun _ => rfl⟩
  · simp only [List.mem_append, List.mem_singleton, List.mem_replicate] at hc
    rcases hc with rfl | ⟨-, rfl⟩ | hc
    · rfl
    · rfl
    · exact hdigit c hc
  · have hneg : ¬0 ≤ k := by omega
    simp [Numeral.chars, positional, hneg, Int.not_lt.mpr hpoint, hne]
    omega
  · have hworth : worth (['0'] ++ (List.replicate z '0' ++ ds)) = worth ds := by
      rw [worth_append, worth_append, worth_replicate_zero, show worth ['0'] = 0 from rfl]
      simp
    rw [Numeral.magnitude, hworth, hk, zpow_neg, zpow_natCast, div_eq_mul_inv]

end positional

/-- The digits of a number with the point in its place. -/
theorem exists_writes_positional {d : Nat} {k : Int} (hzero : d = 0 → k ≤ 0) :
    ∃ n : Numeral, n.Writes (positional false (Nat.toDigits 10 d) k) (d * 10 ^ k) := by
  have htidy : (Nat.toDigits 10 d).head? = some '0' → Nat.toDigits 10 d = ['0'] ∧ k ≤ 0 := by
    intro hhead
    obtain rfl : d = 0 := Nat.eq_zero_of_not_pos fun hd => head?_toDigits hd hhead
    exact ⟨Nat.toDigits_zero 10, hzero rfl⟩
  have hdigit : ∀ c ∈ Nat.toDigits 10 d, c.isDigit = true := fun c => isDigit_toDigits
  have hvalue : (worth (Nat.toDigits 10 d) : ℚ) = d := congrArg _ Nat.ofDigitChars_ten_toDigits
  rw [← hvalue]
  rcases lt_or_ge k 0 with hk | hk
  · rcases lt_or_ge 0 ((Nat.toDigits 10 d).length + k) with hpoint | hpoint
    · exact exists_writes_pointed hdigit hk hpoint fun hhead => (htidy hhead).1
    · exact exists_writes_small hdigit Nat.toDigits_ne_nil hpoint
  · exact exists_writes_whole hdigit Nat.toDigits_ne_nil hk htidy

/-! ### The shortest decimal -/

namespace Interval
variable {i : Interval} {tie : Tie}

/-- Which of two neighbours is taken. -/
def pick (tie : Tie) (belowIn aboveIn : Prop) [Decidable belowIn] [Decidable aboveIn] (below toBelow toAbove : Nat) :
    Option Nat :=
  if belowIn ∧ aboveIn then
    if toBelow < toAbove then some below
    else if toAbove < toBelow then some (below + 1)
    else match tie with
      | .up => some (below + 1)
      | .even => some (if below % 2 = 0 then below else below + 1)
  else if belowIn then some below
  else if aboveIn then some (below + 1)
  else none

section
variable {d : Nat} {belowIn aboveIn : Prop} [Decidable belowIn] [Decidable aboveIn] {below toBelow toAbove : Nat}

theorem pick_eq_some (h : pick tie belowIn aboveIn below toBelow toAbove = some d) :
    d = below ∧ belowIn ∨ d = below + 1 ∧ aboveIn := by
  unfold pick at h
  cases tie <;> split_ifs at h <;> simp_all

theorem pick_ne_none (hin : belowIn) : pick tie belowIn aboveIn below toBelow toAbove ≠ none := by
  unfold pick
  cases tie <;> split_ifs <;> simp_all

end

/-- Zero does not lie in an interval of positive numbers. -/
theorem ne_zero_of_gridPoint? {k : Int} {d : Nat} (hlow : 0 < i.low) (h : i.gridPoint? tie k = some d) : d ≠ 0 := by
  have hnum : 0 < Nat.pow 2 i.unit.toNat * Nat.pow 10 (-k).toNat :=
    Nat.mul_pos (Nat.pow_pos (by decide)) (Nat.pow_pos (by decide))
  have hscaled := Nat.mul_pos hlow hnum
  rintro rfl
  rcases pick_eq_some h with ⟨hbelow, hin⟩ | ⟨habove, -⟩
  · rw [← hbelow, Nat.zero_mul] at hin
    split at hin <;> omega
  · exact absurd habove.symm (Nat.succ_ne_zero _)

/-- The search comes to zero only when it has found nothing. -/
theorem coarsest_eq_zero (hlow : 0 < i.low) {fuel : Nat} {k : Int} (h : (i.coarsest tie fuel k).1 = 0) :
    (i.coarsest tie fuel k).2 = k - fuel := by
  induction fuel generalizing k with
  | zero => simp [coarsest]
  | succ fuel ih =>
    rw [coarsest] at h ⊢
    cases hpoint : i.gridPoint? tie k with
    | some d =>
      rw [hpoint] at h
      exact absurd h (ne_zero_of_gridPoint? hlow hpoint)
    | none =>
      rw [hpoint] at h
      rw [ih h]
      omega

theorem low_pos {m : Nat} {e : Int} (hm : m ≠ 0) : 0 < (Interval.ofDouble m e).low := by
  simp only [ofDouble]
  split <;> omega

end Interval

theorem stripZeros_eq_zero {fuel d : Nat} {k : Int} (h : (stripZeros fuel d k).1 = 0) :
    d = 0 ∧ (stripZeros fuel d k).2 = k := by
  induction fuel generalizing d k with
  | zero => exact ⟨h, rfl⟩
  | succ fuel ih =>
    rw [stripZeros] at h ⊢
    split at h
    · obtain ⟨hd, -⟩ := ih h
      omega
    · rename_i hstop
      rw [if_neg hstop]
      exact ⟨h, rfl⟩

/-- A decimal that is zero is written without a power of ten. -/
theorem shortest_eq_zero (tie : Tie) (m : Nat) (e : Int) (h : (shortest tie m e).1 = 0) :
    (shortest tie m e).2 ≤ 0 := by
  unfold shortest at h ⊢
  split_ifs at h ⊢ with hm
  · exact Int.le_refl _
  · obtain ⟨hd, hk⟩ := stripZeros_eq_zero h
    rw [hk, Interval.coarsest_eq_zero (Interval.low_pos hm) hd]
    omega

/-- A finite double in plain numerals: that of its magnitude, after a minus if it has one. -/
theorem exists_plain (m : Nat) (e : Int) : ∃ n : Numeral, n.negative = false ∧ n.IsTidy ∧
    n.magnitude = (shortest .up m e).1 * 10 ^ (shortest .up m e).2 ∧
    ∀ negative, (plain.finite negative m e).toList = { n with negative }.chars := by
  obtain ⟨n, hn⟩ := exists_writes_positional (shortest_eq_zero .up m e)
  refine ⟨n, hn.positive, hn.tidy, hn.magnitude, fun negative => ?_⟩
  have hchars := hn.chars
  rw [Numeral.chars, hn.positive] at hchars
  simp only [Style.finite, plain, or_true, if_true, ← hchars, Numeral.chars, String.toList_ofList]
  cases negative <;> simp

end LogDispatch.Decimal
