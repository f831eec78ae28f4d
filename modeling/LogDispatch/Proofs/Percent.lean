import LogDispatch.Proofs.Products
import LogDispatch.Proofs.Rounding

/-! Percentages. The number is multiplied as a double, so what a pattern with a percent sign shows is the double nearest to a
    hundred times the number, and beyond the greatest double an infinity (`percent_shows_nearest`). -/

namespace LogDispatch

namespace Decimal

open Float.Model Float.Model.UnpackedFloat

/-! ### The number of a double -/

/-- The number that a finite double stands for. -/
def Binary.value : Binary → ℚ
  | .finite negative m e => if negative then -dyadic m e else dyadic m e
  | _ => 0

def value (f : Float) : ℚ := (Binary.ofFloat f).value

def Binary.IsEven : Binary → Prop
  | .finite _ m _ => m % 2 = 0
  | _ => False

/-- A finite double to which a number rounds: no finite double is nearer, and another one is as near only if the mantissa of
    this one is even. -/
structure IsNearest (f : Float) (x : ℚ) : Prop where
  isFinite : f.isFinite = true
  le : ∀ g : Float, g.isFinite = true → |x - value f| ≤ |x - value g|
  even : ∀ g : Float, g.isFinite = true → |x - value g| = |x - value f| → value g = value f ∨ (Binary.ofFloat f).IsEven

/-- Half a step behind the greatest double. -/
def greatestEnd : ℚ := (2 ^ 54 - 1) * 2 ^ (970 : Int)

section
variable {f : Float} {negative : Bool} {m : Nat} {e : Int} {x : ℚ}

theorem value_of_ofFloat (hf : Binary.ofFloat f = .finite negative m e) :
    value f = if negative then -dyadic m e else dyadic m e := by rw [value, hf, Binary.value]

/-- A finite double lies on the side of a number as far from it as their magnitudes are from each other, or on the other side
    and so as far as both of them together. -/
theorem exists_dist_value (hx : 0 ≤ x) (negative : Bool) {g : Float} (hg : g.isFinite = true) : ∃ m e, IsDouble m e ∧
    (value g = (if negative then -dyadic m e else dyadic m e) ∧
        |(if negative then -x else x) - value g| = |x - dyadic m e| ∨
      value g = (if negative then dyadic m e else -dyadic m e) ∧
        |(if negative then -x else x) - value g| = x + dyadic m e) := by
  obtain ⟨negative', m, e, hfloat, -, -⟩ := exists_magnitude hg
  have hsum : 0 ≤ x + dyadic m e := add_nonneg hx (dyadic_nonneg m e)
  refine ⟨m, e, (isDouble_of_ofFloat hfloat).1, ?_⟩
  rw [value_of_ofFloat hfloat]
  cases negative <;> cases negative' <;> simp only [if_true, if_false, Bool.false_eq_true]
  · exact .inl ⟨trivial, trivial⟩
  · exact .inr ⟨trivial, by rw [sub_neg_eq_add, abs_of_nonneg hsum]⟩
  · exact .inr ⟨trivial, by rw [← neg_add', abs_neg, abs_of_nonneg hsum]⟩
  · exact .inl ⟨trivial, by rw [neg_sub_neg, abs_sub_comm]⟩

theorem isNearest_of_mem (hf : Binary.ofFloat f = .finite negative m e) (hx : x ∈ Interval.ofDouble m e) :
    IsNearest f (if negative then -x else x) := by
  have h := (isDouble_of_ofFloat hf).1
  have hnonneg := nonneg_of_mem hx
  have hvalue := value_of_ofFloat hf
  obtain ⟨hnear, hnearest⟩ := abs_sub_le_of_mem h isDouble_zero hx
  rw [dyadic_zero, sub_zero, abs_of_nonneg hnonneg] at hnear hnearest
  have hself : |(if negative then -x else x) - value f| = |x - dyadic m e| := by
    rw [hvalue]
    cases negative
    · rfl
    · simp only [if_true]
      rw [neg_sub_neg, abs_sub_comm]
  refine ⟨isFinite_of_ofFloat hf, fun g hg => ?_, fun g hg heq => ?_⟩ <;> rw [hself] at *
  · obtain ⟨m', e', h', ⟨-, hdist⟩ | ⟨-, hdist⟩⟩ := exists_dist_value hnonneg negative hg
    · exact hdist ▸ (abs_sub_le_of_mem h h' hx).1
    · have hpos := dyadic_nonneg m' e'
      linarith
  · rw [hf]
    obtain ⟨m', e', h', ⟨hg, hdist⟩ | ⟨hg, hdist⟩⟩ := exists_dist_value hnonneg negative hg
    · rcases (abs_sub_le_of_mem h h' hx).2 (heq.symm.trans hdist) with ⟨rfl, rfl⟩ | heven
      · exact .inl (hg.trans hvalue.symm)
      · exact .inr heven
    -- as near from the other side is only a zero, and that lies on both sides
    · have hpos := dyadic_nonneg m' e'
      have hnone : dyadic m' e' = 0 := by linarith
      rw [hnone] at hg hdist
      rcases hnearest (by linarith) with ⟨rfl, rfl⟩ | heven
      · left
        rw [hg, hvalue, dyadic_zero, neg_zero]
      · exact .inr heven

/-! ### A hundred times a double -/

theorem ofFloat_hundred : Binary.ofFloat 100.0 = .finite false 7036874417766400 (-46) := rfl

theorem dyadic_hundred : dyadic 7036874417766400 (-46) = 100 := by norm_num [dyadic]

/-- A hundred times a finite double is the double nearest to a hundred times its number, with its sign, or infinite if there
    is none. -/
theorem hundred_times (hf : Binary.ofFloat f = .finite negative m e) :
    (|100 * value f| < greatestEnd → ∃ m' e', Binary.ofFloat (f * 100.0) = .finite negative m' e' ∧
      IsNearest (f * 100.0) (100 * value f)) ∧
    (greatestEnd ≤ |100 * value f| → Binary.ofFloat (f * 100.0) = .infinite negative) := by
  obtain ⟨m', e', h, hmem, hproduct⟩ := ofFloat_mul hf ofFloat_hundred
  rw [dyadic_hundred] at hmem
  rw [Bool.xor_false] at hproduct
  have hnonneg : 0 ≤ dyadic m e * 100 := mul_nonneg (dyadic_nonneg m e) (by norm_num)
  have hvalue : 100 * value f = if negative then -(dyadic m e * 100) else dyadic m e * 100 := by
    rw [value_of_ofFloat hf]
    cases negative <;> simp [mul_comm]
  have habs : |100 * value f| = dyadic m e * 100 := by
    rw [hvalue]
    cases negative <;> simp [abs_of_nonneg hnonneg]
  have hend := exponent_le_iff h hmem (show (-1074 : Int) ≤ 971 by norm_num)
  rw [habs]
  constructor
  · intro hlt
    rw [if_pos (hend.mpr hlt)] at hproduct
    exact ⟨m', e', hproduct, hvalue ▸ isNearest_of_mem hproduct hmem⟩
  · intro hle
    rwa [if_neg (mt hend.mp hle.not_gt)] at hproduct

/-- A double with a plus is not changed without its sign. -/
theorem abs_eq_self (hf : Binary.ofFloat f = .finite false m e) : f.abs = f := by
  obtain ⟨negative', m', e', hfloat, habs, -⟩ := exists_magnitude (isFinite_of_ofFloat hf)
  obtain ⟨rfl, rfl, rfl⟩ := Binary.finite.inj (hf.symm.trans hfloat)
  exact eq_of_ofFloat habs hf

theorem infinite_abs (hf : Binary.ofFloat f = .infinite negative) :
    Binary.ofFloat f.abs = .infinite false ∧ (f < 0.0 ↔ negative = true) := by
  have habs : f.abs.toModel = .pack f.toModel.unpack.abs := rfl
  rw [Binary.ofFloat_eq] at hf
  rw [Binary.ofFloat_eq, habs, lt_zero_iff]
  cases hunpack : f.toModel.unpack with
  | infinity sign =>
    rw [hunpack] at hf
    obtain rfl := Binary.infinite.inj hf
    cases sign
    · exact ⟨rfl, iff_of_true rfl rfl⟩
    · exact ⟨rfl, by simp [UnpackedFloat.compare, isMinus]⟩
  | _ => rw [hunpack] at hf; cases hf

end

end Decimal

namespace NumberPattern

open Decimal

variable {source : String} {p : NumberPattern} {v : Float}

/-! ### Percentages in patterns -/

theorem roundNumeral_inf (places : Nat) :
    roundNumeral "inf".toList places = ("inf".toList, List.replicate places '0') := by
  have hinf : "inf".toList = ['i', 'n', 'f'] := rfl
  have hlength : places + 1 + 1 + 1 - places = 3 := by omega
  simp [roundNumeral, hinf, hlength]

theorem dropZeros_replicate {least places : Nat} (h : least ≤ places) :
    dropZeros least (List.replicate places '0') = List.replicate least '0' := by
  simp [dropZeros, h]

/-- A hundred times a number is laid out by the pattern without its percent sign, while it is finite. -/
theorem format_percent {w : Float} (hpercent : p.percent = true) (hv : v.isFinite = true)
    (hw : (if p.absolute then v.abs else v) * 100.0 = w) (hfinite : w.isFinite = true)
    (habs : p.absolute = true → w.abs = w) : p.format v = { p with percent := false }.format w := by
  have hsame : (if p.absolute then w.abs else w) = w := by
    split_ifs with habsolute
    · exact habs habsolute
    · rfl
  simp only [format, hv, hfinite, hpercent, hw, hsame, if_true, if_false, Bool.false_eq_true]

/-- An infinity is laid out as its name, with the fraction digits that are always written. -/
theorem format_percent_infinite {negative : Bool} {w : Float} (hcompile : compile source = .ok p) (hpercent : p.percent = true)
    (hv : v.isFinite = true) (hw : (if p.absolute then v.abs else v) * 100.0 = w)
    (hinfinite : Binary.ofFloat w = .infinite negative) : (p.format v).toList = (if negative then ['-'] else []) ++
      "inf".toList ++ (if p.minFraction = 0 then [] else '.' :: List.replicate p.minFraction '0') := by
  obtain ⟨habs, hbelow⟩ := infinite_abs hinfinite
  have htext : (plainText w.abs).toList = "inf".toList := by rw [plainText, habs]
  have hseparated : separated "inf".toList = "inf".toList := rfl
  have hzero : ("inf".toList.all (· == '0')) = false := rfl
  have hdrop := dropZeros_replicate (minFraction_le hcompile)
  simp only [format, hv, hpercent, hw, if_true, htext, roundNumeral_inf, hdrop, hseparated, ite_self, hzero, hbelow,
    Bool.false_and, Bool.not_false, Bool.and_true, String.toList_ofList]
  by_cases hleast : p.minFraction = 0 <;> simp [hleast]

/-- A finite number of a pattern with a percent sign is shown as the double nearest to a hundred times it would be without
    that sign; past the greatest double stands the name of an infinity. -/
theorem percent_shows_nearest (hcompile : compile source = .ok p) (hpercent : p.percent = true)
    (hfinite : v.isFinite = true) :
    (|100 * value v| < greatestEnd → ∃ w : Float, IsNearest w (100 * if p.absolute then |value v| else value v) ∧
      p.format v = { p with percent := false }.format w) ∧
    (greatestEnd ≤ |100 * value v| → (p.format v).toList =
      (if p.absolute = false ∧ value v < 0 then ['-'] else []) ++ "inf".toList ++
        (if p.minFraction = 0 then [] else '.' :: List.replicate p.minFraction '0')) := by
  obtain ⟨negative, m, e, hfloat, habs, -⟩ := exists_magnitude hfinite
  have hvalue := value_of_ofFloat hfloat
  have hnonneg := dyadic_nonneg m e
  -- what is multiplied has the sign of the number unless the pattern drops it
  obtain ⟨u, hu, hufloat⟩ : ∃ u, (if p.absolute then v.abs else v) = u ∧
      Binary.ofFloat u = .finite (negative && !p.absolute) m e := by
    cases habsolute : p.absolute
    · exact ⟨v, by simp, by simpa using hfloat⟩
    · exact ⟨v.abs, by simp, by simpa using habs⟩
  have huvalue : value u = if p.absolute then |value v| else value v := by
    rw [hvalue, value_of_ofFloat hufloat]
    cases negative <;> cases p.absolute <;> simp [abs_of_nonneg hnonneg]
  have huabs : |100 * value u| = |100 * value v| := by
    rw [huvalue]
    cases p.absolute <;> simp [abs_mul]
  obtain ⟨hnearest, hinfinite⟩ := hundred_times hufloat
  rw [huabs] at hnearest hinfinite
  constructor
  · intro hlt
    obtain ⟨m', e', hw, hnear⟩ := hnearest hlt
    refine ⟨u * 100.0, huvalue ▸ hnear, format_percent hpercent hfinite (by rw [hu]) hnear.isFinite fun habsolute => ?_⟩
    rw [habsolute, Bool.not_true, Bool.and_false] at hw
    exact abs_eq_self hw
  · intro hle
    have hpos : 0 < dyadic m e := by
      refine lt_of_le_of_ne hnonneg fun hzero => hle.not_gt ?_
      have hnone : value v = 0 := by rw [hvalue, ← hzero, neg_zero, ite_self]
      rw [hnone, mul_zero, abs_zero, greatestEnd]
      positivity
    have hminus : (negative && !p.absolute) = true ↔ p.absolute = false ∧ value v < 0 := by
      rw [hvalue]
      cases negative <;> cases p.absolute <;> simp [hpos, hnonneg]
    rw [format_percent_infinite hcompile hpercent hfinite (by rw [hu]) (hinfinite hle)]
    simp only [hminus]

/-- A hundred times `0.285` ends in a half, and the double nearest to that does not. -/
theorem half_lost_in_product :
    compile "0%" = .ok ⟨"0%", false, true, false, 0, 0⟩ ∧ (Float.ofBits 0x3fd23d70a3d70a3d).isFinite = true ∧
    ∃ w : Float, IsNearest w (100 * value (Float.ofBits 0x3fd23d70a3d70a3d)) ∧
      format ⟨"0%", false, false, false, 0, 0⟩ w = "28" := by
  have hcompile : compile "0%" = .ok ⟨"0%", false, true, false, 0, 0⟩ := rfl
  have hfinite : (Float.ofBits 0x3fd23d70a3d70a3d).isFinite = true := rfl
  have hformat : format ⟨"0%", false, true, false, 0, 0⟩ (Float.ofBits 0x3fd23d70a3d70a3d) = "28" := rfl
  have hfloat : Binary.ofFloat (Float.ofBits 0x3fd23d70a3d70a3d) = .finite false 5134103575202365 (-54) := rfl
  have hsmall : |100 * value (Float.ofBits 0x3fd23d70a3d70a3d)| < greatestEnd := by
    have hone : (1 : ℚ) ≤ 2 ^ (970 : Int) := one_le_zpow₀ (by norm_num) (by norm_num)
    rw [value_of_ofFloat hfloat, greatestEnd]
    refine lt_of_lt_of_le ?_ (mul_le_mul_of_nonneg_left hone (by norm_num))
    norm_num [dyadic, abs_of_pos]
  obtain ⟨w, hnear, hw⟩ := (percent_shows_nearest hcompile rfl hfinite).1 hsmall
  exact ⟨hcompile, hfinite, w, hnear, hw.symm.trans hformat⟩

/-- The decimal that is seen, a hundred times as large, would be rounded up; and a large number is not shown as a numeral. -/
theorem product_rounded_before_decimal :
    compile "0%" = .ok ⟨"0%", false, true, false, 0, 0⟩ ∧
    plainText (Float.ofBits 0x3fd23d70a3d70a3d) = "0.285" ∧ roundAway 0 (100 * (285 / 10 ^ 3)) = 29 ∧
    format ⟨"0%", false, true, false, 0, 0⟩ (Float.ofBits 0x3fd23d70a3d70a3d) = "28" ∧
    (Float.ofBits 0x7fac7b1f3cac7433).isFinite = true ∧
    format ⟨"0%", false, true, false, 0, 0⟩ (Float.ofBits 0x7fac7b1f3cac7433) = "inf" := by
  refine ⟨rfl, rfl, ?_, rfl, rfl, rfl⟩
  have hhalf : ⌊(100 * (285 / 10 ^ 3) : ℚ) * 10 ^ 0 + 1 / 2⌋₊ = 29 := by norm_num
  rw [roundAway_of_nonneg (by norm_num), hhalf]
  norm_num

end NumberPattern

end LogDispatch
