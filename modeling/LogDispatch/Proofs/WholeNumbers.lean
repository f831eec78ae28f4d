import LogDispatch.Formatter.Caching
import LogDispatch.Message
import LogDispatch.Proofs.Nearest
import LogDispatch.Proofs.Rounding
import LogDispatch.Proofs.Shortest

/-! Whole numbers in texts. A number of 64 bits is shown by way of the double nearest to it, so what is shown is a whole
    number with the same nearest double, and up to 53 bits it is the number itself (`integers_shown`). -/

namespace LogDispatch

namespace Decimal

/-! ### The double nearest to a whole number -/

section
variable {a m : Nat} {e : Int}

/-- A number below `2 ^ 53` is a double. -/
theorem dyadic_eq_of_lt (h : IsDouble m e) (ha : a ≠ 0) (hlt : a < 2 ^ 53) (hx : (a : ℚ) ∈ Interval.ofDouble m e) :
    dyadic m e = a ∧ e ≤ 0 := by
  have hbits : a.log2 < 53 := (Nat.log2_lt ha).mpr hlt
  have hpow : 2 ^ a.log2 * 2 ^ (52 - a.log2) = 2 ^ 52 := by
    rw [← Nat.pow_add]
    congr 1
    omega
  -- filled up to 53 bits the number is the mantissa of a double
  have hvalue : dyadic (a * 2 ^ (52 - a.log2)) ((a.log2 : Int) - 52) = a := by
    have hexponent : (a.log2 : Int) - 52 = -((52 - a.log2 : Nat) : Int) := by omega
    rw [dyadic, hexponent, zpow_neg, zpow_natCast]
    push_cast
    field_simp
  have hdouble : IsDouble (a * 2 ^ (52 - a.log2)) ((a.log2 : Int) - 52) := by
    refine ⟨?_, by omega, fun _ => hpow ▸ Nat.mul_le_mul_right _ (Nat.log2_self_le ha)⟩
    calc a * 2 ^ (52 - a.log2) < 2 ^ (a.log2 + 1) * 2 ^ (52 - a.log2) :=
          Nat.mul_lt_mul_of_pos_right Nat.lt_log2_self (Nat.two_pow_pos _)
      _ = 2 ^ 53 := by rw [Nat.pow_succ, Nat.mul_right_comm, hpow]; rfl
  obtain ⟨rfl, rfl⟩ := eq_of_mem h hdouble hx (hvalue ▸ dyadic_mem _ _)
  exact ⟨hvalue, by omega⟩

/-- From `2 ^ 53` on doubles are whole. -/
theorem exponent_nonneg_of_le (h : IsDouble m e) (hle : 2 ^ 53 ≤ a) (hx : (a : ℚ) ∈ Interval.ofDouble m e) : 0 ≤ e := by
  by_contra hneg
  have hlt := (exponent_le_iff h hx (show (-1074 : Int) ≤ -1 by norm_num)).mp (by omega)
  have hle : (2 ^ 53 : ℚ) ≤ a := by exact_mod_cast hle
  norm_num at hlt
  linarith

/-- The double nearest to a whole number is whole. -/
theorem exists_dyadic_eq_nat (h : IsDouble m e) (ha : a ≠ 0) (hx : (a : ℚ) ∈ Interval.ofDouble m e) :
    m ≠ 0 ∧ ∃ y : Nat, dyadic m e = y := by
  rcases Nat.lt_or_ge a (2 ^ 53) with hlt | hle
  · obtain ⟨hvalue, -⟩ := dyadic_eq_of_lt h ha hlt hx
    refine ⟨?_, a, hvalue⟩
    rintro rfl
    rw [dyadic_zero] at hvalue
    exact ha (by exact_mod_cast hvalue.symm)
  · obtain ⟨p, rfl⟩ := Int.eq_ofNat_of_zero_le (exponent_nonneg_of_le h hle hx)
    have hfull := h.full (by omega)
    exact ⟨by omega, m * 2 ^ p, by simp [dyadic]⟩

/-- Below `2 ^ 53` no two whole numbers have the same nearest double. -/
theorem eq_of_mem_nat {k : Nat} (h : IsDouble m e) (ha : a ≠ 0) (hlt : a < 2 ^ 53) (hx : (a : ℚ) ∈ Interval.ofDouble m e)
    (hk : (k : ℚ) ∈ Interval.ofDouble m e) : k = a := by
  obtain ⟨hvalue, he⟩ := dyadic_eq_of_lt h ha hlt hx
  obtain ⟨hlow, hhigh, -⟩ := hk
  have hunit : (2 : ℚ) ^ (e - 2) ≤ 2 ^ (-2 : Int) := zpow_le_zpow_right₀ (by norm_num) (by omega)
  have hpos : (0 : ℚ) < 2 ^ (e - 2) := by positivity
  have hbegin : (4 * m - 2 : ℚ) * 2 ^ (e - 2) ≤ (Interval.ofDouble m e).bottom := by
    have hle : (4 * m : ℚ) ≤ (Interval.ofDouble m e).low + 2 := by exact_mod_cast Interval.le_low_add m e
    exact mul_le_mul_of_nonneg_right (by linarith) hpos.le
  rw [top_eq] at hhigh
  rw [dyadic_eq_mul] at hvalue
  norm_num at hunit
  have hbelow : (k : ℚ) < a + 1 := by linarith
  have habove : (a : ℚ) < k + 1 := by linarith
  have hbelow : k < a + 1 := by exact_mod_cast hbelow
  have habove : a < k + 1 := by exact_mod_cast habove
  omega

end

/-! ### Its shortest decimal -/

/-- Zeros behind the digits of a number. -/
theorem toDigits_append_zeros {d : Nat} (hd : d ≠ 0) (z : Nat) :
    Nat.toDigits 10 d ++ List.replicate z '0' = Nat.toDigits 10 (d * 10 ^ z) := by
  induction z with
  | zero => simp
  | succ z ih =>
    have hpos : 0 < d * 10 ^ z := by positivity
    have hstep := Nat.toDigits_append_toDigits (b := 10) (d := 0) (by decide) hpos (by decide)
    rw [List.replicate_succ', ← List.append_assoc, ih, Nat.pow_succ, ← Nat.mul_assoc, Nat.mul_comm _ 10]
    exact hstep

/-- The double nearest to a whole number is written as a whole number to which it is nearest as well. -/
theorem exists_digits {a m : Nat} {e : Int} (h : IsDouble m e) (ha : a ≠ 0) (hx : (a : ℚ) ∈ Interval.ofDouble m e) :
    ∃ k : Nat, k ≠ 0 ∧ (k : ℚ) ∈ Interval.ofDouble m e ∧ (a ≤ 2 ^ 53 → k = a) ∧
      ∀ negative, (plain.finite negative m e).toList = (if negative then ['-'] else []) ++ Nat.toDigits 10 k := by
  obtain ⟨hm, y, hy⟩ := exists_dyadic_eq_nat h ha hx
  have hmem := shortest_mem .up hm (e := e)
  obtain ⟨z, hz⟩ := Int.eq_ofNat_of_zero_le (shortest_nonneg .up hm hy)
  have hvalue : ((shortest .up m e).1 * 10 ^ (shortest .up m e).2 : ℚ) = ((shortest .up m e).1 * 10 ^ z : Nat) := by
    rw [hz]
    push_cast
    rfl
  rw [hvalue] at hmem
  have hd : (shortest .up m e).1 ≠ 0 := fun hzero => by
    have hpos := pos_of_mem hm hmem
    rw [hzero, Nat.zero_mul, Nat.cast_zero] at hpos
    exact hpos.false
  refine ⟨(shortest .up m e).1 * 10 ^ z, by positivity, hmem, fun hle => ?_, fun negative => ?_⟩
  · rcases Nat.lt_or_eq_of_le hle with hlt | rfl
    · exact eq_of_mem_nat h ha hlt hx hmem
    -- the number after `2 ^ 53` rounds to it as well, so here the search itself has to be run
    · have hdouble : IsDouble (2 ^ 52) 1 := ⟨by norm_num, by norm_num, fun _ => le_rfl⟩
      have hself : ((2 ^ 53 : Nat) : ℚ) ∈ Interval.ofDouble (2 ^ 52) 1 := by
        have hvalue : dyadic (2 ^ 52) 1 = (2 ^ 53 : Nat) := by
          rw [dyadic, zpow_one]
          norm_num
        exact hvalue ▸ dyadic_mem _ _
      obtain ⟨rfl, rfl⟩ := eq_of_mem h hdouble hx hself
      have hshortest : shortest .up (2 ^ 52) 1 = (2 ^ 53, 0) := by decide
      rw [hshortest] at hz ⊢
      obtain rfl : 0 = z := Int.ofNat.inj hz
      rfl
  · rw [← toDigits_append_zeros hd]
    simp only [Style.finite, plain, or_true, if_true, positional, hz, Int.natCast_nonneg, Int.toNat_natCast]
    cases negative <;> simp

theorem toList_toString (k : Nat) (negative : Bool) (hk : negative = true → k ≠ 0) :
    (toString (if negative then -(k : Int) else k)).toList = (if negative then ['-'] else []) ++ Nat.toDigits 10 k := by
  cases negative with
  | false => exact Nat.toList_repr
  | true =>
    obtain ⟨j, rfl⟩ := Nat.exists_eq_succ_of_ne_zero (hk rfl)
    have hrepr : toString (-((j + 1 : Nat) : Int)) = "-" ++ Nat.repr (j + 1) := rfl
    rw [if_pos rfl, hrepr, String.toList_append, Nat.toList_repr]
    rfl

/-- A number of 64 bits as the double nearest to it. -/
theorem exists_ofFloat_ofInt {n : Int} (hn : n ≠ 0) (hsize : n.natAbs ≤ 2 ^ 63) : ∃ m e, IsDouble m e ∧
    (n.natAbs : ℚ) ∈ Interval.ofDouble m e ∧ Binary.ofFloat (ofInt n) = .finite (n < 0) m e := by
  have habs : n.natAbs ≠ 0 := Int.natAbs_ne_zero.mpr hn
  obtain ⟨m, e, h, hx, hfloat⟩ := ofFloat_nearest habs one_ne_zero (n < 0)
  rw [Nat.cast_one, div_one] at hx
  have hle : e ≤ 971 := by
    have hsize : (n.natAbs : ℚ) ≤ 2 ^ 63 := by exact_mod_cast hsize
    have hsmall := (exponent_le_iff h hx (show (-1074 : Int) ≤ 11 by norm_num)).mpr (hsize.trans_lt (by norm_num))
    omega
  rw [if_pos hle] at hfloat
  exact ⟨m, e, h, hx, hfloat⟩

/-- A number and the whole number that is shown in its place. -/
structure Shown (n k : Int) : Prop where
  isFinite : (ofInt n).isFinite = true
  whole : Message.truncated (ofInt n) = ofInt n
  text : plainText (ofInt n) = toString k
  magnitude : plainText (ofInt n).abs = toString k.natAbs
  below : ofInt n < 0.0 ↔ k < 0
  nearest : ofInt k = ofInt n
  same : n.natAbs ≤ 2 ^ 53 → k = n

/-- A double with an exponent below zero is cut off before its point. -/
theorem truncated_ofInt {n : Int} {m : Nat} {e : Int} (hfloat : Binary.ofFloat (ofInt n) = .finite (n < 0) m e)
    (hwhole : e < 0 → dyadic m e = n.natAbs) : Message.truncated (ofInt n) = ofInt n := by
  rw [Message.truncated, hfloat]
  dsimp only
  split_ifs with he
  · obtain ⟨p, hp⟩ := Int.eq_ofNat_of_zero_le (show 0 ≤ -e by omega)
    have hm : m = n.natAbs * 2 ^ p := by
      have hvalue := hwhole he
      rw [dyadic, show e = -(p : Int) by omega, zpow_neg, zpow_natCast, mul_inv_eq_iff_eq_mul₀ (by positivity)] at hvalue
      exact_mod_cast hvalue
    rw [hp, Int.toNat_natCast, hm, Nat.pow_eq, Nat.mul_div_cancel _ (Nat.two_pow_pos p)]
    rfl
  · rfl

theorem shown_zero : Shown 0 0 where
  isFinite := rfl
  whole := truncated_ofInt (m := 0) (e := -1074) rfl fun _ => dyadic_zero _
  text := rfl
  magnitude := rfl
  below := by decide
  nearest := rfl
  same _ := rfl

theorem exists_shown {n : Int} (hsize : n.natAbs ≤ 2 ^ 63) : ∃ k, Shown n k := by
  rcases eq_or_ne n 0 with rfl | hn
  · exact ⟨0, shown_zero⟩
  have habs : n.natAbs ≠ 0 := Int.natAbs_ne_zero.mpr hn
  obtain ⟨m, e, h, hx, hfloat⟩ := exists_ofFloat_ofInt hn hsize
  obtain ⟨hm, -⟩ := exists_dyadic_eq_nat h habs hx
  obtain ⟨k, hk, hkmem, hsame, htext⟩ := exists_digits h habs hx
  have hfinite := isFinite_of_ofFloat hfloat
  obtain ⟨negative, m', e', hfloat', hmagnitude, hbelow⟩ := exists_magnitude hfinite
  obtain ⟨rfl, rfl, rfl⟩ := Binary.finite.inj (hfloat'.symm.trans hfloat)
  have hneg : (if decide (n < 0) = true then -(k : Int) else k) < 0 ↔ n < 0 := by
    simp only [decide_eq_true_eq]
    split_ifs <;> omega
  have hnatAbs : (if decide (n < 0) = true then -(k : Int) else k).natAbs = k := by split_ifs <;> omega
  refine ⟨if decide (n < 0) = true then -(k : Int) else k, hfinite, truncated_ofInt hfloat fun he => ?_, ?_, ?_, ?_, ?_,
    fun hle => ?_⟩
  · refine (dyadic_eq_of_lt h habs ?_ hx).1
    by_contra hlarge
    exact he.not_ge (exponent_nonneg_of_le h (Nat.le_of_not_lt hlarge) hx)
  · rw [← String.toList_inj, toList_toString k _ fun _ => hk, ← htext, plainText, hfloat]
  · rw [← String.toList_inj, hnatAbs, plainText, hmagnitude]
    exact (htext false).trans Nat.toList_repr.symm
  · rw [hbelow, hneg, decide_eq_true_iff, and_iff_left hm]
  · rw [ofInt, ofInt, hnatAbs, Decimal.nearest, Decimal.nearest, decide_eq_decide.mpr hneg,
      nearestBits_congr h hk one_ne_zero habs one_ne_zero (by simpa using hkmem) (by simpa using hx)]
  · rw [hsame hle]
    simp only [decide_eq_true_eq]
    split_ifs <;> omega

end Decimal

/-! ### Where it is shown -/

/-- Without places behind the point a whole numeral stays as it is. -/
theorem NumberPattern.roundNumeral_zero {ds : List Char} (h : ∀ c ∈ ds, c.isDigit = true) :
    roundNumeral ds 0 = (ds, []) := by
  have htake : ds.takeWhile (· != '.') = ds := List.takeWhile_eq_self_iff.mpr fun c hc => ne_point (h c hc)
  have hdrop : ds.dropWhile (· != '.') = [] := List.dropWhile_eq_nil_iff.mpr fun c hc => ne_point (h c hc)
  simp [roundNumeral, htake, hdrop]

/-- The pattern `0`. -/
def NumberPattern.plainWhole : NumberPattern := ⟨"0", false, false, false, 0, 0⟩

theorem NumberPattern.format_plainWhole {n k : Int} (h : Decimal.Shown n k) :
    plainWhole.format (Decimal.ofInt n) = toString k := by
  have hdigits : (Decimal.plainText (Decimal.ofInt n).abs).toList = Nat.toDigits 10 k.natAbs := by
    rw [h.magnitude]
    exact Nat.toList_repr
  have hround : roundNumeral (Nat.toDigits 10 k.natAbs) 0 = (Nat.toDigits 10 k.natAbs, []) :=
    roundNumeral_zero fun c => Decimal.isDigit_toDigits
  have hzero : (Nat.toDigits 10 k.natAbs).all (· == '0') = true ↔ k = 0 := by
    rw [← Decimal.worth_eq_zero_iff fun c => Decimal.isDigit_toDigits, Decimal.worth, Nat.ofDigitChars_ten_toDigits,
      Int.natAbs_eq_zero]
  have hsign : (decide (Decimal.ofInt n < 0.0) && !(Nat.toDigits 10 k.natAbs).all (· == '0')) = decide (k < 0) := by
    rw [Bool.eq_iff_iff, Bool.and_eq_true, decide_eq_true_iff, decide_eq_true_iff, h.below, Bool.not_eq_true',
      ← Bool.not_eq_true, hzero]
    omega
  have hk : (if decide (k < 0) = true then -(k.natAbs : Int) else k.natAbs) = k := by
    simp only [decide_eq_true_eq]
    split_ifs <;> omega
  rw [← String.toList_inj]
  conv_rhs => rw [← hk, Decimal.toList_toString _ _ fun hneg => by simp only [decide_eq_true_eq] at hneg; omega]
  simp [format, plainWhole, h.isFinite, hdigits, hround, dropZeros, hsign]

/-- Every whole number of 64 bits is shown as a whole number with the same nearest double, one and the same number by the
    directives for numbers and by the stage for number patterns; up to `2 ^ 53` that is the number itself. -/
theorem integers_shown (n : Int64) : ∃ k : Int, Decimal.ofInt k = Decimal.ofInt n.toInt ∧
    (n.toInt.natAbs ≤ 2 ^ 53 → k = n.toInt) ∧
    (∀ d ∈ ['d', 'i'], ∀ cs vs,
      Message.fill ('%' :: d :: cs) (.int n.toInt :: vs) = (toString k).toList ++ Message.fill cs vs) ∧
    ∀ source, ∃ stage, Template.readStage source Formatters.builtins "format(f=0)".toList = .ok stage ∧
      stage.apply (.int n.toInt) = .ok (some (.text (toString k))) := by
  have hsize : n.toInt.natAbs ≤ 2 ^ 63 := by
    have hlow := n.le_toInt
    have hhigh := n.toInt_lt
    omega
  obtain ⟨k, h⟩ := Decimal.exists_shown hsize
  refine ⟨k, h.nearest, h.same, fun d hd cs vs => ?_, fun source => ?_⟩
  · simp only [List.mem_cons, List.not_mem_nil, or_false] at hd
    rcases hd with rfl | rfl
    · show (Decimal.plainText (Decimal.ofInt n.toInt)).toList ++ _ = _
      rw [h.text]
    · show (Decimal.plainText (Message.truncated (Decimal.ofInt n.toInt))).toList ++ _ = _
      rw [h.whole, h.text]
  · refine ⟨⟨"format", Dict.ofList [("f", "0")], some PatternStage.formatter⟩, rfl, ?_⟩
    rw [← NumberPattern.format_plainWhole h]
    rfl

/-- The first number past `2 ^ 53` is no double, and the one before it is shown in its place. -/
theorem first_odd_integer_changed :
    Message.fill "%d".toList [.int 9007199254740993] = "9007199254740992".toList ∧
    Message.fill "%i".toList [.int 9007199254740993] = "9007199254740992".toList ∧
    PatternStage.apply (.int 9007199254740993) (Dict.ofList [("f", "0")]) = .ok (some (.text "9007199254740992")) ∧
    toString (9007199254740993 : Int) ≠ "9007199254740992" := by
  refine ⟨by decide, by decide, by rfl, by decide⟩

end LogDispatch
