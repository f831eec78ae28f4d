import LogDispatch.Proofs.Doubles
import LogDispatch.Proofs.Intervals

/-! Numbers rounded to doubles, and the bits of doubles. A quotient is rounded to the double in whose interval it lies, and
    to an infinity past the greatest one (`ofFloat_nearest`); the bits of a finite double are those of its sign, mantissa
    and exponent and of no other (`eq_of_ofFloat`). -/

namespace LogDispatch.Decimal

section
variable {m n d : Nat} {e : Int}

/-! ### Rounding -/

/-- A quotient rounded to a whole number, a half to the even one. -/
def roundEven (n d : Nat) : Nat := if d < 2 * (n % d) ∨ (2 * (n % d) = d ∧ n / d % 2 = 1) then n / d + 1 else n / d

/-- A quotient lies in an interval if it does in units of a quarter of the step there. -/
theorem mem_of_quarters (hd : 0 < d) (hlow : (Interval.ofDouble m e).low * d ≤ 4 * n) (hhigh : 4 * n ≤ (4 * m + 2) * d)
    (hends : m % 2 = 0 ∨ (Interval.ofDouble m e).low * d < 4 * n ∧ 4 * n < (4 * m + 2) * d) :
    (n / d : ℚ) * 2 ^ e ∈ Interval.ofDouble m e := by
  have hd : (0 : ℚ) < d := by exact_mod_cast hd
  have hpos : (0 : ℚ) < 2 ^ (e - 2) := by positivity
  have hx : (n / d : ℚ) * 2 ^ e = 4 * n / d * 2 ^ (e - 2) := by
    rw [zpow_sub₀ (by norm_num)]
    ring
  have hlow : ((Interval.ofDouble m e).low * d : ℚ) ≤ 4 * n := by exact_mod_cast hlow
  have hhigh : (4 * n : ℚ) ≤ (4 * m + 2) * d := by exact_mod_cast hhigh
  have hends : m % 2 = 0 ∨ ((Interval.ofDouble m e).low * d : ℚ) < 4 * n ∧ (4 * n : ℚ) < (4 * m + 2) * d :=
    hends.imp_right fun h => ⟨by exact_mod_cast h.1, by exact_mod_cast h.2⟩
  rw [hx]
  refine ⟨?_, ?_, hends.imp Interval.closed_ofDouble.mpr fun h => ⟨?_, ?_⟩⟩
  · exact mul_le_mul_of_nonneg_right ((le_div_iff₀ hd).mpr hlow) hpos.le
  · rw [top_eq]
    exact mul_le_mul_of_nonneg_right ((div_le_iff₀ hd).mpr hhigh) hpos.le
  · exact mul_lt_mul_of_pos_right ((lt_div_iff₀ hd).mpr h.1) hpos
  · rw [top_eq]
    exact mul_lt_mul_of_pos_right ((div_lt_iff₀ hd).mpr h.2) hpos

/-- A quotient of at most 53 bits in whole, and of no less above the least exponent, rounds to the double in whose interval
    it lies. A carry past 53 bits goes over to the next exponent. -/
theorem exists_roundEven (hd : 0 < d) (hleast : -1074 ≤ e) (hlt : n / d < 2 ^ 53) (hfull : e ≠ -1074 → 2 ^ 52 ≤ n / d) :
    ∃ m e', IsDouble m e' ∧ (n / d : ℚ) * 2 ^ e ∈ Interval.ofDouble m e' ∧
      (roundEven n d = m ∧ e' = e ∨ roundEven n d = 2 ^ 53 ∧ m = 2 ^ 52 ∧ e' = e + 1) := by
  have hdiv : d * (n / d) + n % d = n := Nat.div_add_mod n d
  have hmod := Nat.mod_lt n hd
  unfold roundEven
  generalize n / d = q at *
  generalize n % d = r at *
  by_cases hup : d < 2 * r ∨ 2 * r = d ∧ q % 2 = 1
  · rw [if_pos hup]
    by_cases hcarry : q + 1 = 2 ^ 53
    · obtain rfl : q = 2 ^ 53 - 1 := by omega
      have hdouble : (n / d : ℚ) * 2 ^ e = (n / (2 * d : Nat) : ℚ) * 2 ^ (e + 1) := by
        rw [zpow_add_one₀ (by norm_num)]
        push_cast
        field_simp
      have hlow : (Interval.ofDouble (2 ^ 52) (e + 1)).low = 2 ^ 54 - 1 := Interval.low_two_pow (by omega)
      refine ⟨2 ^ 52, e + 1, ⟨by norm_num, by omega, fun _ => le_rfl⟩, ?_, .inr ⟨hcarry, rfl, rfl⟩⟩
      rw [hdouble]
      exact mem_of_quarters (by omega) (by rw [hlow]; omega) (by omega) (.inl rfl)
    · have hlow : (Interval.ofDouble (q + 1) e).low = 4 * q + 2 := if_neg fun hpower => by
        have hfull := hfull hpower.2
        have hleast : q + 1 = 2 ^ 52 := hpower.1
        omega
      have hquarters : (4 * q + 2) * d = 4 * (d * q) + 2 * d := by ring
      have hquarters' : (4 * (q + 1) + 2) * d = 4 * (d * q) + 6 * d := by ring
      refine ⟨q + 1, e, ⟨by omega, hleast, fun h => (hfull h).trans (Nat.le_succ q)⟩, ?_, .inl ⟨rfl, rfl⟩⟩
      exact mem_of_quarters hd (by rw [hlow]; omega) (by omega) (by rw [hlow]; omega)
  · rw [if_neg hup]
    have hlow := Nat.mul_le_mul_right d (Interval.low_le q e)
    have hquarters : 4 * q * d = 4 * (d * q) := by ring
    have hquarters' : (4 * q + 2) * d = 4 * (d * q) + 2 * d := by ring
    refine ⟨q, e, ⟨hlt, hleast, hfull⟩, mem_of_quarters hd (by omega) (by omega) ?_, .inl ⟨rfl, rfl⟩⟩
    refine or_iff_not_imp_left.mpr fun hodd => ⟨?_, by omega⟩
    have hlow := Nat.mul_lt_mul_of_pos_right (Interval.low_lt (m := q) (e := e) (by omega)) hd
    omega

/-! ### Quotients -/

variable {num den : Nat}

/-- A quotient in steps of `2 ^ e`: its numerator and its denominator. -/
def stepsNum (num : Nat) (e : Int) : Nat := num * 2 ^ (-e).toNat

def stepsDen (den : Nat) (e : Int) : Nat := den * 2 ^ e.toNat

theorem stepsDen_pos (hden : 0 < den) (e : Int) : 0 < stepsDen den e := Nat.mul_pos hden (Nat.two_pow_pos _)

theorem div_steps (num den : Nat) (e : Int) : (stepsNum num e / stepsDen den e : ℚ) * 2 ^ e = num / den := by
  simp only [stepsNum, stepsDen]
  push_cast
  rw [div_mul_eq_mul_div, mul_assoc, pow_toNat_mul (by norm_num), mul_div_mul_right _ _ (by positivity)]

/-- The exponent whose steps a quotient is counted in: with the first estimate 53 or 54 bits are left. -/
def stepExponent (num den : Nat) : Int :=
  let e : Int := max (-1074) ((num.log2 : Int) - (den.log2 : Int) - 53)
  if 2 ^ 53 ≤ stepsNum num e / stepsDen den e then e + 1 else e

theorem steps_lt_iff (hden : 0 < den) {k : Nat} :
    stepsNum num e / stepsDen den e < k ↔ (num / den : ℚ) < k * 2 ^ e := by
  have hpos : (0 : ℚ) < stepsDen den e := by exact_mod_cast stepsDen_pos hden e
  rw [Nat.div_lt_iff_lt_mul (stepsDen_pos hden e), ← div_steps num den e, mul_lt_mul_iff_of_pos_right (by positivity),
    div_lt_iff₀ hpos]
  exact_mod_cast Iff.rfl

theorem le_steps_iff (hden : 0 < den) {k : Nat} :
    k ≤ stepsNum num e / stepsDen den e ↔ (k * 2 ^ e : ℚ) ≤ num / den := by
  rw [← not_lt, steps_lt_iff hden, not_lt]

/-- A quotient against the powers of two that the bits of its parts give. -/
theorem zpow_log2_le_div (hnum : num ≠ 0) (hden : den ≠ 0) : (2 : ℚ) ^ ((num.log2 : Int) - den.log2 - 1) ≤ num / den := by
  rw [le_div_iff₀ (by exact_mod_cast Nat.pos_of_ne_zero hden)]
  calc (2 : ℚ) ^ ((num.log2 : Int) - den.log2 - 1) * den
      ≤ 2 ^ ((num.log2 : Int) - den.log2 - 1) * 2 ^ (den.log2 + 1) :=
        mul_le_mul_of_nonneg_left (by exact_mod_cast Nat.lt_log2_self.le) (by positivity)
    _ = 2 ^ num.log2 := by
        rw [← zpow_natCast, ← zpow_natCast, ← zpow_add₀ (by norm_num)]
        congr 1
        push_cast
        ring
    _ ≤ num := by exact_mod_cast Nat.log2_self_le hnum

theorem div_lt_zpow_log2 (hden : den ≠ 0) : (num / den : ℚ) < 2 ^ ((num.log2 : Int) - den.log2 + 1) := by
  rw [div_lt_iff₀ (by exact_mod_cast Nat.pos_of_ne_zero hden)]
  calc (num : ℚ) < 2 ^ (num.log2 + 1) := by exact_mod_cast Nat.lt_log2_self
    _ = 2 ^ ((num.log2 : Int) - den.log2 + 1) * 2 ^ den.log2 := by
        rw [← zpow_natCast, ← zpow_natCast, ← zpow_add₀ (by norm_num)]
        congr 1
        push_cast
        ring
    _ ≤ _ := mul_le_mul_of_nonneg_left (by exact_mod_cast Nat.log2_self_le hden) (by positivity)

/-- In steps of the exponent a quotient has at most 53 bits, and no less than that above the least exponent. -/
theorem stepExponent_spec (hnum : num ≠ 0) (hden : den ≠ 0) : -1074 ≤ stepExponent num den ∧
    stepsNum num (stepExponent num den) / stepsDen den (stepExponent num den) < 2 ^ 53 ∧
    (stepExponent num den ≠ -1074 →
      2 ^ 52 ≤ stepsNum num (stepExponent num den) / stepsDen den (stepExponent num den)) := by
  have hden' : 0 < den := Nat.pos_of_ne_zero hden
  rw [steps_lt_iff hden', le_steps_iff hden']
  have hbelow := zpow_log2_le_div hnum hden
  have habove : (num / den : ℚ) < _ := div_lt_zpow_log2 hden
  have hpow (k : Nat) (e : Int) : ((2 ^ k : Nat) : ℚ) * 2 ^ e = 2 ^ (k + e) := by
    rw [zpow_add₀ (by norm_num)]
    push_cast
    rfl
  have hmono {i j : Int} (hij : i ≤ j) : (2 : ℚ) ^ i ≤ 2 ^ j := zpow_le_zpow_right₀ (by norm_num) hij
  simp only [hpow]
  unfold stepExponent
  dsimp only
  generalize hk : (num.log2 : Int) - den.log2 = k at *
  split_ifs with hlarge
  · rw [le_steps_iff hden', hpow] at hlarge
    refine ⟨by omega, habove.trans_le (hmono ?_), fun _ => (hmono ?_).trans hlarge⟩ <;> push_cast <;> omega
  · rw [le_steps_iff hden', hpow, not_le] at hlarge
    refine ⟨by omega, hlarge, fun hne => (hmono ?_).trans hbelow⟩
    push_cast
    omega

/-- The bits of a double without its sign. -/
def doubleBits (m : Nat) (e : Int) : Nat := if m < 2 ^ 52 then m else (e + 1074).toNat * 2 ^ 52 + m

theorem nearestBits_eq (hnum : num ≠ 0) (hden : den ≠ 0) : nearestBits num den =
    let e := stepExponent num den
    min (doubleBits (roundEven (stepsNum num e) (stepsDen den e)) e) (2047 * 2 ^ 52) := by
  have hzero : ¬(num = 0 ∨ den = 0) := by omega
  unfold nearestBits
  rw [if_neg hzero]
  dsimp only [stepExponent]
  generalize max (-1074) ((num.log2 : Int) - (den.log2 : Int) - 53) = e
  by_cases hlarge : 2 ^ 53 ≤ stepsNum num e / stepsDen den e
  · rw [if_pos hlarge]
    have hlarge : Nat.pow 2 53 ≤ num * Nat.pow 2 (-e).toNat / (den * Nat.pow 2 e.toNat) := hlarge
    simp only [hlarge, if_true]
    rfl
  · rw [if_neg hlarge]
    have hlarge : ¬Nat.pow 2 53 ≤ num * Nat.pow 2 (-e).toNat / (den * Nat.pow 2 e.toNat) := hlarge
    simp only [hlarge, if_false]
    rfl

/-- With an exponent that doubles have the bits are below those of infinity, and with a greater one they are not. -/
theorem IsDouble.doubleBits_lt (h : IsDouble m e) (hle : e ≤ 971) : doubleBits m e < 2047 * 2 ^ 52 := by
  obtain ⟨hlt, hleast, hfull⟩ := h
  unfold doubleBits
  split <;> omega

theorem IsDouble.le_doubleBits (h : IsDouble m e) (hlarge : ¬e ≤ 971) : 2047 * 2 ^ 52 ≤ doubleBits m e := by
  obtain ⟨hlt, hleast, hfull⟩ := h
  unfold doubleBits
  split <;> omega

/-- The bits of a positive quotient are those of the double in whose interval it lies, or of infinity if that double is
    too large. -/
theorem exists_nearestBits (hnum : num ≠ 0) (hden : den ≠ 0) : ∃ m e, IsDouble m e ∧
    (num / den : ℚ) ∈ Interval.ofDouble m e ∧ nearestBits num den = min (doubleBits m e) (2047 * 2 ^ 52) := by
  obtain ⟨hleast, hlt, hfull⟩ := stepExponent_spec hnum hden
  rw [nearestBits_eq hnum hden]
  generalize stepExponent num den = e at *
  obtain ⟨m, e', hdouble, hmem, hround⟩ :=
    exists_roundEven (stepsDen_pos (Nat.pos_of_ne_zero hden) e) hleast hlt hfull
  rw [div_steps] at hmem
  refine ⟨m, e', hdouble, hmem, congrArg (min · _) ?_⟩
  rcases hround with ⟨hround, rfl⟩ | ⟨hround, rfl, rfl⟩
  · rw [hround]
  -- the mantissa past 53 bits runs over into the field of the exponent
  · rw [hround, doubleBits, doubleBits, if_neg (by norm_num), if_neg (by norm_num)]
    omega

/-- Quotients in the interval of one double have the same bits. -/
theorem nearestBits_congr {num' den' : Nat} (h : IsDouble m e) (hnum : num ≠ 0) (hden : den ≠ 0) (hnum' : num' ≠ 0)
    (hden' : den' ≠ 0) (hx : (num / den : ℚ) ∈ Interval.ofDouble m e) (hx' : (num' / den' : ℚ) ∈ Interval.ofDouble m e) :
    nearestBits num den = nearestBits num' den' := by
  obtain ⟨m₁, e₁, h₁, hx₁, hbits₁⟩ := exists_nearestBits hnum hden
  obtain ⟨m₂, e₂, h₂, hx₂, hbits₂⟩ := exists_nearestBits hnum' hden'
  obtain ⟨rfl, rfl⟩ := eq_of_mem h h₁ hx hx₁
  obtain ⟨rfl, rfl⟩ := eq_of_mem h h₂ hx' hx₂
  rw [hbits₁, hbits₂]

/-! ### The bits of doubles -/

theorem isDouble_of_ofFloat {f : Float} {negative : Bool} (h : Binary.ofFloat f = .finite negative m e) :
    IsDouble m e ∧ e ≤ 971 := by
  unfold Binary.ofFloat at h
  simp only [Nat.pow_eq] at h
  generalize f.toBits.toNat = bits at h
  split_ifs at h with hmax hmin
  · obtain ⟨-, rfl, rfl⟩ := Binary.finite.inj h
    exact ⟨⟨by omega, le_rfl, fun hne => absurd rfl hne⟩, by norm_num⟩
  · obtain ⟨-, rfl, rfl⟩ := Binary.finite.inj h
    exact ⟨⟨by omega, by omega, fun _ => Nat.le_add_right _ _⟩, by omega⟩

theorem isFinite_of_ofFloat {f : Float} {negative : Bool} (h : Binary.ofFloat f = .finite negative m e) :
    f.isFinite = true := by
  show f.toModel.unpack.isFinite = true
  rw [Binary.ofFloat_eq] at h
  cases hunpack : f.toModel.unpack <;> rw [hunpack] at h <;> first | rfl | cases h

theorem toBits_of_ofFloat {f : Float} {negative : Bool} (h : Binary.ofFloat f = .finite negative m e) :
    f.toBits.toNat = (if negative then 2 ^ 63 else 0) + doubleBits m e := by
  have hlt : f.toBits.toNat < 2 ^ 64 := f.toBits.toNat_lt
  unfold Binary.ofFloat at h
  simp only [Nat.pow_eq] at h
  generalize f.toBits.toNat = bits at *
  have hsign : (if decide (2 ^ 63 ≤ bits) = true then 2 ^ 63 else 0) = bits / 2 ^ 63 * 2 ^ 63 := by
    simp only [decide_eq_true_eq]
    split <;> omega
  split_ifs at h with hmax hmin
  · obtain ⟨rfl, rfl, rfl⟩ := Binary.finite.inj h
    rw [hsign, doubleBits, if_pos (Nat.mod_lt _ (Nat.two_pow_pos 52))]
    omega
  · obtain ⟨rfl, rfl, rfl⟩ := Binary.finite.inj h
    rw [hsign, doubleBits, if_neg (Nat.not_lt.mpr (Nat.le_add_right _ _))]
    omega

theorem eq_of_toBits {f g : Float} (h : f.toBits = g.toBits) : f = g := by
  obtain ⟨⟨bits, hbits⟩⟩ := f
  obtain ⟨⟨bits', hbits'⟩⟩ := g
  obtain rfl : bits = bits' := h
  rfl

/-- Finite doubles differ in sign, mantissa or exponent. -/
theorem eq_of_ofFloat {f g : Float} {negative : Bool} (hf : Binary.ofFloat f = .finite negative m e)
    (hg : Binary.ofFloat g = .finite negative m e) : f = g :=
  eq_of_toBits (UInt64.toNat_inj.mp ((toBits_of_ofFloat hf).trans (toBits_of_ofFloat hg).symm))

/-- A bit pattern of a number is kept as it is. -/
theorem toBits_ofMagnitudeBits (negative : Bool) {bits : Nat} (h : bits ≤ 2047 * 2 ^ 52) :
    (ofMagnitudeBits negative bits).toBits.toNat = (if negative then 2 ^ 63 else 0) + bits := by
  have hlt : (if negative then Nat.pow 2 63 + bits else bits) < 2 ^ 64 := by
    simp only [Nat.pow_eq]
    split <;> omega
  let b : BitVec Float.Model.Format.binary64.numBits :=
    (UInt64.ofNat (if negative then Nat.pow 2 63 + bits else bits)).toBitVec
  have hb : b.toNat = (if negative then 2 ^ 63 else 0) + bits := by
    have hcast : b.toNat = if negative then Nat.pow 2 63 + bits else bits := UInt64.toNat_ofNat_of_lt hlt
    rw [hcast]
    cases negative <;> simp
  have hnumber : Float.Model.UnpackedFloat.isNaNBits b = false := by
    refine decide_eq_false fun ⟨hexponent, hmantissa⟩ => hmantissa ?_
    rw [unpackExponent_eq_iff, hb] at hexponent
    rw [unpackMantissa_eq_iff, hb]
    have hmax : (-1#_ : BitVec Float.Model.Format.binary64.exponentBits).toNat = 2047 := rfl
    have hzero : (0#_ : BitVec Float.Model.Format.binary64.mantissaBitsWithoutImplicit).toNat = 0 := rfl
    rw [hmax] at hexponent
    rw [hzero]
    cases negative <;> simp only [if_true, if_false, Bool.false_eq_true] at hexponent ⊢ <;> omega
  have hpack := Float.Model.UnpackedFloat.pack_unpack b
  rw [hnumber] at hpack
  rw [← hb]
  exact congrArg BitVec.toNat hpack

theorem ofFloat_of_toBits {f : Float} {negative : Bool} (h : IsDouble m e) (hle : e ≤ 971)
    (hf : f.toBits.toNat = (if negative then 2 ^ 63 else 0) + doubleBits m e) :
    Binary.ofFloat f = .finite negative m e := by
  have hbits := h.doubleBits_lt hle
  obtain ⟨hlt, hleast, hfull⟩ := h
  unfold Binary.ofFloat
  simp only [hf, Nat.pow_eq]
  have hsign : decide (2 ^ 63 ≤ (if negative then 2 ^ 63 else 0) + doubleBits m e) = negative := by
    cases negative
    · exact decide_eq_false (by rw [if_neg Bool.false_ne_true]; omega)
    · exact decide_eq_true (by rw [if_pos rfl]; omega)
  have hfield : ((if negative then 2 ^ 63 else 0) + doubleBits m e) / 2 ^ 52 % 2 ^ 11 = doubleBits m e / 2 ^ 52 := by
    split <;> omega
  have hfraction : ((if negative then 2 ^ 63 else 0) + doubleBits m e) % 2 ^ 52 = doubleBits m e % 2 ^ 52 := by
    split <;> omega
  rw [hsign, hfield, hfraction, if_neg (by omega)]
  unfold doubleBits
  by_cases hm : m < 2 ^ 52
  · obtain rfl : e = -1074 := by omega
    rw [if_pos hm, if_pos (Nat.div_eq_of_lt hm), Nat.mod_eq_of_lt hm]
  · rw [if_neg hm, if_neg (by omega)]
    congr 1 <;> omega

theorem ofFloat_of_toBits_infinite {f : Float} {negative : Bool}
    (hf : f.toBits.toNat = (if negative then 2 ^ 63 else 0) + 2047 * 2 ^ 52) : Binary.ofFloat f = .infinite negative := by
  unfold Binary.ofFloat
  rw [hf]
  cases negative <;> rfl

/-- The bits of a double, or those of infinity in the place of a larger one. -/
theorem ofFloat_of_toBits_min {f : Float} {negative : Bool} (h : IsDouble m e)
    (hf : f.toBits.toNat = (if negative then 2 ^ 63 else 0) + min (doubleBits m e) (2047 * 2 ^ 52)) :
    Binary.ofFloat f = if e ≤ 971 then .finite negative m e else .infinite negative := by
  by_cases hle : e ≤ 971
  · rw [Nat.min_eq_left (h.doubleBits_lt hle).le] at hf
    rw [if_pos hle, ofFloat_of_toBits h hle hf]
  · rw [Nat.min_eq_right (h.le_doubleBits hle)] at hf
    rw [if_neg hle, ofFloat_of_toBits_infinite hf]

/-- The double nearest to a quotient with a sign: that in whose interval the quotient lies, and infinity if it is too
    large. -/
theorem ofFloat_nearest (hnum : num ≠ 0) (hden : den ≠ 0) (negative : Bool) : ∃ m e, IsDouble m e ∧
    (num / den : ℚ) ∈ Interval.ofDouble m e ∧
      Binary.ofFloat (nearest negative num den) = if e ≤ 971 then .finite negative m e else .infinite negative := by
  obtain ⟨m, e, hdouble, hmem, hbits⟩ := exists_nearestBits hnum hden
  refine ⟨m, e, hdouble, hmem, ofFloat_of_toBits_min hdouble ?_⟩
  rw [nearest, hbits, toBits_ofMagnitudeBits negative (Nat.min_le_right _ _)]

end

end LogDispatch.Decimal
