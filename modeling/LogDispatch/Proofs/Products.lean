import LogDispatch.Proofs.Nearest

/-! Products of doubles. The product of two finite doubles is the double in whose interval their product as numbers lies, or
    an infinity if that double is too large (`ofFloat_mul`). -/

namespace LogDispatch.Decimal

open Float.Model Float.Model.UnpackedFloat

/-! ### Bits that are shifted out -/

section
variable {m n d : Nat} {e : Int} {em : ExtendedMantissa}

/-- A mantissa is a quotient without its remainder, and its two bits say how the remainder compares with zero and with half
    of the divisor. -/
structure Leaves (em : ExtendedMantissa) (n d : Nat) : Prop where
  mantissa : em.mantissa = n / d
  roundBit : em.roundBit = true ↔ d ≤ 2 * (n % d)
  stickyBit : em.stickyBit = true ↔ n % d ≠ 0 ∧ 2 * (n % d) ≠ d

theorem leaves_exact (m : Nat) : Leaves (.ofMantissaAndAccuracy m .exact) m 1 where
  mantissa := (Nat.div_one m).symm
  roundBit := by simp [ExtendedMantissa.ofMantissaAndAccuracy, Nat.mod_one]
  stickyBit := by simp [ExtendedMantissa.ofMantissaAndAccuracy, Nat.mod_one]

theorem Leaves.shiftRightOne (h : Leaves em n d) (hd : 0 < d) : Leaves em.shiftRightOne n (d * 2) := by
  obtain ⟨hmantissa, hround, hsticky⟩ := h
  have hmod : n % (d * 2) = n % d + d * (n / d % 2) := Nat.mod_mul
  have hlt := Nat.mod_lt n hd
  have hbit := Nat.mod_two_eq_zero_or_one (n / d)
  refine ⟨?_, ?_, ?_⟩
  · rw [ExtendedMantissa.shiftRightOne, hmantissa, Nat.div_div_eq_div_mul]
  · rw [ExtendedMantissa.shiftRightOne, hmantissa, bne_iff_ne, hmod]
    rcases hbit with hbit | hbit <;> rw [hbit] <;> omega
  · rw [ExtendedMantissa.shiftRightOne, Bool.or_eq_true, hround, hsticky, hmod]
    rcases hbit with hbit | hbit <;> rw [hbit] <;> omega

theorem Leaves.shiftRight (h : Leaves em n 1) (s : Nat) : Leaves (em >>> s : ExtendedMantissa) n (2 ^ s) := by
  induction s with
  | zero => exact h
  | succ s ih => exact ih.shiftRightOne (Nat.two_pow_pos s)

theorem Leaves.roundedMantissa_eq (h : Leaves em n d) : em.roundedMantissa = roundEven n d := by
  obtain ⟨hmantissa, hround, hsticky⟩ := h
  obtain ⟨mantissa, roundBit, stickyBit⟩ := em
  dsimp only at hmantissa
  subst hmantissa
  unfold roundEven
  cases roundBit <;> cases stickyBit <;>
    simp only [Bool.false_eq_true, false_iff, true_iff, ne_eq, not_and, not_not] at hround hsticky <;>
    simp only [ExtendedMantissa.roundedMantissa, ExtendedMantissa.accuracy, Accuracy.roundToNearestEven] <;>
    split_ifs <;> omega

/-! ### Rounding to a double -/

theorem targetExponent_eq (m : Nat) (e : Int) :
    Format.binary64.targetExponent (totalExponent m e) = max ((m.log2 : Int) + e - 52) (-1074) := by
  simp only [Format.targetExponent, totalExponent, Format.mantissaBits, Format.minExponent]
  norm_num
  omega

theorem shiftToTargetExponent_eq (m : Nat) (e : Int) : shiftToTargetExponent Format.binary64 m e .exact =
    (ExtendedMantissa.ofMantissaAndAccuracy m .exact >>> (max ((m.log2 : Int) + e - 52) (-1074) - e).toNat,
      e + (max ((m.log2 : Int) + e - 52) (-1074) - e).toNat) := by
  rw [← targetExponent_eq]
  rfl

/-- Nothing is shifted out of 53 bits. -/
theorem shiftToTargetExponent_of_lt (hm : m < 2 ^ 53) (he : -1074 ≤ e) :
    shiftToTargetExponent Format.binary64 m e .exact = (⟨m, false, false⟩, e) := by
  have hlog : m.log2 ≤ 52 := by
    rcases Nat.eq_zero_or_pos m with rfl | hpos
    · decide
    · exact Nat.le_of_lt_succ ((Nat.log2_lt hpos.ne').mpr hm)
  have hshift : (max ((m.log2 : Int) + e - 52) (-1074) - e).toNat = 0 := by omega
  rw [shiftToTargetExponent_eq, hshift, Nat.cast_zero, Int.add_zero]
  rfl

/-- A carry past 53 bits takes one more shift. -/
theorem shiftToTargetExponent_carry (he : -1074 ≤ e) :
    shiftToTargetExponent Format.binary64 (2 ^ 53) e .exact = (⟨2 ^ 52, false, false⟩, e + 1) := by
  have hshift : (max (((2 ^ 53 : Nat).log2 : Int) + e - 52) (-1074) - e).toNat = 1 := by
    rw [Nat.log2_two_pow]
    omega
  rw [shiftToTargetExponent_eq, hshift]
  rfl

/-- A number with a mantissa of 53 bits or more, or with an exponent that is too small, is rounded to the double in whose
    interval it lies. -/
theorem exists_roundWithAccuracy (sign : Sign) (hm : m ≠ 0) (hlong : 52 ≤ m.log2 ∨ e ≤ -1074) :
    ∃ m' e', IsDouble m' e' ∧ dyadic m e ∈ Interval.ofDouble m' e' ∧
      (m' = 0 ∧ roundWithAccuracy Format.binary64 sign m e .exact = .zero sign ∨
        ∃ hpos, roundWithAccuracy Format.binary64 sign m e .exact = .finite sign m' e' hpos) := by
  obtain ⟨s, hs⟩ := Int.eq_ofNat_of_zero_le
    (show 0 ≤ max ((m.log2 : Int) + e - 52) (-1074) - e by omega)
  have hfirst : shiftToTargetExponent Format.binary64 m e .exact =
      (ExtendedMantissa.ofMantissaAndAccuracy m .exact >>> s, e + s) := by
    rw [shiftToTargetExponent_eq, hs, Int.toNat_natCast]
  have hround := ((leaves_exact m).shiftRight s).roundedMantissa_eq
  have hlt : m / 2 ^ s < 2 ^ 53 := by
    rw [Nat.div_lt_iff_lt_mul (Nat.two_pow_pos s), ← Nat.pow_add]
    exact Nat.lt_log2_self.trans_le (Nat.pow_le_pow_right (by decide) (by omega))
  have hfull : e + s ≠ -1074 → 2 ^ 52 ≤ m / 2 ^ s := by
    intro hne
    rw [Nat.le_div_iff_mul_le (Nat.two_pow_pos s), ← Nat.pow_add]
    exact (Nat.pow_le_pow_right (by decide) (by omega)).trans (Nat.log2_self_le hm)
  obtain ⟨m', e', hdouble, hmem, hcases⟩ := exists_roundEven (Nat.two_pow_pos s) (by omega) hlt hfull
  have hvalue : (m / (2 ^ s : Nat) : ℚ) * 2 ^ (e + s) = dyadic m e := by
    rw [zpow_add₀ (by norm_num), zpow_natCast, dyadic]
    push_cast
    field_simp
  rw [hvalue] at hmem
  refine ⟨m', e', hdouble, hmem, ?_⟩
  -- what is rounded is shifted once more, and only a carry is changed by that
  unfold roundWithAccuracy
  rw [hfirst]
  dsimp only
  rw [hround]
  rcases hcases with ⟨heq, rfl⟩ | ⟨heq, rfl, rfl⟩
  · rw [heq, shiftToTargetExponent_of_lt hdouble.lt hdouble.least_le]
    dsimp only
    split_ifs with hzero
    · exact .inl ⟨hzero, rfl⟩
    · exact .inr ⟨Nat.pos_of_ne_zero hzero, rfl⟩
  · rw [heq, shiftToTargetExponent_carry (by omega)]
    exact .inr ⟨by decide, rfl⟩

/-! ### The product -/

theorem toNat_packComponents (sign : Sign) (field : BitVec Format.binary64.exponentBits)
    (fraction : BitVec Format.binary64.mantissaBitsWithoutImplicit) :
    (packComponents Format.binary64 sign field fraction).toNat =
      (if isMinus sign then 2 ^ 63 else 0) + (field.toNat * 2 ^ 52 + fraction.toNat) := by
  have hfield : field.toNat < 2 ^ 11 := field.isLt
  have happend {k l : Nat} (x : BitVec k) (y : BitVec l) : (x ++ y).toNat = x.toNat * 2 ^ l + y.toNat := by
    rw [BitVec.toNat_append, ← Nat.shiftLeft_add_eq_or_of_lt y.isLt, Nat.shiftLeft_eq]
  rw [packComponents, happend, happend]
  cases sign
  · show (1 * 2 ^ 11 + field.toNat) * 2 ^ 52 + fraction.toNat = 2 ^ 63 + (field.toNat * 2 ^ 52 + fraction.toNat)
    omega
  · show (0 * 2 ^ 11 + field.toNat) * 2 ^ 52 + fraction.toNat = 0 + (field.toNat * 2 ^ 52 + fraction.toNat)
    omega

/-- A double keeps its mantissa and exponent in its bits; past the greatest exponent it is an infinity. -/
theorem toNat_pack (h : IsDouble m e) (hpos : 0 < m) (sign : Sign) :
    (UnpackedFloat.pack Format.binary64 (.finite sign m e hpos)).toNat =
      (if isMinus sign then 2 ^ 63 else 0) + min (doubleBits m e) (2047 * 2 ^ 52) := by
  have hlt := h.lt
  have hleast := h.least_le
  have hbias : (e + Format.binary64.exponentBias + Format.binary64.mantissaBitsWithoutImplicit).toNat = (e + 1075).toNat :=
    congrArg Int.toNat (Int.add_assoc e 1023 52)
  have hlog : m.log2 + 1 = Format.binary64.mantissaBits ↔ 2 ^ 52 ≤ m := by
    show m.log2 + 1 = 53 ↔ _
    have hle : 52 ≤ m.log2 ↔ 2 ^ 52 ≤ m := Nat.le_log2 hpos.ne'
    have hlt : m.log2 < 53 := (Nat.log2_lt hpos.ne').mpr hlt
    omega
  have hmax : (2 : Nat) ^ Format.binary64.exponentBits = 2048 := rfl
  unfold UnpackedFloat.pack
  dsimp only
  rw [hbias, hmax]
  by_cases hlarge : 2048 ≤ (e + 1075).toNat + 1
  · rw [if_pos hlarge, packedInfinity, toNat_packComponents, Nat.min_eq_right (h.le_doubleBits (by omega))]
    rfl
  · rw [if_neg hlarge, Nat.min_eq_left (h.doubleBits_lt (by omega)).le, doubleBits]
    by_cases hm : 2 ^ 52 ≤ m
    · rw [if_pos (hlog.mpr hm), toNat_packComponents, BitVec.toNat_ofNat, BitVec.toNat_ofNat, if_neg (Nat.not_lt.mpr hm)]
      show _ + ((e + 1075).toNat % 2 ^ 11 * 2 ^ 52 + m % 2 ^ 52) = _
      omega
    · rw [if_neg (mt hlog.mp hm), toNat_packComponents, BitVec.toNat_ofNat, if_pos (Nat.lt_of_not_le hm)]
      show _ + (0 * 2 ^ 52 + m % 2 ^ 52) = _
      omega

theorem isMinus_mul (s t : Sign) : isMinus (s * t) = xor (isMinus s) (isMinus t) := by
  cases s <;> cases t <;> rfl

theorem ofFloat_of_zero {f : Float} {sign : Sign} (h : f.toModel = .pack (.zero sign)) :
    Binary.ofFloat f = .finite (isMinus sign) 0 (-1074) := by
  rw [Binary.ofFloat_eq, h]
  cases sign <;> rfl

theorem ofFloat_of_finite {f : Float} {sign : Sign} {hpos : 0 < m} (h : IsDouble m e)
    (hf : f.toModel = .pack (.finite sign m e hpos)) :
    Binary.ofFloat f = if e ≤ 971 then .finite (isMinus sign) m e else .infinite (isMinus sign) := by
  refine ofFloat_of_toBits_min h ?_
  rw [Float.toBits, hf]
  exact toNat_pack h hpos sign

theorem dyadic_mul (m₁ m₂ : Nat) (e₁ e₂ : Int) : dyadic (m₁ * m₂) (e₁ + e₂) = dyadic m₁ e₁ * dyadic m₂ e₂ := by
  rw [dyadic, dyadic, dyadic, zpow_add₀ (by norm_num)]
  push_cast
  ring

/-- A finite double is a zero or has a mantissa. -/
theorem unpack_cases {f : Float} {negative : Bool} (hf : Binary.ofFloat f = .finite negative m e) : ∃ sign,
    isMinus sign = negative ∧ (m = 0 ∧ f.toModel.unpack = .zero sign ∨
      ∃ hpos, f.toModel.unpack = .finite sign m e hpos) := by
  rw [Binary.ofFloat_eq] at hf
  cases hunpack : f.toModel.unpack with
  | notANumber => rw [hunpack] at hf; cases hf
  | infinity => rw [hunpack] at hf; cases hf
  | zero sign =>
    rw [hunpack] at hf
    obtain ⟨rfl, rfl, rfl⟩ := Binary.finite.inj hf
    exact ⟨sign, rfl, .inl ⟨rfl, rfl⟩⟩
  | finite sign m' e' hpos =>
    rw [hunpack] at hf
    obtain ⟨rfl, rfl, rfl⟩ := Binary.finite.inj hf
    exact ⟨sign, rfl, .inr ⟨hpos, rfl⟩⟩

/-- The product of two mantissas has all bits that a double takes, or an exponent that is too small. -/
theorem long_mul {m₁ m₂ : Nat} {e₁ e₂ : Int} (h₁ : IsDouble m₁ e₁) (h₂ : IsDouble m₂ e₂) (hpos₁ : 0 < m₁)
    (hpos₂ : 0 < m₂) : 52 ≤ (m₁ * m₂).log2 ∨ e₁ + e₂ ≤ -1074 := by
  by_cases hleast : e₁ = -1074 ∧ e₂ = -1074
  · right
    omega
  · left
    rw [Nat.le_log2 (Nat.mul_pos hpos₁ hpos₂).ne']
    by_cases he₁ : e₁ = -1074
    · exact (h₂.full fun he₂ => hleast ⟨he₁, he₂⟩).trans (Nat.le_mul_of_pos_left _ hpos₁)
    · exact (h₁.full he₁).trans (Nat.le_mul_of_pos_right _ hpos₂)

/-- The product of two finite doubles is the double in whose interval the product of the numbers lies. -/
theorem ofFloat_mul {f g : Float} {s t : Bool} {m₁ m₂ : Nat} {e₁ e₂ : Int} (hf : Binary.ofFloat f = .finite s m₁ e₁)
    (hg : Binary.ofFloat g = .finite t m₂ e₂) : ∃ m e, IsDouble m e ∧
      dyadic m₁ e₁ * dyadic m₂ e₂ ∈ Interval.ofDouble m e ∧
      Binary.ofFloat (f * g) = if e ≤ 971 then .finite (xor s t) m e else .infinite (xor s t) := by
  have h₁ := (isDouble_of_ofFloat hf).1
  have h₂ := (isDouble_of_ofFloat hg).1
  have hmul : (f * g).toModel = .pack (UnpackedFloat.mul Format.binary64 f.toModel.unpack g.toModel.unpack) := rfl
  have hnone : (0 : ℚ) ∈ Interval.ofDouble 0 (-1074) := dyadic_zero (-1074) ▸ dyadic_mem 0 (-1074)
  obtain ⟨sign₁, rfl, hunpack₁⟩ := unpack_cases hf
  obtain ⟨sign₂, rfl, hunpack₂⟩ := unpack_cases hg
  rw [← isMinus_mul]
  rcases hunpack₁ with ⟨rfl, hunpack₁⟩ | ⟨hpos₁, hunpack₁⟩
  · refine ⟨0, -1074, isDouble_zero, by simpa [dyadic_zero] using hnone, ofFloat_of_zero ?_⟩
    rw [hmul, hunpack₁]
    rcases hunpack₂ with ⟨-, hunpack₂⟩ | ⟨_, hunpack₂⟩ <;> rw [hunpack₂] <;> rfl
  · rcases hunpack₂ with ⟨rfl, hunpack₂⟩ | ⟨hpos₂, hunpack₂⟩
    · refine ⟨0, -1074, isDouble_zero, by simpa [dyadic_zero] using hnone, ofFloat_of_zero ?_⟩
      rw [hmul, hunpack₁, hunpack₂]
      rfl
    · obtain ⟨m, e, h, hmem, hround⟩ :=
        exists_roundWithAccuracy (sign₁ * sign₂) (Nat.mul_pos hpos₁ hpos₂).ne' (long_mul h₁ h₂ hpos₁ hpos₂)
      rw [dyadic_mul] at hmem
      rw [hunpack₁, hunpack₂] at hmul
      refine ⟨m, e, h, hmem, ?_⟩
      rcases hround with ⟨rfl, hround⟩ | ⟨hpos, hround⟩
      · obtain rfl : e = -1074 := by
          by_contra hne
          have hfull := h.full hne
          omega
        exact ofFloat_of_zero (hmul.trans (congrArg _ hround))
      · exact ofFloat_of_finite h (hmul.trans (congrArg _ hround))

end

end LogDispatch.Decimal
