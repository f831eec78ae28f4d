import LogDispatch.Decimal.Layout
import Mathlib

/-! Doubles and their signs. A finite double is taken apart into its sign and its magnitude, and without its sign it has
    the same magnitude (`exists_magnitude`); it is below zero if it has a minus and is not zero. -/

namespace LogDispatch.Decimal

open Float.Model Float.Model.UnpackedFloat

def isMinus : Sign → Bool
  | .negative => true
  | .positive => false

/-- What an unpacked double stands for. -/
def Binary.ofUnpacked : UnpackedFloat → Binary
  | .notANumber => .nan
  | .infinity s => .infinite (isMinus s)
  | .zero s => .finite (isMinus s) 0 (-1074)
  | .finite s m e _ => .finite (isMinus s) m e

/-! ### The fields of a double -/

section fields
variable (b : BitVec Format.binary64.numBits)

theorem toNat_unpackExponent : (unpackExponent b).toNat = b.toNat / 2 ^ 52 % 2 ^ 11 := by
  rw [unpackExponent_def, BitVec.extractLsb'_toNat, Nat.shiftRight_eq_div_pow]

theorem toNat_unpackMantissa : (unpackMantissa b).toNat = b.toNat % 2 ^ 52 := by
  rw [unpackMantissa_def, BitVec.extractLsb'_toNat]
  rfl

theorem isMinus_unpackSign : isMinus (.ofBitVec (unpackSign b)) = decide (2 ^ 63 ≤ b.toNat) := by
  have hsign : (unpackSign b).toNat = b.toNat / 2 ^ 63 % 2 := by
    rw [unpackSign_def, BitVec.extractLsb'_toNat, Nat.shiftRight_eq_div_pow]
    rfl
  have hlt : b.toNat < 2 ^ 64 := b.isLt
  unfold Sign.ofBitVec
  split
  · rename_i hzero
    rw [hzero] at hsign
    have hsmall : ¬2 ^ 63 ≤ b.toNat := by
      simp only [BitVec.toNat_zero] at hsign
      omega
    rw [decide_eq_false hsmall, isMinus]
  · rename_i hone
    have hlarge : 2 ^ 63 ≤ b.toNat := by
      by_contra hsmall
      refine hone (BitVec.eq_of_toNat_eq (hsign.trans ?_))
      simp only [BitVec.toNat_zero]
      omega
    rw [decide_eq_true hlarge, isMinus]

theorem unpackExponent_eq_iff {e : BitVec Format.binary64.exponentBits} :
    unpackExponent b = e ↔ b.toNat / 2 ^ 52 % 2 ^ 11 = e.toNat := by
  rw [← toNat_unpackExponent, BitVec.toNat_inj]

theorem unpackMantissa_eq_iff {m : BitVec Format.binary64.mantissaBitsWithoutImplicit} :
    unpackMantissa b = m ↔ b.toNat % 2 ^ 52 = m.toNat := by
  rw [← toNat_unpackMantissa, BitVec.toNat_inj]

theorem toNat_one_append {m : BitVec Format.binary64.mantissaBitsWithoutImplicit} :
    (1#1 ++ m).toNat = 2 ^ 52 + m.toNat := by
  have happend := Nat.two_pow_add_eq_or_of_lt m.isLt 1
  rw [Nat.mul_one] at happend
  rw [BitVec.toNat_append]
  exact happend.symm

end fields

theorem Binary.ofFloat_eq (f : Float) : Binary.ofFloat f = .ofUnpacked f.toModel.unpack := by
  have hbits : f.toBits.toNat = f.toModel.toBits.toBitVec.toNat := rfl
  rw [Float.Model.unpack, Binary.ofFloat, hbits]
  generalize f.toModel.toBits.toBitVec = b
  have hinfinite : (unpackExponent b : BitVec Format.binary64.exponentBits) = -1#_ ↔
      b.toNat / Nat.pow 2 52 % Nat.pow 2 11 = Nat.pow 2 11 - 1 := unpackExponent_eq_iff b
  have htiny : (unpackExponent b : BitVec Format.binary64.exponentBits) = 0#_ ↔
      b.toNat / Nat.pow 2 52 % Nat.pow 2 11 = 0 := unpackExponent_eq_iff b
  have hwhole : (unpackMantissa b : BitVec Format.binary64.mantissaBitsWithoutImplicit) = 0#_ ↔
      b.toNat % Nat.pow 2 52 = 0 := unpackMantissa_eq_iff b
  have hsign : _ = decide (Nat.pow 2 63 ≤ b.toNat) := isMinus_unpackSign b
  unfold UnpackedFloat.unpack
  dsimp only
  by_cases hmax : b.toNat / Nat.pow 2 52 % Nat.pow 2 11 = Nat.pow 2 11 - 1
  · rw [if_pos hmax, if_pos (hinfinite.mpr hmax)]
    by_cases hfraction : b.toNat % Nat.pow 2 52 = 0
    · rw [if_pos hfraction, if_pos (hwhole.mpr hfraction), ofUnpacked, hsign]
    · rw [if_neg hfraction, if_neg (mt hwhole.mp hfraction), ofUnpacked]
  · rw [if_neg hmax, if_neg (mt hinfinite.mp hmax)]
    by_cases hmin : b.toNat / Nat.pow 2 52 % Nat.pow 2 11 = 0
    · rw [if_pos hmin, if_pos (htiny.mpr hmin)]
      by_cases hfraction : b.toNat % Nat.pow 2 52 = 0
      · rw [hfraction, dif_pos (hwhole.mpr hfraction), ofUnpacked, hsign]
      · rw [dif_neg (mt hwhole.mp hfraction), ofUnpacked, hsign, toNat_unpackMantissa, toNat_unpackExponent,
          show b.toNat / 2 ^ 52 % 2 ^ 11 = 0 from hmin]
        rfl
    · rw [if_neg hmin, if_neg (mt htiny.mp hmin), ofUnpacked, hsign, toNat_one_append, toNat_unpackMantissa,
        toNat_unpackExponent]
      rfl

/-! ### Without the sign -/

/-- The bits of a double with a plus in the place of its sign. -/
def positiveBits (b : BitVec Format.binary64.numBits) : BitVec Format.binary64.numBits :=
  packComponents Format.binary64 .positive (unpackExponent b) (unpackMantissa b)

theorem unpack_positiveBits (b : BitVec Format.binary64.numBits) :
    UnpackedFloat.unpack Format.binary64 (positiveBits b) = (UnpackedFloat.unpack Format.binary64 b).abs := by
  unfold UnpackedFloat.unpack positiveBits
  simp only [unpackExponent_packComponents, unpackMantissa_packComponents, unpackSign_packComponents,
    Sign.ofBitVec_toBitVec]
  split_ifs <;> rfl

theorem isNaNBits_positiveBits {b : BitVec Format.binary64.numBits}
    (h : (UnpackedFloat.unpack Format.binary64 b).isFinite = true) : isNaNBits (positiveBits b) = false := by
  have hexponent : unpackExponent b ≠ -1#_ := by
    intro hmax
    unfold UnpackedFloat.unpack at h
    simp only [hmax, if_true] at h
    split at h <;> cases h
  rw [isNaNBits, positiveBits, unpackExponent_packComponents]
  exact decide_eq_false fun hnan => hexponent hnan.1

/-- Taking the sign off a finite double leaves its magnitude as it is. -/
theorem unpack_abs {f : Float} (h : f.isFinite = true) : f.abs.toModel.unpack = f.toModel.unpack.abs := by
  have hfinite : (UnpackedFloat.unpack Format.binary64 f.toModel.toBits.toBitVec).isFinite = true := h
  have hpack : UnpackedFloat.pack Format.binary64 f.toModel.unpack.abs = positiveBits f.toModel.toBits.toBitVec := by
    rw [Float.Model.unpack, ← unpack_positiveBits, pack_unpack, isNaNBits_positiveBits hfinite]
    rfl
  calc f.abs.toModel.unpack
      = UnpackedFloat.unpack Format.binary64 (UnpackedFloat.pack Format.binary64 f.toModel.unpack.abs) := rfl
    _ = f.toModel.unpack.abs := by rw [hpack, unpack_positiveBits, ← Float.Model.unpack]

theorem isFinite_abs {f : Float} (h : f.isFinite = true) : f.abs.isFinite = true := by
  have hunpack : f.toModel.unpack.isFinite = true := h
  show f.abs.toModel.unpack.isFinite = true
  rw [unpack_abs h]
  cases hf : f.toModel.unpack <;> simp_all [UnpackedFloat.isFinite, UnpackedFloat.abs]

theorem lt_zero_iff {f : Float} : f < 0.0 ↔ f.toModel.unpack.compare (.zero .positive) = some .lt := by
  have hzero : (0.0 : Float).toModel.unpack = .zero .positive := rfl
  have hlt : f < 0.0 ↔ decide (f.toModel.unpack.lt (0.0 : Float).toModel.unpack = true) = true := Iff.rfl
  rw [hlt, hzero, decide_eq_true_iff, UnpackedFloat.lt, beq_iff_eq]

/-- A finite double is a magnitude with a sign. Its magnitude alone is the same with a plus, and the double is below zero
    just if it has a minus and its magnitude is not zero. -/
theorem exists_magnitude {f : Float} (h : f.isFinite = true) : ∃ negative m e,
    Binary.ofFloat f = .finite negative m e ∧ Binary.ofFloat f.abs = .finite false m e ∧
      (f < 0.0 ↔ negative = true ∧ m ≠ 0) := by
  have hfinite : f.toModel.unpack.isFinite = true := h
  rw [Binary.ofFloat_eq, Binary.ofFloat_eq, unpack_abs h, lt_zero_iff]
  cases hunpack : f.toModel.unpack with
  | notANumber =>
    rw [hunpack] at hfinite
    cases hfinite
  | infinity =>
    rw [hunpack] at hfinite
    cases hfinite
  | zero s => exact ⟨isMinus s, 0, -1074, rfl, rfl, by simp [UnpackedFloat.compare]⟩
  | finite s m e hm =>
    refine ⟨isMinus s, m, e, rfl, rfl, ?_⟩
    cases s <;> simp [UnpackedFloat.compare, isMinus, Nat.ne_of_gt hm]

end LogDispatch.Decimal
