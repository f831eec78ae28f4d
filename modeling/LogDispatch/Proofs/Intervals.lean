import LogDispatch.Proofs.Numerals
import Mathlib

/-! The numbers that one double stands for. They lie around it in its interval; the intervals of two doubles share no
    number (`eq_of_mem`), and no double is nearer to a number than the one in whose interval it lies
    (`abs_sub_le_of_mem`). -/

namespace LogDispatch.Decimal

/-- A mantissa and an exponent as a double has them: at most 53 bits, and no less than that above the least exponent.
    Nothing is said of the greatest exponent. -/
structure IsDouble (m : Nat) (e : Int) : Prop where
  lt : m < 2 ^ 53
  least_le : -1074 ≤ e
  full : e ≠ -1074 → 2 ^ 52 ≤ m

/-- The number with a mantissa and an exponent. -/
def dyadic (m : Nat) (e : Int) : ℚ := m * 2 ^ e

theorem pow_toNat_mul {b : ℚ} (hb : b ≠ 0) (n : Int) : b ^ (-n).toNat * b ^ n = b ^ n.toNat := by
  rw [← zpow_natCast, ← zpow_natCast, ← zpow_add₀ hb]
  congr 1
  omega

theorem isDouble_zero : IsDouble 0 (-1074) := ⟨by norm_num, le_rfl, fun hne => absurd rfl hne⟩

theorem dyadic_zero (e : Int) : dyadic 0 e = 0 := by rw [dyadic, Nat.cast_zero, zero_mul]

theorem dyadic_nonneg (m : Nat) (e : Int) : 0 ≤ dyadic m e := by
  unfold dyadic
  positivity

/-- The ends of an interval. -/
def Interval.bottom (i : Interval) : ℚ := i.low * 2 ^ i.unit

def Interval.top (i : Interval) : ℚ := i.high * 2 ^ i.unit

/-- A number lies between the ends of an interval, and on one of them only if the ends belong to it. -/
instance : Membership ℚ Interval where
  mem i x := i.bottom ≤ x ∧ x ≤ i.top ∧ (i.closed = true ∨ i.bottom < x ∧ x < i.top)

/-! ### Neighbours -/

section
variable {m m' : Nat} {e e' : Int}

theorem Interval.low_le (m : Nat) (e : Int) : (ofDouble m e).low ≤ 4 * m := by
  simp only [ofDouble]
  split <;> omega

theorem Interval.le_low_add (m : Nat) (e : Int) : 4 * m ≤ (ofDouble m e).low + 2 := by
  simp only [ofDouble]
  split <;> omega

theorem Interval.low_lt (hm : m ≠ 0) : (ofDouble m e).low < 4 * m := by
  simp only [ofDouble]
  split <;> omega

/-- Below a power of two the step is half as wide. -/
theorem Interval.low_two_pow (hleast : e ≠ -1074) : (ofDouble (2 ^ 52) e).low = 2 ^ 54 - 1 := if_pos ⟨rfl, hleast⟩

/-- Of two doubles the smaller one comes first by its exponent, and by its mantissa where the exponents are equal. -/
def Before (m : Nat) (e : Int) (m' : Nat) (e' : Int) : Prop := e < e' ∨ e = e' ∧ m < m'

theorem before_trichotomy (m : Nat) (e : Int) (m' : Nat) (e' : Int) :
    Before m e m' e' ∨ (m = m' ∧ e = e') ∨ Before m' e' m e := by
  unfold Before
  omega

/-- Above the least exponent an interval begins past all doubles with a lesser one, and so does the step before it. -/
theorem IsDouble.low_of_full (h : IsDouble m e) (hleast : e ≠ -1074) :
    2 ^ 54 - 1 ≤ (Interval.ofDouble m e).low ∧ 4 * m + (2 ^ 54 - 2) ≤ 2 * (Interval.ofDouble m e).low := by
  have hfull := h.full hleast
  simp only [Interval.ofDouble]
  split_ifs with hpower
  · omega
  · have hne : m ≠ 2 ^ 52 := fun heq => hpower ⟨heq, hleast⟩
    omega

/-- Between a double and a later one is room for half a step of either, and where the half steps meet one of the mantissas
    is odd. All is in units of a quarter of the first one's step, and `2 ^ p` of them are a quarter of the other one's. -/
theorem room_before (h : IsDouble m e) (h' : IsDouble m' e') (hbefore : Before m e m' e') : ∃ p : Nat,
    e' = e + p ∧ 4 * m + 4 ≤ 4 * m' * 2 ^ p ∧ 4 * m + 4 * m' * 2 ^ p ≤ 2 * ((Interval.ofDouble m' e').low * 2 ^ p) ∧
      (4 * m + 2 < (Interval.ofDouble m' e').low * 2 ^ p ∨
        4 * m + 2 = (Interval.ofDouble m' e').low * 2 ^ p ∧ (m % 2 = 1 ∨ m' % 2 = 1)) := by
  have hlt := h.lt
  have hleast := h.least_le
  obtain ⟨p, hp⟩ := Int.eq_ofNat_of_zero_le (show 0 ≤ e' - e by unfold Before at hbefore; omega)
  refine ⟨p, by omega, ?_⟩
  cases p with
  | zero =>
    obtain rfl : e' = e := by omega
    have hm : m < m' := by unfold Before at hbefore; omega
    have hlow : (Interval.ofDouble m' e').low = 4 * m' - 2 := if_neg fun hpower => by
      have hfull := h.full hpower.2
      have hleast : m' = 2 ^ 52 := hpower.1
      omega
    rw [hlow]
    omega
  | succ p =>
    obtain ⟨hlow, hroom⟩ := h'.low_of_full (by omega)
    have hfull := h'.full (by omega)
    have hpow : 1 ≤ 2 ^ p := Nat.one_le_two_pow
    obtain ⟨r, hr⟩ := Nat.exists_eq_add_of_le hroom
    -- a later exponent puts the least mantissa past the greatest one of before
    have hmid := Nat.mul_le_mul_left m' hpow
    have hbegin := Nat.mul_le_mul_left (Interval.ofDouble m' e').low hpow
    have hstep := Nat.mul_le_mul_left (2 ^ 54 - 2 + r) hpow
    have hdouble : 2 * ((Interval.ofDouble m' e').low * 2 ^ p) = 4 * (m' * 2 ^ p) + (2 ^ 54 - 2 + r) * 2 ^ p := by
      rw [← Nat.mul_assoc, hr]
      ring
    have hmid' : 4 * m' * 2 ^ (p + 1) = 8 * (m' * 2 ^ p) := by ring
    have hbegin' : (Interval.ofDouble m' e').low * 2 ^ (p + 1) = 2 * ((Interval.ofDouble m' e').low * 2 ^ p) := by ring
    rw [hmid', hbegin']
    omega

/-! ### Numbers in an interval -/

variable {x : ℚ}

theorem Interval.closed_ofDouble : (ofDouble m e).closed = true ↔ m % 2 = 0 := beq_iff_eq

theorem dyadic_eq_mul (m : Nat) (e : Int) : dyadic m e = 4 * m * 2 ^ (e - 2) := by
  rw [dyadic, zpow_sub₀ (by norm_num)]
  ring

theorem bottom_eq (m : Nat) (e : Int) :
    (Interval.ofDouble m e).bottom = (Interval.ofDouble m e).low * 2 ^ (e - 2) := rfl

theorem top_eq (m : Nat) (e : Int) : (Interval.ofDouble m e).top = (4 * m + 2) * 2 ^ (e - 2) := by
  simp [Interval.top, Interval.ofDouble]

/-- Half steps of a double and of a later one do not overlap, and they meet only if one of the mantissas is odd. -/
theorem steps_before (h : IsDouble m e) (h' : IsDouble m' e') (hbefore : Before m e m' e') : dyadic m e < dyadic m' e' ∧
    2 * (Interval.ofDouble m e).top ≤ dyadic m e + dyadic m' e' ∧
    dyadic m e + dyadic m' e' ≤ 2 * (Interval.ofDouble m' e').bottom ∧
    ((Interval.ofDouble m e).top < (Interval.ofDouble m' e').bottom ∨ m % 2 = 1 ∨ m' % 2 = 1) := by
  obtain ⟨p, hp, hstep, hstep', hroom⟩ := room_before h h' hbefore
  have hunit : (2 : ℚ) ^ (e' - 2) = 2 ^ p * 2 ^ (e - 2) := by
    rw [hp, show e + (p : Int) - 2 = p + (e - 2) by ring, zpow_add₀ (by norm_num), zpow_natCast]
  have hpos : (0 : ℚ) < 2 ^ (e - 2) := by positivity
  simp only [dyadic_eq_mul, bottom_eq, top_eq, hunit]
  generalize (2 : ℚ) ^ (e - 2) = u at hpos
  generalize (Interval.ofDouble m' e').low = l at *
  have hstep : (4 * m + 4) * u ≤ 4 * m' * 2 ^ p * u := mul_le_mul_of_nonneg_right (by exact_mod_cast hstep) hpos.le
  have hstep' : (4 * m + 4 * m' * 2 ^ p) * u ≤ 2 * (l * 2 ^ p) * u :=
    mul_le_mul_of_nonneg_right (by exact_mod_cast hstep') hpos.le
  refine ⟨by linarith, by linarith, by linarith, ?_⟩
  rcases hroom with hlt | ⟨-, hodd⟩
  · have hlt : (4 * m + 2) * u < l * 2 ^ p * u := mul_lt_mul_of_pos_right (by exact_mod_cast hlt) hpos
    exact .inl (by linarith)
  · exact .inr hodd

theorem nonneg_of_mem (hx : x ∈ Interval.ofDouble m e) : 0 ≤ x := by
  have hbottom : 0 ≤ (Interval.ofDouble m e).bottom := by
    rw [bottom_eq]
    positivity
  exact hbottom.trans hx.1

theorem pos_of_mem (hm : m ≠ 0) (hx : x ∈ Interval.ofDouble m e) : 0 < x := by
  have hlow : (0 : ℚ) < (Interval.ofDouble m e).low := by exact_mod_cast Interval.low_pos hm
  have hbottom : 0 < (Interval.ofDouble m e).bottom := by
    rw [bottom_eq]
    positivity
  exact hbottom.trans_le hx.1

/-- A number does not lie in the intervals of two doubles. -/
theorem not_mem_of_before (h : IsDouble m e) (h' : IsDouble m' e') (hbefore : Before m e m' e')
    (hx : x ∈ Interval.ofDouble m e) : x ∉ Interval.ofDouble m' e' := by
  intro hx'
  obtain ⟨-, htop, hends⟩ := hx
  obtain ⟨hbottom, -, hends'⟩ := hx'
  rw [Interval.closed_ofDouble] at hends hends'
  obtain ⟨-, hstep, hstep', hlt | hodd⟩ := steps_before h h' hbefore
  · linarith
  · rcases hends with heven | ⟨-, htop⟩
    · rcases hends' with heven' | ⟨hbottom, -⟩
      · omega
      · linarith
    · linarith

theorem eq_of_mem (h : IsDouble m e) (h' : IsDouble m' e') (hx : x ∈ Interval.ofDouble m e)
    (hx' : x ∈ Interval.ofDouble m' e') : m = m' ∧ e = e' := by
  rcases before_trichotomy m e m' e' with hbefore | heq | hafter
  · exact absurd hx' (not_mem_of_before h h' hbefore hx)
  · exact heq
  · exact absurd hx (not_mem_of_before h' h hafter hx')

/-- No double is nearer to a number than the one in whose interval it lies; another one is as near as it only if its
    mantissa is even. -/
theorem abs_sub_le_of_mem (h : IsDouble m e) (h' : IsDouble m' e') (hx : x ∈ Interval.ofDouble m e) :
    |x - dyadic m e| ≤ |x - dyadic m' e'| ∧
      (|x - dyadic m e| = |x - dyadic m' e'| → (m = m' ∧ e = e') ∨ m % 2 = 0) := by
  obtain ⟨hbottom, htop, hends⟩ := hx
  rw [Interval.closed_ofDouble] at hends
  rcases before_trichotomy m e m' e' with hbefore | ⟨rfl, rfl⟩ | hafter
  · obtain ⟨hlt, hstep, -, -⟩ := steps_before h h' hbefore
    have hfar : dyadic m' e' - x ≤ |x - dyadic m' e'| := by
      rw [abs_sub_comm]
      exact le_abs_self _
    refine ⟨le_trans (abs_le.mpr ⟨by linarith, by linarith⟩) hfar, fun heq => .inr ?_⟩
    refine hends.resolve_right fun ⟨_, htop⟩ => ?_
    exact (lt_of_lt_of_le (abs_lt.mpr ⟨by linarith, by linarith⟩) hfar).ne heq
  · exact ⟨le_rfl, fun _ => .inl ⟨rfl, rfl⟩⟩
  · obtain ⟨hlt, -, hstep, -⟩ := steps_before h' h hafter
    have hfar : x - dyadic m' e' ≤ |x - dyadic m' e'| := le_abs_self _
    refine ⟨le_trans (abs_le.mpr ⟨by linarith, by linarith⟩) hfar, fun heq => .inr ?_⟩
    refine hends.resolve_right fun ⟨hbottom, _⟩ => ?_
    exact (lt_of_lt_of_le (abs_lt.mpr ⟨by linarith, by linarith⟩) hfar).ne heq

/-- A double lies in its own interval. -/
theorem dyadic_mem (m : Nat) (e : Int) : dyadic m e ∈ Interval.ofDouble m e := by
  have hpos : (0 : ℚ) < 2 ^ (e - 2) := by positivity
  have hlow : ((Interval.ofDouble m e).low : ℚ) ≤ 4 * m := by exact_mod_cast Interval.low_le m e
  have hhigh : (4 * m : ℚ) * 2 ^ (e - 2) < (4 * m + 2) * 2 ^ (e - 2) := mul_lt_mul_of_pos_right (by linarith) hpos
  show _ ≤ _ ∧ _ ≤ _ ∧ (_ ∨ _ < _ ∧ _ < _)
  rw [Interval.closed_ofDouble, top_eq, bottom_eq, dyadic_eq_mul]
  refine ⟨mul_le_mul_of_nonneg_right hlow hpos.le, hhigh.le, or_iff_not_imp_left.mpr fun hodd => ⟨?_, hhigh⟩⟩
  have hlow : ((Interval.ofDouble m e).low : ℚ) < 4 * m := by exact_mod_cast Interval.low_lt (by omega)
  exact mul_lt_mul_of_pos_right hlow hpos

/-- The numbers that round to an exponent or a lesser one end half a step behind the greatest double that has it. -/
theorem exponent_le_iff (h : IsDouble m e) (hx : x ∈ Interval.ofDouble m e) (hleast : -1074 ≤ e') :
    e ≤ e' ↔ x < (2 ^ 54 - 1) * 2 ^ (e' - 1) := by
  have hlast : IsDouble (2 ^ 53 - 1) e' := ⟨by norm_num, hleast, fun _ => by norm_num⟩
  have hnext : IsDouble (2 ^ 52) (e' + 1) := ⟨by norm_num, by omega, fun _ => le_rfl⟩
  have hunit : (2 : ℚ) ^ (e' - 1) = 2 ^ (e' - 2) * 2 := by
    rw [← zpow_add_one₀ (by norm_num)]
    congr 1
    ring
  have htop : (Interval.ofDouble (2 ^ 53 - 1) e').top = (2 ^ 54 - 1) * 2 ^ (e' - 1) := by
    rw [top_eq, hunit, Nat.cast_pred (by norm_num)]
    push_cast
    ring
  have hbottom : (Interval.ofDouble (2 ^ 52) (e' + 1)).bottom = (2 ^ 54 - 1) * 2 ^ (e' - 1) := by
    rw [bottom_eq, Interval.low_two_pow (by omega), Nat.cast_pred (by norm_num), show e' + 1 - 2 = e' - 1 by ring]
    norm_num
  obtain ⟨hbelow, habove, hends⟩ := hx
  rw [Interval.closed_ofDouble] at hends
  constructor
  · intro hle
    rw [← htop]
    rcases before_trichotomy m e (2 ^ 53 - 1) e' with hbefore | ⟨rfl, rfl⟩ | hafter
    · obtain ⟨hlt, hhalf, -⟩ := steps_before h hlast hbefore
      have hmid : dyadic (2 ^ 53 - 1) e' ≤ (Interval.ofDouble (2 ^ 53 - 1) e').top := (dyadic_mem _ _).2.1
      exact lt_of_lt_of_le (by linarith only [habove, hlt, hhalf]) hmid
    · exact (hends.resolve_left (by norm_num)).2
    · have hlt := h.lt
      unfold Before at hafter
      omega
  · intro hlt
    by_contra hlarge
    rw [← hbottom] at hlt
    rcases before_trichotomy (2 ^ 52) (e' + 1) m e with hbefore | ⟨rfl, rfl⟩ | hafter
    · obtain ⟨hless, -, hhalf, -⟩ := steps_before hnext h hbefore
      have hmid : (Interval.ofDouble (2 ^ 52) (e' + 1)).bottom ≤ dyadic (2 ^ 52) (e' + 1) := (dyadic_mem _ _).1
      linarith only [hlt, hbelow, hless, hhalf, hmid]
    · exact hlt.not_ge hbelow
    · have hfull := h.full
      unfold Before at hafter
      omega

end

end LogDispatch.Decimal
