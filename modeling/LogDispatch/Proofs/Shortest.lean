import LogDispatch.Proofs.Intervals

/-! The shortest decimal of a double. It lies in the interval of the double (`shortest_mem`), and it is whole if the double
    is (`shortest_nonneg`). -/

namespace LogDispatch.Decimal

namespace Interval
variable {i : Interval} {tie : Tie} {k j : Int} {d : Nat}

/-! ### A grid in units of the interval -/

/-- `x` units of an interval are `x * gridNum / gridDen` steps of the grid `10 ^ k`. -/
def gridNum (i : Interval) (k : Int) : Nat := Nat.pow 2 i.unit.toNat * Nat.pow 10 (-k).toNat

def gridDen (i : Interval) (k : Int) : Nat := Nat.pow 2 (-i.unit).toNat * Nat.pow 10 k.toNat

theorem gridNum_pos (i : Interval) (k : Int) : 0 < i.gridNum k :=
  Nat.mul_pos (Nat.pow_pos (by decide)) (Nat.pow_pos (by decide))

theorem gridDen_pos (i : Interval) (k : Int) : 0 < i.gridDen k :=
  Nat.mul_pos (Nat.pow_pos (by decide)) (Nat.pow_pos (by decide))

/-- A unit is so many steps. -/
theorem grid_eq (i : Interval) (k : Int) : (i.gridNum k : ℚ) * 10 ^ k = i.gridDen k * 2 ^ i.unit := by
  have hten := pow_toNat_mul (show (10 : ℚ) ≠ 0 by norm_num) k
  have htwo := pow_toNat_mul (show (2 : ℚ) ≠ 0 by norm_num) i.unit
  simp only [gridNum, gridDen, Nat.pow_eq]
  push_cast
  rw [mul_assoc, hten, ← htwo]
  ring

variable {n : Nat}

theorem units_le_iff : (n * 2 ^ i.unit : ℚ) ≤ d * 10 ^ k ↔ n * i.gridNum k ≤ d * i.gridDen k := by
  have hnum : (0 : ℚ) < i.gridNum k := by exact_mod_cast i.gridNum_pos k
  have hunit : (0 : ℚ) < 2 ^ i.unit := by positivity
  rw [← mul_le_mul_iff_of_pos_right hnum, mul_assoc (d : ℚ), mul_comm ((10 : ℚ) ^ k), grid_eq, ← mul_assoc,
    mul_right_comm, mul_le_mul_iff_of_pos_right hunit]
  exact_mod_cast Iff.rfl

theorem le_units_iff : (d * 10 ^ k : ℚ) ≤ n * 2 ^ i.unit ↔ d * i.gridDen k ≤ n * i.gridNum k := by
  have hnum : (0 : ℚ) < i.gridNum k := by exact_mod_cast i.gridNum_pos k
  have hunit : (0 : ℚ) < 2 ^ i.unit := by positivity
  rw [← mul_le_mul_iff_of_pos_right hnum, mul_assoc (d : ℚ), mul_comm ((10 : ℚ) ^ k), grid_eq, ← mul_assoc,
    mul_right_comm (n : ℚ), mul_le_mul_iff_of_pos_right hunit]
  exact_mod_cast Iff.rfl

/-- A point of a grid lies past the lower end of an interval, or before the upper end, or on it where the ends belong to
    it. -/
def PastBottom (i : Interval) (k : Int) (d : Nat) : Prop :=
  if i.closed then i.low * i.gridNum k ≤ d * i.gridDen k else i.low * i.gridNum k < d * i.gridDen k

def BeforeTop (i : Interval) (k : Int) (d : Nat) : Prop :=
  if i.closed then d * i.gridDen k ≤ i.high * i.gridNum k else d * i.gridDen k < i.high * i.gridNum k

theorem mem_of_grid (hbottom : i.PastBottom k d) (htop : i.BeforeTop k d) : (d * 10 ^ k : ℚ) ∈ i := by
  show bottom i ≤ _ ∧ _ ≤ top i ∧ (_ ∨ bottom i < _ ∧ _ < top i)
  rw [← not_le (b := bottom i), ← not_le (a := top i), bottom, top, units_le_iff, le_units_iff, le_units_iff, units_le_iff,
    not_le, not_le]
  unfold PastBottom at hbottom
  unfold BeforeTop at htop
  split_ifs at hbottom htop with hclosed
  · exact ⟨hbottom, htop, .inl hclosed⟩
  · exact ⟨hbottom.le, htop.le, .inr ⟨hbottom, htop⟩⟩

/-! ### The point that is taken -/

/-- The neighbour below the middle of an interval on a grid. -/
def below (i : Interval) (k : Int) : Nat := i.mid * i.gridNum k / i.gridDen k

theorem below_le (i : Interval) (k : Int) : i.below k * i.gridDen k ≤ i.mid * i.gridNum k := Nat.div_mul_le_self _ _

theorem lt_above (i : Interval) (k : Int) : i.mid * i.gridNum k < (i.below k + 1) * i.gridDen k := by
  rw [Nat.mul_comm (_ + 1)]
  exact Nat.lt_mul_div_succ _ (i.gridDen_pos k)

theorem pastBottom_of_lt (h : i.low * i.gridNum k < d * i.gridDen k) : i.PastBottom k d := by
  unfold PastBottom
  split_ifs
  · exact h.le
  · exact h

theorem beforeTop_of_lt (h : d * i.gridDen k < i.high * i.gridNum k) : i.BeforeTop k d := by
  unfold BeforeTop
  split_ifs
  · exact h.le
  · exact h

/-- The point that is taken lies in the interval. -/
theorem gridPoint?_mem (hlow : i.low < i.mid) (hhigh : i.mid < i.high) (h : i.gridPoint? tie k = some d) :
    (d * 10 ^ k : ℚ) ∈ i := by
  rcases pick_eq_some h with ⟨rfl, hin⟩ | ⟨rfl, hin⟩
  · exact mem_of_grid hin
      (beforeTop_of_lt ((i.below_le k).trans_lt (Nat.mul_lt_mul_of_pos_right hhigh (i.gridNum_pos k))))
  · exact mem_of_grid (pastBottom_of_lt ((Nat.mul_lt_mul_of_pos_right hlow (i.gridNum_pos k)).trans (i.lt_above k))) hin

/-- A grid that holds the middle has a point in the interval. -/
theorem gridPoint?_ne_none (tie : Tie) (hlow : i.low < i.mid) (hmid : (i.mid * 2 ^ i.unit : ℚ) = d * 10 ^ k) :
    i.gridPoint? tie k ≠ none := by
  have hexact : i.mid * i.gridNum k = d * i.gridDen k :=
    Nat.le_antisymm (units_le_iff.mp hmid.le) (le_units_iff.mp hmid.ge)
  have hbelow : i.below k = d := by rw [below, hexact, Nat.mul_div_cancel _ (i.gridDen_pos k)]
  have hin : i.PastBottom k (i.below k) := by
    rw [hbelow]
    exact pastBottom_of_lt (hexact ▸ Nat.mul_lt_mul_of_pos_right hlow (i.gridNum_pos k))
  refine pick_ne_none ?_
  exact hin

/-- The search ends on a grid at which it has a point, at the latest on one that is known to have any. -/
theorem coarsest_spec (fuel : Nat) (hj : i.gridPoint? tie j ≠ none) (hle : j ≤ k) (hfuel : k - j ≤ fuel) :
    j ≤ (i.coarsest tie fuel k).2 ∧
      i.gridPoint? tie (i.coarsest tie fuel k).2 = some (i.coarsest tie fuel k).1 := by
  induction fuel generalizing k with
  | zero =>
    obtain rfl : k = j := by omega
    obtain ⟨d, hd⟩ := Option.ne_none_iff_exists'.mp hj
    simp [coarsest, hd]
  | succ fuel ih =>
    rw [coarsest]
    cases hpoint : i.gridPoint? tie k with
    | some d => exact ⟨hle, hpoint⟩
    | none =>
      have hne : j ≠ k := by
        rintro rfl
        exact hj hpoint
      exact ih (by omega) (by omega)

end Interval

theorem stripZeros_spec (fuel d : Nat) (k : Int) : k ≤ (stripZeros fuel d k).2 ∧
    ((stripZeros fuel d k).1 * 10 ^ (stripZeros fuel d k).2 : ℚ) = d * 10 ^ k := by
  induction fuel generalizing d k with
  | zero => exact ⟨le_rfl, rfl⟩
  | succ fuel ih =>
    rw [stripZeros]
    split_ifs with hzero
    · obtain ⟨hle, hvalue⟩ := ih (d / 10) (k + 1)
      refine ⟨by omega, hvalue.trans ?_⟩
      obtain ⟨c, hc⟩ := Nat.dvd_of_mod_eq_zero hzero.2
      rw [hc, Nat.mul_div_cancel_left c (by decide), zpow_add_one₀ (by norm_num)]
      push_cast
      ring
    · exact ⟨le_rfl, rfl⟩

section
variable {m : Nat} {e j : Int} {y : Nat}

/-- The grid on which the search begins. -/
def topGrid (m : Nat) (e : Int) : Int := ((m.log2 : Int) + 1 + e) * 30103 / 100000 + 2

/-- The shortest decimal lies in the interval, and on no finer grid than one that holds the double. -/
theorem shortest_spec (tie : Tie) (hm : m ≠ 0) (hy : dyadic m e = y * 10 ^ j) (hleast : min 0 e ≤ j)
    (htop : j ≤ topGrid m e) : j ≤ (shortest tie m e).2 ∧
      ((shortest tie m e).1 * 10 ^ (shortest tie m e).2 : ℚ) ∈ Interval.ofDouble m e := by
  have hlow : (Interval.ofDouble m e).low < (Interval.ofDouble m e).mid := Interval.low_lt hm
  have hhigh : (Interval.ofDouble m e).mid < (Interval.ofDouble m e).high := Nat.lt_add_of_pos_right (by decide)
  have hmid : ((Interval.ofDouble m e).mid * 2 ^ (Interval.ofDouble m e).unit : ℚ) = y * 10 ^ j := by
    rw [← hy, dyadic_eq_mul]
    simp [Interval.ofDouble]
  obtain ⟨hle, hpoint⟩ := Interval.coarsest_spec (topGrid m e - min 0 e).toNat
    (Interval.gridPoint?_ne_none tie hlow hmid) htop (by omega)
  rw [shortest, if_neg hm]
  dsimp only [topGrid] at hle hpoint ⊢
  obtain ⟨hle', hvalue⟩ := stripZeros_spec 20 _ _
  exact ⟨hle.trans hle', hvalue ▸ Interval.gridPoint?_mem hlow hhigh hpoint⟩

/-- Every double lies on a grid of decimals, a whole one on that of the whole numbers. -/
theorem exists_dyadic_eq (m : Nat) (e : Int) : ∃ y : Nat, dyadic m e = y * 10 ^ min 0 e := by
  rcases le_total 0 e with he | he
  · obtain ⟨p, rfl⟩ := Int.eq_ofNat_of_zero_le he
    refine ⟨m * 2 ^ p, ?_⟩
    simp [dyadic]
  · obtain ⟨p, hp⟩ := Int.eq_ofNat_of_zero_le (Int.neg_nonneg_of_nonpos he)
    obtain rfl : e = -(p : Int) := by omega
    refine ⟨m * 5 ^ p, ?_⟩
    rw [min_eq_right he, dyadic, zpow_neg, zpow_neg, zpow_natCast, zpow_natCast, show (10 : ℚ) = 5 * 2 by norm_num, mul_pow]
    push_cast
    field_simp

/-- The shortest decimal of a double denotes it. -/
theorem shortest_mem (tie : Tie) (hm : m ≠ 0) :
    ((shortest tie m e).1 * 10 ^ (shortest tie m e).2 : ℚ) ∈ Interval.ofDouble m e := by
  obtain ⟨y, hy⟩ := exists_dyadic_eq m e
  exact (shortest_spec tie hm hy le_rfl (by unfold topGrid; omega)).2

/-- The shortest decimal of a whole double is whole. -/
theorem shortest_nonneg (tie : Tie) (hm : m ≠ 0) (hy : dyadic m e = y) : 0 ≤ (shortest tie m e).2 := by
  have hpos : (0 : ℚ) < dyadic m e := by
    have hm : 0 < m := Nat.pos_of_ne_zero hm
    unfold dyadic
    positivity
  have hone : 1 ≤ y := by
    rw [hy] at hpos
    exact_mod_cast hpos
  have hlt : (2 : ℚ) ^ (0 : Int) < 2 ^ ((m.log2 : Int) + 1 + e) := by
    calc (2 : ℚ) ^ (0 : Int) ≤ y := by exact_mod_cast hone
      _ = m * 2 ^ e := hy.symm
      _ < 2 ^ (m.log2 + 1) * 2 ^ e := mul_lt_mul_of_pos_right (by exact_mod_cast Nat.lt_log2_self) (by positivity)
      _ = 2 ^ ((m.log2 : Int) + 1 + e) := by
          rw [zpow_add₀ (by norm_num) _ e]
          norm_cast
  have hbits : 0 < (m.log2 : Int) + 1 + e := (zpow_lt_zpow_iff_right₀ (by norm_num)).mp hlt
  exact (shortest_spec tie hm (by simpa using hy) (min_le_left 0 e) (by unfold topGrid; omega)).1

end

end LogDispatch.Decimal
