import LogDispatch.Calendar
import Mathlib.Tactic.Common
import Mathlib.Tactic.IntervalCases

/-! Days in order. Main statement: of two days the one with the smaller number lies before the other (`ofNumber_before`).

    Days are counted in cycles of 400 years, and in a cycle in years that begin in March. The year of a day is worked out
    from the day by a quotient that a leap day pushes up a little; it is the right one, as the days before that year and
    the days up to its end leave the day between them (`daysBefore_yearOfCycle`). -/

namespace LogDispatch.Calendar

/-! ### Years of a cycle -/

/-- The year of a day in a cycle of 400 years. -/
def yearOfCycle (doe : Nat) : Nat := (doe - doe / 1460 + doe / 36524 - doe / 146096) / 365

/-- The days of a cycle before a year of it. -/
def daysBefore (yoe : Nat) : Nat := 365 * yoe + yoe / 4 - yoe / 100

variable {doe doe' : Nat}

theorem yearOfCycle_eq (doe : Nat) : yearOfCycle doe = (doe - doe / 1460 + (doe / 36524 - doe / 36524 / 4)) / 365 := by
  have hcycle : doe / 146096 = doe / 36524 / 4 := by rw [Nat.div_div_eq_div_mul]
  rw [yearOfCycle, hcycle, Nat.add_sub_assoc (Nat.div_le_self _ _)]

theorem yearOfCycle_mono (h : doe ≤ doe') : yearOfCycle doe ≤ yearOfCycle doe' := by
  rw [yearOfCycle_eq, yearOfCycle_eq]
  have hdays : doe - doe / 1460 ≤ doe' - doe' / 1460 := by omega
  have hcenturies : doe / 36524 ≤ doe' / 36524 := Nat.div_le_div_right h
  generalize doe / 36524 = c at *
  generalize doe' / 36524 = c' at *
  have hleap : c - c / 4 ≤ c' - c' / 4 := by omega
  exact Nat.div_le_div_right (Nat.add_le_add hdays hleap)

/-- The century, the number of leap years and the year of a day, as they bound each other. -/
theorem century_cases {c q y : Nat} (hc : c ≤ 3) (hc₁ : 36524 * c ≤ doe) (hc₂ : doe < 36524 * (c + 1))
    (hq₁ : 1460 * q ≤ doe) (hq₂ : doe < 1460 * (q + 1)) (hy₁ : 365 * y ≤ doe - q + c) (hy₂ : doe - q + c < 365 * (y + 1)) :
    y / 100 = c ∧ y / 4 ≤ q ∧ q ≤ y / 4 + 1 := by
  have hcentury : 100 * c ≤ y ∧ y < 100 * (c + 1) := by
    interval_cases c <;> omega
  refine ⟨by omega, ?_, ?_⟩
  · interval_cases c <;> omega
  · interval_cases c <;> omega

theorem daysBefore_yearOfCycle (h : doe < 146097) :
    daysBefore (yearOfCycle doe) ≤ doe ∧ doe ≤ daysBefore (yearOfCycle doe) + 365 := by
  rcases Nat.lt_or_ge doe 146096 with hlt | hge
  · have hc : doe / 36524 ≤ 3 := by omega
    have hy : yearOfCycle doe = (doe - doe / 1460 + doe / 36524) / 365 := by
      rw [yearOfCycle_eq, Nat.div_eq_of_lt (show doe / 36524 < 4 by omega), Nat.sub_zero]
    have hy₁ := Nat.mul_div_le (doe - doe / 1460 + doe / 36524) 365
    have hy₂ := Nat.lt_mul_div_succ (doe - doe / 1460 + doe / 36524) (show 0 < 365 by decide)
    rw [← hy] at hy₁ hy₂
    have hq₁ := Nat.mul_div_le doe 1460
    have hq₂ := Nat.lt_mul_div_succ doe (show 0 < 1460 by decide)
    obtain ⟨hcentury, hleap₁, hleap₂⟩ := century_cases hc (Nat.mul_div_le _ _) (Nat.lt_mul_div_succ _ (by decide))
      hq₁ hq₂ hy₁ hy₂
    rw [daysBefore, hcentury]
    generalize doe / 1460 = q at *
    generalize doe / 36524 = c at *
    generalize yearOfCycle doe / 4 = e at *
    generalize yearOfCycle doe = y at *
    clear hy hcentury
    omega
  · obtain rfl : doe = 146096 := by omega
    decide

theorem yearOfCycle_le (h : doe < 146097) : yearOfCycle doe ≤ 399 := by
  have hlast := yearOfCycle_mono (Nat.le_of_lt_succ h)
  exact hlast.trans (by decide)

/-! ### Days in order -/

section
variable {n n' : Int} {doy doy' : Nat} {y y' : Int}

/-- The day lies before the other one. -/
def Day.Before (d d' : Day) : Prop :=
  d.year < d'.year ∨ d.year = d'.year ∧ (d.month < d'.month ∨ d.month = d'.month ∧ d.day < d'.day)

/-- The place of a day in its cycle of 400 years. -/
def dayOfCycle (n : Int) : Nat := ((n + 719468).fmod 146097).toNat

/-- The year of a day, when years begin in March. -/
def marchYear (n : Int) : Int := yearOfCycle (dayOfCycle n) + (n + 719468).fdiv 146097 * 400

/-- The days since the first of March. -/
def sinceMarch (n : Int) : Nat := dayOfCycle n - daysBefore (yearOfCycle (dayOfCycle n))

/-- The day so many days after the first of March. -/
def Day.ofMarch (y : Int) (doy : Nat) : Day :=
  let mp := (5 * doy + 2) / 153
  let month := if mp < 10 then mp + 3 else mp - 9
  ⟨if month ≤ 2 then y + 1 else y, month, doy - (153 * mp + 2) / 5 + 1⟩

theorem ofNumber_eq (n : Int) : Day.ofNumber n = .ofMarch (marchYear n) (sinceMarch n) := rfl

/-- The months since March, 0 to 11. -/
def monthOfYear (doy : Nat) : Nat := (5 * doy + 2) / 153

theorem ofMarch_months (h : doy ≤ 365) : 1 ≤ (Day.ofMarch y doy).month ∧ (Day.ofMarch y doy).month ≤ 12 ∧
    (Day.ofMarch y doy).year * 12 + (Day.ofMarch y doy).month = y * 12 + monthOfYear doy + 3 := by
  have hmonth : monthOfYear doy ≤ 11 := by
    unfold monthOfYear
    omega
  unfold Day.ofMarch
  rw [← monthOfYear]
  dsimp only
  split_ifs <;> omega

theorem day_ofMarch : (Day.ofMarch y doy).day = doy - (153 * monthOfYear doy + 2) / 5 + 1 := rfl

theorem day_ofMarch_le : (Day.ofMarch y doy).day ≤ 31 := by
  rw [day_ofMarch, monthOfYear]
  omega

theorem before_of_months {d d' : Day} (h : d.year * 12 + d.month < d'.year * 12 + d'.month) (hmonth : d'.month ≤ 12) :
    d.Before d' := by
  unfold Day.Before
  omega

theorem ofMarch_before (h : doy < doy') (h' : doy' ≤ 365) : (Day.ofMarch y doy).Before (Day.ofMarch y doy') := by
  obtain ⟨hpos, htwelve, hmonths⟩ := ofMarch_months (y := y) (Nat.le_of_lt (Nat.lt_of_lt_of_le h h'))
  obtain ⟨hpos', htwelve', hmonths'⟩ := ofMarch_months (y := y) h'
  have hmono : monthOfYear doy ≤ monthOfYear doy' := Nat.div_le_div_right (by omega)
  rcases Nat.lt_or_eq_of_le hmono with hlt | heq
  · exact before_of_months (by omega) htwelve'
  · have hday : (Day.ofMarch y doy).day < (Day.ofMarch y doy').day := by
      rw [day_ofMarch, day_ofMarch, ← heq]
      unfold monthOfYear
      omega
    exact .inr ⟨by omega, .inr ⟨by omega, hday⟩⟩

theorem ofMarch_before_of_lt (h : y < y') (hdoy : doy ≤ 365) (hdoy' : doy' ≤ 365) :
    (Day.ofMarch y doy).Before (Day.ofMarch y' doy') := by
  obtain ⟨-, -, hmonths⟩ := ofMarch_months (y := y) hdoy
  obtain ⟨-, htwelve', hmonths'⟩ := ofMarch_months (y := y') hdoy'
  have hmonth : monthOfYear doy ≤ 11 := by
    unfold monthOfYear
    omega
  exact before_of_months (by omega) htwelve'

theorem cycle_spec (n : Int) :
    n + 719468 = 146097 * (n + 719468).fdiv 146097 + dayOfCycle n ∧ dayOfCycle n < 146097 := by
  have hadd := Int.mul_fdiv_add_fmod (n + 719468) 146097
  have hnonneg := Int.fmod_nonneg_of_pos (n + 719468) (show (0 : Int) < 146097 by decide)
  have hlt := Int.fmod_lt_of_pos (n + 719468) (show (0 : Int) < 146097 by decide)
  unfold dayOfCycle
  omega

theorem sinceMarch_le (n : Int) : sinceMarch n ≤ 365 := by
  have h := (daysBefore_yearOfCycle (cycle_spec n).2).2
  unfold sinceMarch
  omega

theorem march_cases (h : n < n') :
    marchYear n < marchYear n' ∨ marchYear n = marchYear n' ∧ sinceMarch n < sinceMarch n' := by
  obtain ⟨hn, hlt⟩ := cycle_spec n
  obtain ⟨hn', hlt'⟩ := cycle_spec n'
  have hyear := yearOfCycle_le hlt
  unfold marchYear
  rcases lt_trichotomy ((n + 719468).fdiv 146097) ((n' + 719468).fdiv 146097) with hera | hera | hera
  · exact .inl (by omega)
  · have hday : dayOfCycle n < dayOfCycle n' := by omega
    rcases Nat.lt_or_eq_of_le (yearOfCycle_mono (Nat.le_of_lt hday)) with hyears | hyears
    · exact .inl (by omega)
    · refine .inr ⟨by omega, ?_⟩
      have hbefore := (daysBefore_yearOfCycle hlt).1
      unfold sinceMarch
      rw [← hyears]
      omega
  · omega

theorem ofNumber_before (h : n < n') : (Day.ofNumber n).Before (Day.ofNumber n') := by
  rw [ofNumber_eq, ofNumber_eq]
  rcases march_cases h with hyear | ⟨hyear, hday⟩
  · exact ofMarch_before_of_lt hyear (sinceMarch_le n) (sinceMarch_le n')
  · rw [hyear]
    exact ofMarch_before hday (sinceMarch_le n')

theorem month_ofNumber_le (n : Int) : (Day.ofNumber n).month ≤ 12 := (ofMarch_months (sinceMarch_le n)).2.1

theorem day_ofNumber_le (n : Int) : (Day.ofNumber n).day ≤ 31 := day_ofMarch_le

theorem year_mono (h : n ≤ n') : (Day.ofNumber n).year ≤ (Day.ofNumber n').year := by
  rcases Int.lt_or_eq_of_le h with hlt | rfl
  · have hday := ofNumber_before hlt
    unfold Day.Before at hday
    omega
  · exact Int.le_refl _

end

end LogDispatch.Calendar
