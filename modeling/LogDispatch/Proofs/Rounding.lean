import LogDispatch.Pattern.Number
import LogDispatch.Proofs.Doubles
import LogDispatch.Proofs.Numerals

/-! Numbers in a number pattern. Main statement: a finite number is printed as its plain numeral rounded, a half away from
    zero, with the digits and commas the pattern asks for (`prints_rounded`). -/

namespace LogDispatch

/-- The number rounded to so many places behind the point, a half away from zero. -/
def Decimal.roundAway (places : Nat) (x : ℚ) : ℚ :=
  (SignType.sign x : ℚ) * (⌊|x| * 10 ^ places + 1 / 2⌋₊ / 10 ^ places)

namespace NumberPattern

open Decimal

variable {ds whole fraction : List Char} {c d : Char} {places least : Nat}

/-! ### Precision -/

theorem Group.precision_le (g : Group) : g.precision.1 ≤ g.precision.2 := by
  unfold precision
  split
  · exact Nat.le_add_right _ _
  · split <;> exact Nat.zero_le _
  · exact Nat.le_refl _

theorem minFraction_le {source : String} {p : NumberPattern} (h : compile source = .ok p) :
    p.minFraction ≤ p.maxFraction := by
  unfold compile at h
  dsimp only at h
  split at h
  · cases h
  · obtain rfl := Except.ok.inj h
    exact Group.precision_le _

/-! ### One more in the last place -/

theorem length_increment (ds : List Char) : (increment ds).1.length = ds.length := by
  induction ds with
  | nil => rfl
  | cons c ds ih =>
    simp only [increment]
    split_ifs <;> simp [ih]

/-- A digit below nine goes over to the next one. -/
theorem next_digit (hc : c.isDigit = true) (hnine : c ≠ '9') :
    (Char.ofNat (c.toNat + 1)).isDigit = true ∧ (Char.ofNat (c.toNat + 1)).toNat = c.toNat + 1 := by
  obtain ⟨hlow, hhigh⟩ := Char.isDigit_iff_toNat.mp hc
  have hne : c.toNat ≠ '9'.toNat := fun heq => hnine (Char.toNat_inj.mp heq)
  have hnext : ∀ n < 57, 48 ≤ n → (Char.ofNat (n + 1)).isDigit = true ∧ (Char.ofNat (n + 1)).toNat = n + 1 := by
    decide
  have h0 : '0'.toNat = 48 := rfl
  have h9 : '9'.toNat = 57 := rfl
  exact hnext c.toNat (by omega) (by omega)

theorem isDigit_increment (h : ∀ c ∈ ds, c.isDigit = true) : ∀ c ∈ (increment ds).1, c.isDigit = true := by
  induction ds with
  | nil => exact fun _ hc => absurd hc List.not_mem_nil
  | cons c ds ih =>
    obtain ⟨hc, hds⟩ := List.forall_mem_cons.mp h
    simp only [increment]
    split_ifs with hcarry hnine
    · exact List.forall_mem_cons.mpr ⟨rfl, ih hds⟩
    · exact List.forall_mem_cons.mpr ⟨(next_digit hc hnine).1, ih hds⟩
    · exact List.forall_mem_cons.mpr ⟨hc, ih hds⟩

/-- The carry stands for a one in front of the digits. -/
theorem worth_increment (h : ∀ c ∈ ds, c.isDigit = true) :
    worth (increment ds).1 + (if (increment ds).2 then 10 ^ ds.length else 0) = worth ds + 1 := by
  induction ds with
  | nil => rfl
  | cons c ds ih =>
    obtain ⟨hc, hds⟩ := List.forall_mem_cons.mp h
    have ih := ih hds
    have hlength := length_increment ds
    have hlow := (Char.isDigit_iff_toNat.mp hc).1
    by_cases hcarry : (increment ds).2 = true
    · rw [if_pos hcarry] at ih
      by_cases hnine : c = '9'
      · simp only [increment, hcarry, hnine, if_true, worth_cons, hlength, List.length_cons, Nat.pow_succ,
          show '9'.toNat - '0'.toNat = 9 from rfl, Nat.sub_self]
        omega
      · simp only [increment, hcarry, hnine, if_true, if_false, Bool.false_eq_true, worth_cons, hlength]
        rw [(next_digit hc hnine).2, Nat.sub_add_comm hlow, Nat.add_mul, Nat.one_mul]
        omega
    · rw [if_neg hcarry] at ih
      simp only [increment, hcarry, if_false, Bool.false_eq_true, worth_cons, hlength]
      omega

theorem head?_increment (h : ∀ c ∈ ds, c.isDigit = true) (hzero : ds.head? ≠ some '0')
    (hcarry : (increment ds).2 = false) : (increment ds).1.head? ≠ some '0' := by
  cases ds with
  | nil => simp [increment]
  | cons c ds =>
    simp only [increment] at hcarry ⊢
    by_cases hcarry' : (increment ds).2 = true
    · by_cases hnine : c = '9'
      · simp [hcarry', hnine] at hcarry
      · obtain ⟨-, hnext⟩ := next_digit (h c List.mem_cons_self) hnine
        have hlow := (Char.isDigit_iff_toNat.mp (h c List.mem_cons_self)).1
        simp only [hcarry', hnine, if_true, if_false, List.head?_cons]
        intro heq
        have := congrArg Char.toNat (Option.some.inj heq)
        omega
    · simpa [hcarry'] using hzero

/-- The digits, or one more than them, with another digit in front where the sum needs it. -/
def raised (up : Bool) (ds : List Char) : List Char :=
  if (if up then increment ds else (ds, false)).2 then '1' :: (if up then increment ds else (ds, false)).1
  else (if up then increment ds else (ds, false)).1

theorem isDigit_raised (h : ∀ c ∈ ds, c.isDigit = true) (up : Bool) : ∀ c ∈ raised up ds, c.isDigit = true := by
  cases up with
  | false => exact h
  | true =>
    simp only [raised, if_true]
    split_ifs
    · exact List.forall_mem_cons.mpr ⟨rfl, isDigit_increment h⟩
    · exact isDigit_increment h

theorem worth_raised (h : ∀ c ∈ ds, c.isDigit = true) (up : Bool) :
    worth (raised up ds) = worth ds + if up then 1 else 0 := by
  cases up with
  | false => rfl
  | true =>
    have hworth := worth_increment h
    simp only [raised, if_true]
    split_ifs with hcarry
    · rw [if_pos hcarry] at hworth
      rw [worth_cons, length_increment, ← hworth, show '1'.toNat - '0'.toNat = 1 from rfl, Nat.one_mul, Nat.add_comm]
    · rw [if_neg hcarry] at hworth
      exact hworth

theorem length_le_raised (up : Bool) (ds : List Char) : ds.length ≤ (raised up ds).length := by
  cases up with
  | false => exact Nat.le_refl _
  | true =>
    simp only [raised, if_true]
    split_ifs <;> simp [length_increment]

/-- Where a zero is in front it was there before, and no digit has come in front of it. -/
theorem head?_raised (h : ∀ c ∈ ds, c.isDigit = true) (up : Bool) (hzero : (raised up ds).head? = some '0') :
    ds.head? = some '0' ∧ (raised up ds).length = ds.length := by
  cases up with
  | false => exact ⟨hzero, rfl⟩
  | true =>
    by_cases hcarry : (increment ds).2 = true
    · simp [raised, hcarry] at hzero
    · simp only [raised, if_true, if_neg hcarry] at hzero ⊢
      refine ⟨?_, length_increment ds⟩
      by_contra hne
      exact head?_increment h hne (Bool.eq_false_iff.mpr hcarry) hzero

/-! ### Rounding -/

/-- A five or more is the first of the digits that are left out. -/
def roundsUp (places : Nat) (fraction : List Char) : Bool :=
  match fraction.drop places with
  | [] => false
  | d :: _ => '5' ≤ d

/-- The first so many digits behind the point, zeros where there are none. -/
def kept (places : Nat) (fraction : List Char) : List Char := (fraction ++ List.replicate places '0').take places

/-- The digits that are left out, with as many zeros behind them as it takes to have all digits of the fraction. -/
def leftOut (places : Nat) (fraction : List Char) : List Char := (fraction ++ List.replicate places '0').drop places

theorem isDigit_padded (h : ∀ c ∈ fraction, c.isDigit = true) :
    ∀ c ∈ fraction ++ List.replicate places '0', c.isDigit = true := by
  intro c hc
  rcases List.mem_append.mp hc with hc | hc
  · exact h c hc
  · rw [(List.mem_replicate.mp hc).2]
    rfl

theorem length_leftOut (places : Nat) (fraction : List Char) : (leftOut places fraction).length = fraction.length := by
  simp [leftOut]

theorem roundsUp_iff (h : ∀ c ∈ fraction, c.isDigit = true) (places : Nat) :
    roundsUp places fraction = true ↔ 10 ^ fraction.length ≤ 2 * worth (leftOut places fraction) := by
  have hdigit : ∀ c ∈ leftOut places fraction, c.isDigit = true := fun c hc => isDigit_padded h c (List.mem_of_mem_drop hc)
  have hlength := length_leftOut places fraction
  rw [← hlength, roundsUp]
  rw [leftOut, List.drop_append] at *
  cases hrest : fraction.drop places with
  | nil => simp [List.drop_replicate]
  | cons d ds =>
    rw [hrest] at hdigit
    simpa using five_le_iff hdigit

/-- The digits that are kept, and one more if they are rounded up, are the nearest whole number of units. -/
theorem worth_kept (h : ∀ c ∈ fraction, c.isDigit = true) (places : Nat) :
    worth (whole ++ kept places fraction) + (if roundsUp places fraction then 1 else 0) =
      (2 * (worth (whole ++ fraction) * 10 ^ places) + 10 ^ fraction.length) / (2 * 10 ^ fraction.length) := by
  have hpadded : worth (whole ++ fraction) * 10 ^ places =
      worth (whole ++ kept places fraction) * 10 ^ fraction.length + worth (leftOut places fraction) := by
    calc worth (whole ++ fraction) * 10 ^ places
        = worth (whole ++ fraction ++ List.replicate places '0') := (worth_append_zeros _ _).symm
      _ = worth (whole ++ kept places fraction ++ leftOut places fraction) := by
          rw [List.append_assoc, List.append_assoc, kept, leftOut, List.take_append_drop]
      _ = _ := by rw [worth_append, length_leftOut]
  have hlt : worth (leftOut places fraction) < 10 ^ fraction.length := by
    rw [← length_leftOut places]
    exact worth_lt fun c hc => isDigit_padded h c (List.mem_of_mem_drop hc)
  have hup := roundsUp_iff h places
  rw [hpadded]
  generalize worth (whole ++ kept places fraction) = x at *
  generalize worth (leftOut places fraction) = b at *
  generalize 10 ^ fraction.length = unit at *
  have hdouble : x * (2 * unit) = 2 * (x * unit) := Nat.mul_left_comm x 2 unit
  have hnext : (x + 1) * (2 * unit) = 2 * (x * unit) + 2 * unit := by rw [Nat.add_mul, hdouble, Nat.one_mul]
  have hlast : (x + 1 + 1) * (2 * unit) = 2 * (x * unit) + 2 * unit + 2 * unit := by
    rw [Nat.add_mul, hnext, Nat.one_mul]
  by_cases hb : unit ≤ 2 * b
  · rw [if_pos (hup.mpr hb)]
    exact (Nat.div_eq_of_lt_le (by omega) (by omega)).symm
  · rw [if_neg (mt hup.mp hb), Nat.add_zero]
    exact (Nat.div_eq_of_lt_le (by omega) (by omega)).symm

/-- The digits of a plain numeral rounded to so many places: `whole` before the point and `fraction` behind it. -/
structure Rounds (n : Numeral) (places : Nat) (whole fraction : List Char) : Prop where
  length : fraction.length = places
  isDigit : ∀ c ∈ whole ++ fraction, c.isDigit = true
  whole_ne : whole ≠ []
  tidy : whole.head? = some '0' → whole = ['0']
  worth : Decimal.worth (whole ++ fraction) = ⌊n.magnitude * 10 ^ places + 1 / 2⌋₊

theorem ne_point (h : c.isDigit = true) : (c != '.') = true := by
  rw [bne_iff_ne]
  rintro rfl
  cases h

/-- The digits that are kept, raised where they are rounded up, with as many of them behind the point as asked for. -/
theorem roundNumeral_eq {n : Numeral} (hpositive : n.negative = false) (places : Nat) :
    roundNumeral n.chars places =
      (raised (roundsUp places n.fraction) (n.whole ++ kept places n.fraction)).splitAt
        ((raised (roundsUp places n.fraction) (n.whole ++ kept places n.fraction)).length - places) := by
  have hwhole : ∀ c ∈ n.whole, (c != '.') = true := fun c hc => ne_point (n.isDigit c (List.mem_append_left _ hc))
  have hchars : n.chars = n.whole ++ if n.fraction.isEmpty then [] else '.' :: n.fraction := by
    simp [Numeral.chars, hpositive]
  have htake : n.chars.takeWhile (· != '.') = n.whole := by
    rw [hchars, List.takeWhile_append_of_pos hwhole]
    split_ifs <;> simp
  have hdrop : (n.chars.dropWhile (· != '.')).drop 1 = n.fraction := by
    rw [hchars, List.dropWhile_append_of_pos hwhole]
    split_ifs with hnone
    · simpa using (List.isEmpty_iff.mp hnone).symm
    · simp
  rw [roundNumeral, htake, hdrop]
  rfl

theorem floor_magnitude (n : Numeral) (places : Nat) : ⌊n.magnitude * 10 ^ places + 1 / 2⌋₊ =
    (2 * (worth (n.whole ++ n.fraction) * 10 ^ places) + 10 ^ n.fraction.length) / (2 * 10 ^ n.fraction.length) := by
  rw [← Nat.floor_div_eq_div (K := ℚ)]
  congr 1
  rw [Numeral.magnitude]
  push_cast
  field_simp

theorem rounds_roundNumeral {n : Numeral} (hpositive : n.negative = false) (htidy : n.IsTidy) (places : Nat) :
    Rounds n places (roundNumeral n.chars places).1 (roundNumeral n.chars places).2 := by
  have hfraction : ∀ c ∈ n.fraction, c.isDigit = true := fun c hc => n.isDigit c (List.mem_append_right _ hc)
  have hkept : ∀ c ∈ n.whole ++ kept places n.fraction, c.isDigit = true := by
    intro c hc
    rcases List.mem_append.mp hc with hc | hc
    · exact n.isDigit c (List.mem_append_left _ hc)
    · exact isDigit_padded hfraction c (List.mem_of_mem_take hc)
  have hlength : (n.whole ++ kept places n.fraction).length = n.whole.length + places := by
    simp [kept]
  have hpos : 0 < n.whole.length := List.length_pos_iff.mpr n.whole_ne
  have hworth := worth_raised hkept (roundsUp places n.fraction)
  rw [worth_kept hfraction, ← floor_magnitude] at hworth
  have hle := length_le_raised (roundsUp places n.fraction) (n.whole ++ kept places n.fraction)
  have hdigit := isDigit_raised hkept (roundsUp places n.fraction)
  have hhead := head?_raised hkept (roundsUp places n.fraction)
  rw [hlength] at hle hhead
  rw [roundNumeral_eq hpositive, List.splitAt_eq]
  generalize raised (roundsUp places n.fraction) (n.whole ++ kept places n.fraction) = ds at *
  refine ⟨?_, ?_, ?_, fun hzero => ?_, ?_⟩
  · rw [List.length_drop]
    omega
  · rwa [List.take_append_drop]
  · intro hnil
    rcases List.take_eq_nil_iff.mp hnil with hnil | hnil
    · omega
    · rw [hnil, List.length_nil] at hle
      omega
  · rw [List.head?_take, if_neg (by omega)] at hzero
    obtain ⟨hfirst, hsame⟩ := hhead hzero
    rw [List.head?_append_of_ne_nil _ n.whole_ne] at hfirst
    have hone : n.whole.length = 1 := by rw [htidy hfirst]; rfl
    obtain ⟨c, cs, rfl⟩ := List.exists_cons_of_ne_nil (List.ne_nil_of_length_pos (by omega : 0 < ds.length))
    obtain rfl := Option.some.inj hzero
    rw [hsame, hone, Nat.add_sub_cancel]
    rfl
  · rw [List.take_append_drop, hworth]

/-! ### Zeros at the end -/

theorem exists_dropZeros (least : Nat) (ds : List Char) : ∃ first zeros, ds = first ++ List.replicate zeros '0' ∧
    first.getLast? ≠ some '0' ∧ dropZeros least ds = first ++ List.replicate (min (least - first.length) zeros) '0' := by
  have hsplit : ds = (ds.reverse.dropWhile (· == '0')).reverse ++ (ds.reverse.takeWhile (· == '0')).reverse := by
    rw [← List.reverse_append, List.takeWhile_append_dropWhile, List.reverse_reverse]
  have hzeros : (ds.reverse.takeWhile (· == '0')).reverse =
      List.replicate (ds.reverse.takeWhile (· == '0')).length '0' := by
    refine List.eq_replicate_iff.mpr ⟨List.length_reverse, fun c hc => ?_⟩
    simpa using List.mem_takeWhile_imp (List.mem_reverse.mp hc)
  rw [hzeros] at hsplit
  refine ⟨_, _, hsplit, ?_, ?_⟩
  · rw [List.getLast?_reverse]
    intro hhead
    have hnot := List.head?_dropWhile_not (· == '0') ds.reverse
    rw [hhead] at hnot
    cases hnot
  · rw [dropZeros]
    refine (congrArg (List.take _) hsplit).trans ?_
    rw [List.take_append, List.take_of_length_le (by simp), List.take_replicate]
    congr 2
    simp only [List.length_reverse]
    omega

/-- The fraction without the zeros at its end that are not asked for. -/
theorem dropZeros_spec (hle : least ≤ ds.length) : least ≤ (dropZeros least ds).length ∧
    (dropZeros least ds).length ≤ ds.length ∧
    (least < (dropZeros least ds).length → (dropZeros least ds).getLast? ≠ some '0') ∧
    ds = dropZeros least ds ++ List.replicate (ds.length - (dropZeros least ds).length) '0' := by
  obtain ⟨first, zeros, rfl, hlast, hdrop⟩ := exists_dropZeros least ds
  rw [List.length_append, List.length_replicate] at hle
  rw [hdrop, List.length_append, List.length_append, List.length_replicate, List.length_replicate]
  refine ⟨by omega, by omega, fun hlt => ?_, ?_⟩
  · rwa [show min (least - first.length) zeros = 0 by omega, List.replicate_zero, List.append_nil]
  · rw [List.append_assoc, List.replicate_append_replicate]
    congr 2
    omega

/-! ### Commas -/

/-- The text is the digits with a comma before every group of three, counted from the end. -/
inductive Grouped : List Char → List Char → Prop
  | short {ds : List Char} : ds.length ≤ 3 → Grouped ds ds
  | more {ds text last : List Char} : ds ≠ [] → Grouped ds text → last.length = 3 →
      Grouped (ds ++ last) (text ++ ',' :: last)

theorem separated_of_length_le (h : ds.length ≤ 3) : separated ds = ds := by
  match ds, h with
  | [], _ | [_], _ | [_, _], _ | [_, _, _], _ => rfl

theorem separated_append {last : List Char} (hne : ds ≠ []) (hlast : last.length = 3) :
    separated (ds ++ last) = separated ds ++ ',' :: last := by
  induction ds with
  | nil => exact absurd rfl hne
  | cons c ds ih =>
    rw [List.cons_append, separated, separated]
    cases ds with
    | nil =>
      have hcomma : last.length % 3 = 0 ∧ (!last.isEmpty) = true := by
        cases last <;> simp_all
      rw [List.nil_append, if_pos hcomma, separated_of_length_le (Nat.le_of_eq hlast)]
      simp [separated]
    | cons d ds =>
      have hplace : (d :: ds ++ last).length % 3 = (d :: ds).length % 3 := by
        rw [List.length_append, hlast, Nat.add_mod_right]
      rw [hplace, ih (by simp)]
      split_ifs <;> simp_all

theorem grouped_separated (ds : List Char) : Grouped ds (separated ds) := by
  induction hn : ds.length using Nat.strongRecOn generalizing ds with
  | ind n ih =>
    subst hn
    rcases Nat.lt_or_ge 3 ds.length with hlong | hshort
    · have hlast : (ds.drop (ds.length - 3)).length = 3 := by
        rw [List.length_drop]
        omega
      have hlength : (ds.take (ds.length - 3)).length = ds.length - 3 := by
        rw [List.length_take]
        omega
      have hne : ds.take (ds.length - 3) ≠ [] := List.ne_nil_of_length_pos (by omega)
      have hgrouped := Grouped.more hne (ih _ (by omega) _ hlength) hlast
      rwa [← separated_append hne hlast, List.take_append_drop] at hgrouped
    · rw [separated_of_length_le hshort]
      exact .short hshort

/-! ### The numeral that is printed -/

section
variable {x : ℚ}

theorem roundAway_of_nonneg (hx : 0 ≤ x) : roundAway places x = ⌊x * 10 ^ places + 1 / 2⌋₊ / 10 ^ places := by
  rcases hx.eq_or_lt with rfl | hpos
  · have hhalf : ⌊(0 : ℚ) * 10 ^ places + 1 / 2⌋₊ = 0 := Nat.floor_eq_zero.mpr (by norm_num)
    rw [roundAway, sign_zero, hhalf]
    simp
  · rw [roundAway, sign_pos hpos, abs_of_pos hpos]
    simp

theorem roundAway_neg (x : ℚ) : roundAway places (-x) = -roundAway places x := by
  rw [roundAway, roundAway, Left.sign_neg, abs_neg]
  simp

end

theorem magnitude_eq_zero_iff (n : Numeral) :
    n.magnitude = 0 ↔ (n.whole.all (· == '0') && n.fraction.all (· == '0')) = true := by
  rw [← List.all_append, ← worth_eq_zero_iff n.isDigit, Numeral.magnitude, div_eq_zero_iff]
  simp

/-- Rounded to so many places, a numeral has that many digits behind the point, but for zeros at the end. -/
theorem exists_rounded {n : Numeral} (hpositive : n.negative = false) (htidy : n.IsTidy) (hle : least ≤ places)
    (negative : Bool) : ∃ r : Numeral, r.negative = negative ∧ r.whole = (roundNumeral n.chars places).1 ∧
      r.fraction = dropZeros least (roundNumeral n.chars places).2 ∧ r.magnitude = roundAway places n.magnitude ∧
      r.IsTidy ∧ least ≤ r.fraction.length ∧ r.fraction.length ≤ places ∧
      (least < r.fraction.length → r.fraction.getLast? ≠ some '0') := by
  obtain ⟨hlength, hdigit, hne, hwhole, hworth⟩ := rounds_roundNumeral hpositive htidy places
  generalize (roundNumeral n.chars places).1 = whole at *
  generalize (roundNumeral n.chars places).2 = fraction at *
  subst hlength
  obtain ⟨hleast, hmost, hlast, hzeros⟩ := dropZeros_spec hle
  have hdigit' : ∀ c ∈ whole ++ dropZeros least fraction, c.isDigit = true := by
    intro c hc
    rcases List.mem_append.mp hc with hc | hc
    · exact hdigit c (List.mem_append_left _ hc)
    · exact hdigit c (List.mem_append_right _ (List.mem_of_mem_take hc))
  refine ⟨⟨negative, whole, dropZeros least fraction, hdigit', hne⟩, rfl, rfl, rfl, ?_, hwhole, hleast, hmost, hlast⟩
  rw [roundAway_of_nonneg n.magnitude_nonneg, ← hworth, Numeral.magnitude]
  generalize fraction.length - (dropZeros least fraction).length = zeros at hzeros
  generalize dropZeros least fraction = first at *
  subst hzeros
  rw [← List.append_assoc, worth_append_zeros, List.length_append, List.length_replicate, pow_add, Nat.cast_mul,
    Nat.cast_pow, Nat.cast_ofNat, mul_div_mul_right _ _ (by positivity)]

/-- A number of a pattern without a percent sign is printed as its plain numeral rounded. -/
theorem prints_rounded {source : String} {p : NumberPattern} {v : Float} (hcompile : compile source = .ok p)
    (hpercent : p.percent = false) (hfinite : v.isFinite = true) : ∃ (n r : Numeral) (whole : List Char),
      (plainText v).toList = n.chars ∧
      r.value = roundAway p.maxFraction (if p.absolute then |n.value| else n.value) ∧
      (p.format v).toList = (if r.negative then ['-'] else []) ++ whole ++
        (if r.fraction.isEmpty then [] else '.' :: r.fraction) ∧
      (if p.thousands then Grouped r.whole whole else whole = r.whole) ∧
      p.minFraction ≤ r.fraction.length ∧ r.fraction.length ≤ p.maxFraction ∧
      (p.minFraction < r.fraction.length → r.fraction.getLast? ≠ some '0') ∧ r.IsTidy ∧
      (r.negative = true ↔ r.value < 0) := by
  obtain ⟨negative, m, e, hfloat, habs, hbelow⟩ := exists_magnitude hfinite
  obtain ⟨n, hpositive, htidy, hmagnitude, hchars⟩ := exists_plain m e
  -- What is rounded has the magnitude of the number, and its sign unless the pattern drops it.
  obtain ⟨w, hw, hwabs, hwbelow⟩ : ∃ w, (if p.absolute then v.abs else v) = w ∧
      Binary.ofFloat w.abs = .finite false m e ∧ (w < 0.0 ↔ (negative && !p.absolute) = true ∧ m ≠ 0) := by
    cases habsolute : p.absolute with
    | false => exact ⟨v, by simp, habs, by simpa using hbelow⟩
    | true =>
      obtain ⟨negative', m', e', hfloat', habs', hbelow'⟩ := exists_magnitude (isFinite_abs hfinite)
      obtain ⟨rfl, rfl, rfl⟩ := Binary.finite.inj (hfloat'.symm.trans habs)
      exact ⟨v.abs, by simp, habs', by simpa using hbelow'⟩
  have htext : (plainText w.abs).toList = n.chars := by
    rw [plainText, hwabs]
    simpa [← hpositive] using hchars false
  obtain ⟨r, hnegative, hwhole, hfraction, hrounded, htidy', hleast, hmost, hlast⟩ :=
    exists_rounded hpositive htidy (minFraction_le hcompile) (decide (w < 0.0) &&
      !((roundNumeral n.chars p.maxFraction).1.all (· == '0') &&
        (dropZeros p.minFraction (roundNumeral n.chars p.maxFraction).2).all (· == '0')))
  rw [← hwhole, ← hfraction] at hnegative
  have hzero : m = 0 → r.magnitude = 0 := by
    rintro rfl
    rw [hrounded, hmagnitude, shortest, if_pos rfl, Nat.cast_zero, zero_mul, roundAway, sign_zero]
    simp
  have hsign : r.negative = true ↔ (negative && !p.absolute) = true ∧ r.magnitude ≠ 0 := by
    rw [hnegative, Bool.and_eq_true, decide_eq_true_iff, hwbelow, Bool.not_eq_true', ← Bool.not_eq_true,
      ← magnitude_eq_zero_iff]
    exact ⟨fun h => ⟨h.1.1, h.2⟩, fun h => ⟨⟨h.1, mt hzero h.2⟩, h.2⟩⟩
  have hvalue : r.value = if negative && !p.absolute then -r.magnitude else r.magnitude := by
    rw [Numeral.value]
    by_cases hnone : r.magnitude = 0
    · simp [hnone]
    · rw [show r.negative = (negative && !p.absolute) from Bool.eq_iff_iff.mpr (hsign.trans (and_iff_left hnone))]
  have hprinted : (p.format v).toList = (if r.negative then ['-'] else []) ++
      (if p.thousands then separated r.whole else r.whole) ++
        (if r.fraction.isEmpty then [] else '.' :: r.fraction) := by
    simp only [format, hfinite, hpercent, hw, if_true, if_false, Bool.false_eq_true, htext, ← hwhole, ← hfraction,
      ← hnegative, String.toList_ofList]
  refine ⟨{ n with negative }, r, if p.thousands then separated r.whole else r.whole, ?_, ?_, hprinted, ?_, hleast, hmost,
    hlast, htidy', ?_⟩
  · rw [plainText, hfloat]
    exact hchars negative
  · have hvalue' : ({ n with negative } : Numeral).value = if negative then -n.magnitude else n.magnitude := rfl
    rw [hvalue, hvalue', hrounded]
    cases negative <;> cases p.absolute <;> simp [roundAway_neg, abs_of_nonneg n.magnitude_nonneg]
  · split_ifs
    · exact grouped_separated _
    · rfl
  · have hnonneg := r.magnitude_nonneg
    rw [Numeral.value]
    split_ifs with hminus
    · have hpos := lt_of_le_of_ne hnonneg (Ne.symm (hsign.mp hminus).2)
      simpa [hminus] using hpos
    · simpa [hminus] using hnonneg

/-- The plain numeral is rounded and not the double: `-1000.005` stands for a double that is nearer to zero. -/
theorem half_rounded_away :
    compile "0,0.0[0]" = .ok ⟨"0,0.0[0]", false, false, true, 1, 2⟩ ∧
    (Float.ofBits 0xc08f400a3d70a3d7).isFinite = true ∧
    ∃ (n r : Numeral) (whole : List Char), n.chars = "-1000.005".toList ∧ r.value = roundAway 2 n.value ∧
      "-1,000.01".toList = (if r.negative then ['-'] else []) ++ whole ++
        (if r.fraction.isEmpty then [] else '.' :: r.fraction) ∧
      Grouped r.whole whole ∧ 1 ≤ r.fraction.length ∧ r.fraction.length ≤ 2 ∧
      (1 < r.fraction.length → r.fraction.getLast? ≠ some '0') ∧ r.IsTidy ∧ (r.negative = true ↔ r.value < 0) := by
  have hcompile : compile "0,0.0[0]" = .ok ⟨"0,0.0[0]", false, false, true, 1, 2⟩ := rfl
  have hfinite : (Float.ofBits 0xc08f400a3d70a3d7).isFinite = true := rfl
  have hplain : plainText (Float.ofBits 0xc08f400a3d70a3d7) = "-1000.005" := rfl
  have hformat : format ⟨"0,0.0[0]", false, false, true, 1, 2⟩ (Float.ofBits 0xc08f400a3d70a3d7) = "-1,000.01" := rfl
  obtain ⟨n, r, whole, hn, hr, hprinted, hgrouped, hrest⟩ := prints_rounded hcompile rfl hfinite
  rw [hplain] at hn
  rw [hformat] at hprinted
  exact ⟨hcompile, hfinite, n, r, whole, hn.symm, hr, hprinted, hgrouped, hrest⟩

end NumberPattern

end LogDispatch
