import LogDispatch.Proofs.Calendar
import LogDispatch.Proofs.DatePatterns
import LogDispatch.Proofs.Digits

/-! Texts that sort as time does. Main statement: in UTC, from the year with its four digits down to milliseconds, dates of
    the years 1000 to 9999 have texts of one length, which stand in the order of the seconds and of the milliseconds that a
    clock shows (`sortable_lt_iff`). Inside a leap second a clock shows the milliseconds of the second before it over again,
    and years below 1000 have fewer digits; there texts and dates may stand in different orders
    (`sortable_out_of_order`).

    A text is a row of numerals of fixed width with marks between them, so texts sort as the rows of their numbers do
    (`numeral_lt_iff`), and these as the day numbers and the clocks that they are worked out from (`values_lt_iff`). -/

namespace LogDispatch

/-! ### Numerals of fixed width -/

namespace Calendar

variable {w n m : Nat} {cs ds : List Char}

theorem toList_padded (w n : Nat) :
    (padded w n).toList = List.replicate (w - (Nat.toDigits 10 n).length) '0' ++ Nat.toDigits 10 n :=
  String.toList_ofList

theorem isDigit_padded {c : Char} (hc : c ∈ (padded w n).toList) : c.isDigit = true := by
  rw [toList_padded] at hc
  rcases List.mem_append.mp hc with hc | hc
  · rw [(List.mem_replicate.mp hc).2]
    rfl
  · exact Decimal.isDigit_toDigits hc

theorem length_padded (hw : 0 < w) (hn : n < 10 ^ w) : (padded w n).toList.length = w := by
  have hlength := (Nat.length_toDigits_le_iff (by decide) hw).mpr hn
  rw [toList_padded, List.length_append, List.length_replicate, Nat.sub_add_cancel hlength]

theorem worth_padded (w n : Nat) : Decimal.worth (padded w n).toList = n := by
  rw [toList_padded, Decimal.worth_append, Decimal.worth_replicate_zero, Nat.zero_mul, Nat.zero_add]
  exact Nat.ofDigitChars_ten_toDigits

/-- A number that fills its width has no zeros in front. -/
theorem padded_of_le (hn : 10 ^ w ≤ n) : padded (w + 1) n = toString n := by
  have hlength : w + 1 ≤ (Nat.toDigits 10 n).length := by
    rcases Nat.eq_zero_or_pos w with rfl | hw
    · exact Nat.length_toDigits_pos
    · exact Nat.lt_of_not_le fun hle => Nat.not_lt_of_le hn ((Nat.length_toDigits_le_iff (by decide) hw).mp hle)
  rw [padded, Nat.sub_eq_zero_of_le hlength]
  rfl

theorem numeral_lt_iff (hw : 0 < w) (hn : n < 10 ^ w) (hm : m < 10 ^ w) :
    (padded w n).toList ++ cs < (padded w m).toList ++ ds ↔ n < m ∨ n = m ∧ cs < ds := by
  have hlength : (padded w n).toList.length = (padded w m).toList.length := by
    rw [length_padded hw hn, length_padded hw hm]
  have heq : (padded w n).toList = (padded w m).toList ↔ n = m := by
    refine ⟨fun heq => ?_, fun heq => heq ▸ rfl⟩
    rw [← worth_padded w n, heq, worth_padded]
  rw [Text.append_lt_append_iff hlength, Decimal.lt_iff_worth_lt hlength (fun _ => isDigit_padded) (fun _ => isDigit_padded),
    worth_padded, worth_padded, heq]

/-! ### Rows of numerals -/

/-- Numerals of the widths that the layout gives, each with the mark behind it. -/
def row : List (Nat × List Char) → List Nat → List Char
  | (w, mark) :: layout, n :: values => (padded w n).toList ++ (mark ++ row layout values)
  | _, _ => []

/-- Each number fits in the width that the layout gives it. -/
abbrev Fits : List (Nat × List Char) → List Nat → Prop := List.Forall₂ fun column n => 0 < column.1 ∧ n < 10 ^ column.1

variable {layout : List (Nat × List Char)} {values values' : List Nat}

/-- Rows of one layout sort as their numbers do. -/
theorem row_lt_iff (h : Fits layout values) (h' : Fits layout values') :
    row layout values < row layout values' ↔ values < values' := by
  induction h generalizing values' with
  | nil =>
    cases h'
    simp [row]
  | cons hn _ ih =>
    cases h' with
    | cons hn' h' =>
      rw [row, row, numeral_lt_iff hn.1 hn.2 hn'.2, Text.append_left_lt_iff, ih h', List.cons_lt_cons_iff]

theorem length_row (h : Fits layout values) :
    (row layout values).length = (layout.map fun column => column.1 + column.2.length).sum := by
  induction h with
  | nil => rfl
  | cons hn _ ih =>
    rw [row, List.length_append, List.length_append, length_padded hn.1 hn.2, ih, List.map_cons, List.sum_cons,
      Nat.add_assoc]

theorem ascii_row (h : ∀ column ∈ layout, ∀ c ∈ column.2, c.toNat < 128) {c : Char} (hc : c ∈ row layout values) :
    c.toNat < 128 := by
  induction layout generalizing values with
  | nil => simp [row] at hc
  | cons column layout ih =>
    obtain ⟨hmark, hlayout⟩ := List.forall_mem_cons.mp h
    cases values with
    | nil => simp [row] at hc
    | cons n values =>
      rw [row, List.mem_append, List.mem_append] at hc
      rcases hc with hc | hc | hc
      · exact Nat.lt_of_le_of_lt (Char.isDigit_iff_toNat.mp (isDigit_padded hc)).2 (by decide)
      · exact hmark c hc
      · exact ih hlayout hc

end Calendar

/-! ### Dates in order -/

namespace Timestamp

/-- The milliseconds that a clock shows. Inside a leap second it shows those of the second before it over again. -/
def clockMillis (t : Timestamp) : Nat := t.nanos / 1000000 % 1000

/-- The year of the date in UTC. -/
def utcYear (t : Timestamp) : Int := (Calendar.Moment.ofTimestamp t 0).day.year

/-- The date is no later instant than the other. -/
def NotAfter (a b : Timestamp) : Prop := a.seconds < b.seconds ∨ a.seconds = b.seconds ∧ a.nanos ≤ b.nanos

/-- If the dates lie in one second, both lie inside a leap second at its end or neither does. -/
def LeapTogether (a b : Timestamp) : Prop := a.seconds = b.seconds → a.nanos / 1000000000 = b.nanos / 1000000000

/-- The date shows as an earlier time than the other in UTC. -/
def ShownBefore (a b : Timestamp) : Prop :=
  a.seconds < b.seconds ∨ a.seconds = b.seconds ∧ a.clockMillis < b.clockMillis

variable {a b t : Timestamp}

theorem not_shownBefore (h : a.NotAfter b) (hleap : a.LeapTogether b) : ¬b.ShownBefore a := by
  have hmillis : a.seconds = b.seconds → a.nanos ≤ b.nanos → a.clockMillis ≤ b.clockMillis := by
    intro hseconds hnanos
    have hleap := hleap hseconds
    unfold clockMillis
    omega
  unfold NotAfter at h
  unfold ShownBefore
  omega

/-- The numbers of a date from its year down to milliseconds. -/
def values (t : Timestamp) : List Nat :=
  let m := Calendar.Moment.ofTimestamp t 0
  [m.day.year.toNat, m.day.month, m.day.day, m.hour, m.minute, m.second, t.clockMillis]

theorem ofTimestamp_utc (t : Timestamp) : Calendar.Moment.ofTimestamp t 0 =
    ⟨t.seconds / 86400, Calendar.Day.ofNumber (t.seconds / 86400), (t.seconds % 86400).toNat / 3600,
      (t.seconds % 86400).toNat / 60 % 60, (t.seconds % 86400).toNat % 60, t.nanos⟩ := by
  rw [Calendar.Moment.ofTimestamp, Int.add_zero, Int.fdiv_eq_ediv_of_nonneg _ (by decide),
    Int.fmod_eq_emod_of_nonneg _ (by decide)]

theorem utcYear_eq (t : Timestamp) : t.utcYear = (Calendar.Day.ofNumber (t.seconds / 86400)).year := by
  rw [utcYear, ofTimestamp_utc]

theorem values_lt_iff (ha : 0 ≤ a.utcYear) (hb : 0 ≤ b.utcYear) : a.values < b.values ↔ a.ShownBefore b := by
  rw [utcYear_eq] at ha hb
  unfold ShownBefore
  simp only [values, ofTimestamp_utc, List.cons_lt_cons_iff, List.lt_irrefl]
  generalize a.clockMillis = ma
  generalize b.clockMillis = mb
  rcases lt_trichotomy (a.seconds / 86400) (b.seconds / 86400) with hlt | heq | hgt
  · have hday := Calendar.ofNumber_before hlt
    unfold Calendar.Day.Before at hday
    omega
  · simp only [heq, Nat.lt_irrefl, true_and, false_or, and_false, or_false]
    omega
  · have hday := Calendar.ofNumber_before hgt
    unfold Calendar.Day.Before at hday
    omega

theorem shows_utc (hfirst : -262143 < t.utcYear) (hlast : t.utcYear < 262142) : Calendar.shows t 0 = true := by
  have hfirstDay : (Calendar.Day.ofNumber (Calendar.firstSecond / 86400)).year = -262143 := by decide
  have hlastDay : (Calendar.Day.ofNumber (Calendar.lastSecond / 86400)).year = 262142 := by decide
  rw [utcYear_eq] at hfirst hlast
  rw [Calendar.shows, Bool.and_eq_true, decide_eq_true_eq, decide_eq_true_eq, Int.add_zero]
  have hyear : ∀ {s s' : Int}, s < s' →
      (Calendar.Day.ofNumber (s / 86400)).year ≤ (Calendar.Day.ofNumber (s' / 86400)).year :=
    fun hlt => Calendar.year_mono (Int.ediv_le_ediv (by decide) (Int.le_of_lt hlt))
  refine ⟨Int.le_of_not_gt fun hbefore => ?_, Int.le_of_not_gt fun hafter => ?_⟩
  · have := hyear hbefore
    omega
  · have := hyear hafter
    omega

end Timestamp

namespace DatePattern

open Calendar (Fits row)

variable {a b t : Timestamp}

/-- The pattern for texts that sort: in UTC, from the year down to milliseconds. -/
def sortable : DatePattern := compile "UTC:yyyy-mm-dd HH:MM:ss.l"

/-- The widths of the numerals, each with the mark behind it. -/
def sortableLayout : List (Nat × List Char) :=
  [(4, ['-']), (2, ['-']), (2, [' ']), (2, [':']), (2, [':']), (2, ['.']), (3, [])]

theorem fits_values (hlast : t.utcYear ≤ 9999) : Fits sortableLayout t.values := by
  rw [Timestamp.utcYear_eq] at hlast
  have hmonth := Calendar.month_ofNumber_le (t.seconds / 86400)
  have hday := Calendar.day_ofNumber_le (t.seconds / 86400)
  have hmillis : t.clockMillis < 1000 := Nat.mod_lt _ (by decide)
  simp only [Fits, sortableLayout, Timestamp.values, Timestamp.ofTimestamp_utc, List.forall₂_cons, List.Forall₂.nil,
    and_true]
  omega

theorem said_sortable (hfirst : 1000 ≤ t.utcYear) :
    said (.ofTimestamp t 0) 0 "yyyy-mm-dd HH:MM:ss.l".toList = row sortableLayout t.values := by
  have hlexemes : lexemes 0 "yyyy-mm-dd HH:MM:ss.l".toList =
      [.field .year, .text ['-'], .field .monthPadded, .text ['-'], .field .dayPadded, .text [' '], .field .hour24Padded,
        .text [':'], .field .minutePadded, .text [':'], .field .secondPadded, .text ['.'], .field .millis] := by
    decide
  have hyear : fieldText (.ofTimestamp t 0) 0 .year = Calendar.padded 4 t.utcYear.toNat := by
    rw [Calendar.padded_of_le (by omega)]
    obtain ⟨n, hn⟩ := Int.eq_ofNat_of_zero_le (show 0 ≤ t.utcYear by omega)
    show toString t.utcYear = toString t.utcYear.toNat
    rw [hn]
    rfl
  rw [said, hlexemes]
  simp only [List.flatMap_cons, Lexeme.shown, hyear]
  rfl

theorem format_sortable (hfirst : 1000 ≤ t.utcYear) (hlast : t.utcYear ≤ 9999) :
    sortable.format t = .ok (String.ofList (row sortableLayout t.values)) := by
  rw [sortable, format_spec (.utc "yyyy-mm-dd HH:MM:ss.l".toList), if_pos (Timestamp.shows_utc (by omega) (by omega)),
    said_sortable hfirst]

theorem utf8ByteSize_sortable (hlast : t.utcYear ≤ 9999) :
    (String.ofList (row sortableLayout t.values)).utf8ByteSize = 23 := by
  have hascii : ∀ c ∈ row sortableLayout t.values, c.toNat < 128 := fun c =>
    Calendar.ascii_row (by simp [sortableLayout])
  rw [Text.utf8ByteSize_of_ascii hascii, Calendar.length_row (fits_values hlast)]
  rfl

/-- In the years 1000 to 9999 the texts of dates have one length and sort as the times that a clock in UTC shows. These are
    in the order of the dates, but for two in one second of which only the later lies inside a leap second. -/
theorem sortable_lt_iff (ha : 1000 ≤ a.utcYear ∧ a.utcYear ≤ 9999) (hb : 1000 ≤ b.utcYear ∧ b.utcYear ≤ 9999) :
    ∃ ta tb, sortable.format a = .ok ta ∧ sortable.format b = .ok tb ∧ ta.utf8ByteSize = 23 ∧ tb.utf8ByteSize = 23 ∧
      (ta < tb ↔ a.ShownBefore b) ∧ (a.NotAfter b → a.LeapTogether b → ta ≤ tb) := by
  have hlt : ∀ {a b : Timestamp}, 0 ≤ a.utcYear ∧ a.utcYear ≤ 9999 → 0 ≤ b.utcYear ∧ b.utcYear ≤ 9999 →
      (String.ofList (row sortableLayout a.values) < String.ofList (row sortableLayout b.values) ↔ a.ShownBefore b) := by
    intro a b ha hb
    show (String.ofList _).toList < (String.ofList _).toList ↔ _
    rw [String.toList_ofList, String.toList_ofList, Calendar.row_lt_iff (fits_values ha.2) (fits_values hb.2),
      Timestamp.values_lt_iff ha.1 hb.1]
  refine ⟨_, _, format_sortable ha.1 ha.2, format_sortable hb.1 hb.2, utf8ByteSize_sortable ha.2, utf8ByteSize_sortable hb.2,
    hlt ⟨by omega, ha.2⟩ ⟨by omega, hb.2⟩, fun hle hleap => ?_⟩
  rw [← String.not_lt, hlt ⟨by omega, hb.2⟩ ⟨by omega, ha.2⟩]
  exact Timestamp.not_shownBefore hle hleap

/-- The end of the leap day of 2024 in the east, and the next moment in the west. -/
theorem leap_day_before_march : sortable.format ⟨1709251199, 999999999, 3600⟩ = .ok "2024-02-29 23:59:59.999" ∧
    sortable.format ⟨1709251200, 0, -7200⟩ = .ok "2024-03-01 00:00:00.000" ∧
    "2024-02-29 23:59:59.999" < "2024-03-01 00:00:00.000" := by
  obtain ⟨ta, tb, ha, hb, -, -, hlt, -⟩ := sortable_lt_iff (a := ⟨1709251199, 999999999, 3600⟩)
    (b := ⟨1709251200, 0, -7200⟩) (by decide) (by decide)
  have hday : sortable.format ⟨1709251199, 999999999, 3600⟩ = .ok "2024-02-29 23:59:59.999" := by decide +kernel
  have hnext : sortable.format ⟨1709251200, 0, -7200⟩ = .ok "2024-03-01 00:00:00.000" := by decide +kernel
  obtain rfl := Except.ok.inj (hday.symm.trans ha)
  obtain rfl := Except.ok.inj (hnext.symm.trans hb)
  exact ⟨hday, hnext, hlt.mpr (.inl (by decide))⟩

/-- A leap second shows the milliseconds of the second before it over again, and years below 1000 have fewer digits: there a
    date may be the earlier one and its text the later, and texts differ in length. -/
theorem sortable_out_of_order :
    (Timestamp.NotAfter ⟨1483228799, 900000000, 0⟩ ⟨1483228799, 1500000000, 0⟩ ∧
      Timestamp.utcYear ⟨1483228799, 900000000, 0⟩ = 2016 ∧ Timestamp.utcYear ⟨1483228799, 1500000000, 0⟩ = 2016 ∧
      sortable.format ⟨1483228799, 900000000, 0⟩ = .ok "2016-12-31 23:59:59.900" ∧
      sortable.format ⟨1483228799, 1500000000, 0⟩ = .ok "2016-12-31 23:59:59.500" ∧
      ¬"2016-12-31 23:59:59.900" ≤ "2016-12-31 23:59:59.500") ∧
    Timestamp.NotAfter ⟨-30610224001, 0, 0⟩ ⟨-30610224000, 0, 0⟩ ∧
      Timestamp.utcYear ⟨-30610224001, 0, 0⟩ = 999 ∧ Timestamp.utcYear ⟨-30610224000, 0, 0⟩ = 1000 ∧
      sortable.format ⟨-30610224001, 0, 0⟩ = .ok "999-12-31 23:59:59.000" ∧
      sortable.format ⟨-30610224000, 0, 0⟩ = .ok "1000-01-01 00:00:00.000" ∧
      ¬"999-12-31 23:59:59.000" ≤ "1000-01-01 00:00:00.000" ∧
      "999-12-31 23:59:59.000".utf8ByteSize ≠ "1000-01-01 00:00:00.000".utf8ByteSize := by
  unfold Timestamp.NotAfter
  decide +kernel

end DatePattern

end LogDispatch
