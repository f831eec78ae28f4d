/-! Instants with an offset from UTC, and the fields of the proleptic Gregorian calendar. -/

namespace LogDispatch

/-- An instant as seconds and nanoseconds since 1970, seen at an offset of so many seconds east of UTC.
    Nanoseconds from one thousand million on count inside a leap second. -/
structure Timestamp where
  seconds : Int
  nanos : Nat
  offset : Int
  deriving DecidableEq, Repr, Inhabited

/-- Two timestamps are the same instant, whatever their offsets. -/
def Timestamp.sameInstant (a b : Timestamp) : Bool := a.seconds == b.seconds && a.nanos == b.nanos

/-- Milliseconds since 1970. -/
def Timestamp.millis (t : Timestamp) : Int := t.seconds * 1000 + (t.nanos / 1000000 : Nat)

namespace Calendar

structure Day where
  year : Int
  /-- 1 to 12. -/
  month : Nat
  /-- 1 to 31. -/
  day : Nat
  deriving DecidableEq, Repr

/-- The day so many days after 1970-01-01. Years are counted from March, in cycles of 400. -/
def Day.ofNumber (n : Int) : Day :=
  let z := n + 719468
  let era := z.fdiv 146097
  let doe := (z.fmod 146097).toNat
  let yoe := (doe - doe / 1460 + doe / 36524 - doe / 146096) / 365
  let doy := doe - (365 * yoe + yoe / 4 - yoe / 100)
  let mp := (5 * doy + 2) / 153
  let month := if mp < 10 then mp + 3 else mp - 9
  let year : Int := yoe + era * 400
  ⟨if month ≤ 2 then year + 1 else year, month, doy - (153 * mp + 2) / 5 + 1⟩

/-- The number of a day, counted from 1970-01-01. -/
def Day.number (d : Day) : Int :=
  let y := if d.month ≤ 2 then d.year - 1 else d.year
  let era := y.fdiv 400
  let yoe := (y.fmod 400).toNat
  let mp := if 2 < d.month then d.month - 3 else d.month + 9
  let doy := (153 * mp + 2) / 5 + d.day - 1
  let doe := yoe * 365 + yoe / 4 - yoe / 100 + doy
  era * 146097 + doe - 719468

/-- Days from Sunday, 0 to 6. -/
def weekdayFromSunday (n : Int) : Nat := ((n + 4).fmod 7).toNat

/-- The weekday as a number from Monday, 1 to 7. -/
def weekdayFromMonday (n : Int) : Nat := ((n + 3).fmod 7).toNat + 1

/-- The week of the year: the week that holds its Thursday, counted in the Thursday's year. -/
def isoWeek (n : Int) : Nat :=
  let thursday := n + 4 - weekdayFromMonday n
  let newYear := (Day.mk (Day.ofNumber thursday).year 1 1).number
  (thursday - newYear).toNat / 7 + 1

/-- The first second of the first day a calendar shows, 1 January of the year -262143. -/
def firstSecond : Int := -8334601228800

/-- The last second of the last day a calendar shows, 31 December of the year 262142. -/
def lastSecond : Int := 8210266876799

/-- The time that a clock shows at an offset lies within the calendar. -/
def shows (t : Timestamp) (offset : Int) : Bool :=
  firstSecond ≤ t.seconds + offset && t.seconds + offset ≤ lastSecond

/-- A calendar day with the time on a clock. -/
structure Moment where
  /-- The number of the day. -/
  number : Int
  day : Day
  hour : Nat
  minute : Nat
  second : Nat
  nanos : Nat

/-- What a calendar and a clock show at an offset of `offset` seconds from UTC. -/
def Moment.ofTimestamp (t : Timestamp) (offset : Int) : Moment :=
  let shown := t.seconds + offset
  let number := shown.fdiv 86400
  let clock := (shown.fmod 86400).toNat
  ⟨number, Day.ofNumber number, clock / 3600, clock / 60 % 60, clock % 60, t.nanos⟩

/-- The numeral with zeros in front up to `width` digits. -/
def padded (width n : Nat) : String :=
  let digits := Nat.toDigits 10 n
  String.ofList (List.replicate (width - digits.length) '0' ++ digits)

/-- A year in four digits; years outside 0 to 9999 carry a sign. -/
def yearText (year : Int) : String :=
  if 0 ≤ year ∧ year ≤ 9999 then padded 4 year.toNat
  else (if year < 0 then "-" else "+") ++ padded 4 year.natAbs

/-- The fraction of a second in no, three, six or nine digits, as many as it takes. -/
def fractionText (nanos : Nat) : String :=
  if nanos = 0 then ""
  else if nanos % 1000000 = 0 then "." ++ padded 3 (nanos / 1000000)
  else if nanos % 1000 = 0 then "." ++ padded 6 (nanos / 1000)
  else "." ++ padded 9 nanos

/-- An offset in hours and minutes, rounded to the minute. -/
def offsetText (offset : Int) : String :=
  let minutes := (offset.natAbs + 30) / 60
  (if offset < 0 then "-" else "+") ++ padded 2 (minutes / 60) ++ ":" ++ padded 2 (minutes % 60)

end Calendar

open Calendar in
/-- The timestamp as RFC 3339 writes it, at its own offset. A leap second is the second 60. -/
def Timestamp.text (t : Timestamp) : String :=
  let m := Moment.ofTimestamp t t.offset
  let leap := 1000000000 ≤ m.nanos
  let second := if leap then m.second + 1 else m.second
  let nanos := if leap then m.nanos - 1000000000 else m.nanos
  yearText m.day.year ++ "-" ++ padded 2 m.day.month ++ "-" ++ padded 2 m.day.day ++ "T" ++
    padded 2 m.hour ++ ":" ++ padded 2 m.minute ++ ":" ++ padded 2 second ++ fractionText nanos ++
    offsetText t.offset

end LogDispatch
