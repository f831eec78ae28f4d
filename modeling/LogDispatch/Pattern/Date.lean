import LogDispatch.Calendar
import LogDispatch.Panic

/-! Date patterns.

    Letters name fields of a date; a field takes as many of the same letter as its longest form has. Text in
    single or double quotes, and every character that names no field, stands for itself. `UTC:` at the start
    reads the date in UTC. -/

namespace LogDispatch

/-- What a date pattern can show of a date. -/
inductive DateField where
  | day
  | dayPadded
  | weekdayShort
  | weekday
  | month
  | monthPadded
  | monthShort
  | monthName
  | yearShort
  | year
  | hour12
  | hour12Padded
  | hour24
  | hour24Padded
  | minute
  | minutePadded
  | second
  | secondPadded
  | millis
  | centis
  | halfLower
  | halfLowerLong
  | halfUpper
  | halfUpperLong
  | zone
  | offset
  | ordinal
  | isoWeek
  | isoWeekday
  deriving DecidableEq, Repr

namespace DatePattern

def weekdayNames : List String :=
  ["Sunday", "Monday", "Tuesday", "Wednesday", "Thursday", "Friday", "Saturday"]

def monthNames : List String :=
  ["January", "February", "March", "April", "May", "June", "July", "August", "September", "October",
    "November", "December"]

/-- The first three letters of a name. -/
def short (name : String) : String := String.ofList (name.toList.take 3)

/-- An offset as sign, hours and minutes without a colon. -/
def offsetDigits (offset : Int) : String :=
  let minutes := offset.natAbs / 60
  (if offset < 0 then "-" else "+") ++ Calendar.padded 2 (minutes / 60) ++ Calendar.padded 2 (minutes % 60)

/-- The suffix of a day's ordinal number. -/
def ordinalSuffix (day : Nat) : String :=
  if 11 ≤ day % 100 ∧ day % 100 ≤ 13 then "th"
  else match day % 10 with
    | 1 => "st"
    | 2 => "nd"
    | 3 => "rd"
    | _ => "th"

/-- A field of a moment at an offset from UTC. -/
def fieldText (m : Calendar.Moment) (offset : Int) (f : DateField) : String :=
  let hour12 := if m.hour % 12 = 0 then 12 else m.hour % 12
  let millis := m.nanos / 1000000 % 1000
  let morning := m.hour < 12
  match f with
  | .day => toString m.day.day
  | .dayPadded => Calendar.padded 2 m.day.day
  | .weekdayShort => short (weekdayNames.getD (Calendar.weekdayFromSunday m.number) "")
  | .weekday => weekdayNames.getD (Calendar.weekdayFromSunday m.number) ""
  | .month => toString m.day.month
  | .monthPadded => Calendar.padded 2 m.day.month
  | .monthShort => short (monthNames.getD (m.day.month - 1) "")
  | .monthName => monthNames.getD (m.day.month - 1) ""
  | .yearShort => Calendar.padded 2 (m.day.year.fmod 100).toNat
  | .year => toString m.day.year
  | .hour12 => toString hour12
  | .hour12Padded => Calendar.padded 2 hour12
  | .hour24 => toString m.hour
  | .hour24Padded => Calendar.padded 2 m.hour
  | .minute => toString m.minute
  | .minutePadded => Calendar.padded 2 m.minute
  | .second => toString m.second
  | .secondPadded => Calendar.padded 2 m.second
  | .millis => Calendar.padded 3 millis
  | .centis => Calendar.padded 2 (millis / 10)
  | .halfLower => if morning then "a" else "p"
  | .halfLowerLong => if morning then "am" else "pm"
  | .halfUpper => if morning then "A" else "P"
  | .halfUpperLong => if morning then "AM" else "PM"
  | .zone => if offset = 0 then "UTC" else "GMT" ++ offsetDigits offset
  | .offset => offsetDigits offset
  | .ordinal => ordinalSuffix m.day.day
  | .isoWeek => toString (Calendar.isoWeek m.number)
  | .isoWeekday => toString (Calendar.weekdayFromMonday m.number)

/-- The field that a letter names when it stands `run` times in a row, and how many of them it takes. -/
def fieldOf? (letter : Char) (run : Nat) : Option (DateField × Nat) :=
  let pair (one two : DateField) : Option (DateField × Nat) := if 2 ≤ run then some (two, 2) else some (one, 1)
  let four (a b c d : DateField) : Option (DateField × Nat) :=
    if 4 ≤ run then some (d, 4) else if run = 3 then some (c, 3) else if run = 2 then some (b, 2) else some (a, 1)
  match letter with
  | 'd' => four .day .dayPadded .weekdayShort .weekday
  | 'm' => four .month .monthPadded .monthShort .monthName
  | 'y' => if 4 ≤ run then some (.year, 4) else if 2 ≤ run then some (.yearShort, 2) else none
  | 'H' => pair .hour24 .hour24Padded
  | 'h' => pair .hour12 .hour12Padded
  | 'M' => pair .minute .minutePadded
  | 's' => pair .second .secondPadded
  | 'T' => pair .halfUpper .halfUpperLong
  | 't' => pair .halfLower .halfLowerLong
  | 'l' => some (.millis, 1)
  | 'L' => some (.centis, 1)
  | 'o' => some (.offset, 1)
  | 'S' => some (.ordinal, 1)
  | 'Z' => some (.zone, 1)
  | 'W' => some (.isoWeek, 1)
  | 'N' => some (.isoWeekday, 1)
  | _ => none

/-- What stands at one place of a pattern. -/
inductive Lexeme where
  | text (cs : List Char)
  | field (f : DateField)
  deriving DecidableEq, Repr

/-- The lexeme that starts with `c`, and how many further characters it takes. -/
def lexemeAt (c : Char) (cs : List Char) : Lexeme × Nat :=
  let inner := cs.takeWhile (· != c)
  if (c = '\'' ∨ c = '"') ∧ inner.length < cs.length then (.text inner, inner.length + 1)
  else match fieldOf? c ((cs.takeWhile (· == c)).length + 1) with
    | some (f, n) => (.field f, n - 1)
    | none => (.text [c], 0)

/-- The lexemes of a text whose first `skip` characters belong to the lexeme before. -/
def lexemes (skip : Nat) : List Char → List Lexeme
  | [] => []
  | c :: cs => match skip with
    | k + 1 => lexemes k cs
    | 0 =>
      let (x, n) := lexemeAt c cs
      x :: lexemes n cs

/-- A piece of a pattern: text, or the slot of a field. -/
inductive Piece where
  | text (cs : List Char)
  | slot (index : Nat)
  deriving DecidableEq, Repr

end DatePattern

/-- A pattern in pieces. Each distinct field has one slot, so a field is worked out once however often it
    stands in the pattern. -/
structure DatePattern where
  source : String
  utc : Bool
  fields : List DateField
  pieces : List DatePattern.Piece
  deriving DecidableEq, Repr

namespace DatePattern

/-- The slot of a field among those there are, with a new one at the end if it has none. -/
def slotOf (fields : List DateField) (f : DateField) : Nat × List DateField :=
  match fields.findIdx? (· == f) with
  | some i => (i, fields)
  | none => (fields.length, fields ++ [f])

/-- Lexemes as pieces, with the fields of their slots. -/
def assemble (fields : List DateField) : List Lexeme → List DateField × List Piece
  | [] => (fields, [])
  | .text cs :: xs =>
    let (all, pieces) := assemble fields xs
    (all, .text cs :: pieces)
  | .field f :: xs =>
    let (i, fields) := slotOf fields f
    let (all, pieces) := assemble fields xs
    (all, .slot i :: pieces)

/-- The mark at the start of a pattern that reads the date in UTC. -/
def utcMark : List Char := ['U', 'T', 'C', ':']

/-- Reads a pattern. Every text is one. -/
def compile (source : String) : DatePattern :=
  let cs := source.toList
  let utc := utcMark.isPrefixOf cs
  let (fields, pieces) := assemble [] (lexemes 0 (if utc then cs.drop utcMark.length else cs))
  ⟨source, utc, fields, pieces⟩

/-- The panic of a date whose local time is beyond the calendar. -/
def beyondCalendar : Panic := ⟨"Local time out of range for `NaiveDateTime`"⟩

/-- The fields of a moment in the pattern. -/
def formatMoment (p : DatePattern) (moment : Calendar.Moment) (offset : Int) : String :=
  let values := p.fields.map (fieldText moment offset)
  String.join (p.pieces.map fun
    | .text cs => String.ofList cs
    | .slot i => values.getD i "")

/-- A date in the pattern. There is none for a local time beyond the calendar, even if the pattern shows
    nothing of it. -/
def format (p : DatePattern) (t : Timestamp) : Except Panic String :=
  let offset := if p.utc then 0 else t.offset
  if Calendar.shows t offset then .ok (p.formatMoment (.ofTimestamp t offset) offset)
  else .error beyondCalendar

end DatePattern

end LogDispatch
