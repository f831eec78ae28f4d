import LogDispatch.Pattern.Date
import LogDispatch.Text.Split

/-! The tokens of date patterns, what a pattern says when it is read from left to right, and patterns for given texts. -/

namespace LogDispatch.DatePattern

/-- The tokens, each with the field that it names. -/
def tokens : List (String × DateField) :=
  [("d", .day), ("dd", .dayPadded), ("ddd", .weekdayShort), ("dddd", .weekday),
    ("m", .month), ("mm", .monthPadded), ("mmm", .monthShort), ("mmmm", .monthName),
    ("yy", .yearShort), ("yyyy", .year),
    ("h", .hour12), ("hh", .hour12Padded), ("H", .hour24), ("HH", .hour24Padded),
    ("M", .minute), ("MM", .minutePadded), ("s", .second), ("ss", .secondPadded),
    ("l", .millis), ("L", .centis),
    ("t", .halfLower), ("tt", .halfLowerLong), ("T", .halfUpper), ("TT", .halfUpperLong),
    ("Z", .zone), ("o", .offset), ("S", .ordinal), ("W", .isoWeek), ("N", .isoWeekday)]

/-- Some text between two quotes of one kind stands at the start. -/
def StartsQuoted (cs : List Char) : Prop :=
  ∃ quote run rest, (quote = '\'' ∨ quote = '"') ∧ quote ∉ run ∧ cs = quote :: (run ++ quote :: rest)

/-- The token stands at the start, and no longer one does. -/
structure IsLongest (token : String) (f : DateField) (cs : List Char) : Prop where
  mem : (token, f) ∈ tokens
  starts : token.toList <+: cs
  longest : ∀ entry ∈ tokens, entry.1.toList <+: cs → entry.1.length ≤ token.length

/-- What a pattern says of a moment: a quoted run says itself without its quotes, a token its field, and any other
    character itself. Quotes go before tokens, and longer tokens before shorter ones. -/
inductive Says (m : Calendar.Moment) (offset : Int) : List Char → List Char → Prop
  | nil : Says m offset [] []
  | quoted {quote : Char} {run rest text : List Char} (hquote : quote = '\'' ∨ quote = '"') (hrun : quote ∉ run)
      (hrest : Says m offset rest text) : Says m offset (quote :: (run ++ quote :: rest)) (run ++ text)
  | token {token : String} {f : DateField} {rest text : List Char} (hquoted : ¬StartsQuoted (token.toList ++ rest))
      (htoken : IsLongest token f (token.toList ++ rest)) (hrest : Says m offset rest text) :
      Says m offset (token.toList ++ rest) ((fieldText m offset f).toList ++ text)
  | plain {c : Char} {cs text : List Char} (hquoted : ¬StartsQuoted (c :: cs))
      (htoken : ∀ entry ∈ tokens, ¬entry.1.toList <+: c :: cs) (hrest : Says m offset cs text) :
      Says m offset (c :: cs) (c :: text)

/-- The offset at which a pattern reads a date, and what it then says of it: with the mark for UTC at its start none. -/
inductive ReadsAt (t : Timestamp) : List Char → Int → List Char → Prop
  | utc (body : List Char) : ReadsAt t (utcMark ++ body) 0 body
  | here {body : List Char} (h : ¬utcMark <+: body) : ReadsAt t body t.offset body

/-- A text without single quotes, in single quotes. -/
def quoteRun (run : List Char) : List Char := if run = [] then [] else '\'' :: (run ++ ['\''])

/-- A pattern for a text: the runs without single quotes in single quotes, and each single quote in double quotes. -/
def ofText (text : String) : String :=
  String.ofList (['"', '\'', '"'].intercalate ((Text.splitAll '\'' text.toList).map quoteRun))

example : ofText "it's 'UTC:'" = "'it'\"'\"'s '\"'\"'UTC:'\"'\"" := by decide

end LogDispatch.DatePattern
