import LogDispatch.Calendar
import LogDispatch.Decimal.Layout
import LogDispatch.Decimal.Reading
import LogDispatch.Json.Printer
import LogDispatch.Panic
import LogDispatch.Text.Blank
import LogDispatch.Text.Quoted

/-! Values of variables: plain data, and callables that compute a value when a template reads them. -/

namespace LogDispatch

/-- What a variable holds. A callable takes the positional arguments that a template writes; it may have
    no value for them. `identity` tells callables apart. -/
inductive Value where
  | null
  | bool (value : Bool)
  | int (value : Int)
  | float (value : Float)
  | text (value : String)
  | date (value : Timestamp)
  | callable (identity : Nat) (run : List String → Except Panic (Option Value))

instance : Inhabited Value := ⟨.null⟩

namespace Value

def isCallable : Value → Bool
  | .callable .. => true
  | _ => false

/-- Calls a callable; data is its own answer. -/
def call (v : Value) (args : List String) : Except Panic (Option Value) :=
  match v with
  | .callable _ run => run args
  | data => .ok (some data)

def display : Value → String
  | .null => "null"
  | .bool b => toString b
  | .int i => toString i
  | .float f => Decimal.plainText f
  | .text s => s
  | .date t => t.text
  | .callable .. => "[function]"

/-- The text for inspection, which names the kind of the value. -/
def inspect : Value → String
  | .null => "Null"
  | .bool b => "Bool(" ++ toString b ++ ")"
  | .int i => "Int(" ++ toString i ++ ")"
  | .float f => "Float(" ++ Decimal.plainText f ++ ")"
  | .text s => "Str(" ++ Text.quoted s ++ ")"
  | .date t => "Date(" ++ t.text ++ ")"
  | .callable .. => "Func"

/-- The value read as a number. A blank text counts as zero, a text that is no numeral as nothing. -/
def number? : Value → Option Float
  | .null => some 0.0
  | .bool b => some (if b then 1.0 else 0.0)
  | .int i => some (Decimal.ofInt i)
  | .float f => some f
  | .text s =>
    let s := Text.trim s
    if s.isEmpty then some 0.0 else (Decimal.parse? s).filter fun f => !f.isNaN
  | .date t => some (Decimal.ofInt t.millis)
  | .callable .. => none

/-- The value of a JSON value. Compounds become their compact text. -/
def ofJson : Json → Value
  | .null => .null
  | .bool b => .bool b
  | .number n => match n.toInt? with
    | some i => .int i
    | none => .float n.toFloat
  | .string s => .text s
  | compound => .text compound.canonical.text

/-- The value as JSON: callables and numbers that are not finite become null. -/
def toJson : Value → Json
  | .null => .null
  | .bool b => .bool b
  | .int i => .number (.int i)
  | .float f => if f.isFinite then .number (.real f) else .null
  | .text s => .string s
  | .date t => .string t.text
  | .callable .. => .null

/-- Equality of values of one kind. Dates are equal at the same instant, a callable only to itself. -/
def beq : Value → Value → Bool
  | .null, .null => true
  | .bool a, .bool b => a == b
  | .int a, .int b => a == b
  | .float a, .float b => a == b
  | .text a, .text b => a == b
  | .date a, .date b => a.sameInstant b
  | .callable a _, .callable b _ => a == b
  | _, _ => false

instance : BEq Value := ⟨beq⟩

end Value

end LogDispatch
