import LogDispatch.Error
import LogDispatch.Value

/-! Messages of log calls and the text that templates read as `msg`. -/

namespace LogDispatch

inductive Message where
  | text (text : String)
  /-- The first argument, when it is a text, holds directives that the others fill in. -/
  | format (args : List Value)
  /-- An error and the causes below it, nearest first. -/
  | error (summary : String) (causes : List String)
  /-- The text for inspection of some value. -/
  | inspect (text : String)

namespace Message

def ofValue (v : Value) : Message := .inspect v.inspect

/-- The inspected text of a list of values. -/
def ofValues (vs : List Value) : Message := .inspect (Text.bracketed (vs.map Value.inspect))

/-- An argument as an object shows it: texts stand in single quotes. -/
def objectText : Value → String
  | .text s => "'" ++ s ++ "'"
  | v => v.display

/-- The part of a number before its point, toward zero and with the number's sign. -/
def truncated (f : Float) : Float :=
  match Decimal.Binary.ofFloat f with
  | .finite negative m e => if e < 0 then Decimal.nearest negative (m / Nat.pow 2 (-e).toNat) 1 else f
  | _ => f

/-- An argument as a number, or `NaN` when it is none. -/
def numberText (whole : Bool) (v : Value) : String :=
  match v.number? with
  | some f => Decimal.plainText (if whole then truncated f else f)
  | none => "NaN"

inductive Directive where
  | text
  | number
  | whole
  | json
  | object
  deriving DecidableEq, Repr

def Directive.ofChar? : Char → Option Directive
  | 's' => some .text
  | 'd' | 'f' => some .number
  | 'i' => some .whole
  | 'j' => some .json
  | 'o' | 'O' => some .object
  | _ => none

/-- What a directive makes of an argument. -/
def Directive.show : Directive → Value → String
  | .text, v => v.display
  | .number, v => numberText false v
  | .whole, v => numberText true v
  | .json, v => v.toJson.text
  | .object, v => objectText v

/-- Arguments that no directive took: each after a blank. -/
def leftovers : List Value → List Char
  | [] => []
  | v :: vs =>
    let text := match v with
      | .text s => s
      | other => other.display
    ' ' :: text.toList ++ leftovers vs

/-- Fills arguments into a text. `%%` is a percent sign; a directive without an argument, and any other
    percent sign, stays as it is. -/
def fill : List Char → List Value → List Char
  | '%' :: '%' :: cs, args => '%' :: fill cs args
  | '%' :: d :: cs, args =>
    match Directive.ofChar? d, args with
    | some dir, v :: vs => (dir.show v).toList ++ fill cs vs
    | some _, [] => '%' :: d :: fill cs []
    | none, args => '%' :: fill (d :: cs) args
  | c :: cs, args => c :: fill cs args
  | [], args => leftovers args

/-- The text of an argument list. Without a leading text the arguments are shown as objects. -/
def argumentsText : List Value → String
  | .text s :: args => String.ofList (fill s.toList args)
  | args => Text.join " " (args.map objectText)

/-- The text of a message; an empty argument list has none. -/
def render : Message → Except CallFault String
  | .text s => .ok s
  | .format [] => .error .noArguments
  | .format args => .ok (argumentsText args)
  | .error summary causes =>
    .ok ("<Error object>: " ++ summary ++ String.join (causes.map ("\n\t\tcaused by: " ++ ·)))
  | .inspect s => .ok s

end Message

end LogDispatch
