import LogDispatch.Json
import LogDispatch.Decimal.Layout

/-! The compact text of a JSON value. -/

namespace LogDispatch.Json

/-- One character inside a string literal: only quotes, backslashes and control characters are escaped. -/
def escapedChar (c : Char) : List Char :=
  if c = '"' ∨ c = '\\' then ['\\', c]
  else if c = '\n' then ['\\', 'n']
  else if c = '\r' then ['\\', 'r']
  else if c = '\t' then ['\\', 't']
  else if c = Char.ofNat 8 then ['\\', 'b']
  else if c = Char.ofNat 12 then ['\\', 'f']
  else if c.toNat < 32 then
    ['\\', 'u', '0', '0', Nat.digitChar (c.toNat / 16), Nat.digitChar (c.toNat % 16)]
  else [c]

def literal (s : String) : String := String.ofList ('"' :: s.toList.flatMap escapedChar ++ ['"'])

/-- A number; doubles that are not finite have no numeral and become `null`. -/
def Number.text : Number → String
  | .int i => toString i
  | .real f => (Decimal.compactText? f).getD "null"

mutual

/-- The compact text: no blanks, members in the order of the value. -/
def text : Json → String
  | .null => "null"
  | .bool true => "true"
  | .bool false => "false"
  | .number n => n.text
  | .string s => literal s
  | .array items => "[" ++ itemsText items ++ "]"
  | .object members => "\x7b" ++ membersText members ++ "\x7d"

def itemsText : List Json → String
  | [] => ""
  | [j] => text j
  | j :: js => text j ++ "," ++ itemsText js

def membersText : List (String × Json) → String
  | [] => ""
  | [(k, j)] => literal k ++ ":" ++ text j
  | (k, j) :: ms => literal k ++ ":" ++ text j ++ "," ++ membersText ms

end

end LogDispatch.Json
