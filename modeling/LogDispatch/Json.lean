import LogDispatch.Decimal.Binary
import LogDispatch.Dict.Sorted

/-! JSON values. -/

namespace LogDispatch

namespace Json

/-- A number is an integer of at most 64 bits or a double. -/
inductive Number where
  | int (value : Int)
  | real (value : Float)

/-- Numbers of one kind compare by value. -/
def Number.beq : Number → Number → Bool
  | .int a, .int b => a == b
  | .real a, .real b => a == b
  | _, _ => false

instance : BEq Number := ⟨Number.beq⟩

def Number.toFloat : Number → Float
  | .int i => Decimal.ofInt i
  | .real f => f

/-- The number as an integer of 64 bits with sign. -/
def Number.toInt? : Number → Option Int
  | .int i => if -(Nat.pow 2 63 : Int) ≤ i ∧ i < (Nat.pow 2 63 : Int) then some i else none
  | .real _ => none

/-- The number as an integer that is not negative. -/
def Number.toNat? : Number → Option Nat
  | .int i => if 0 ≤ i then some i.toNat else none
  | .real _ => none

end Json

/-- A JSON value. The members of an object keep the order in which they are given. -/
inductive Json where
  | null
  | bool (value : Bool)
  | number (value : Json.Number)
  | string (value : String)
  | array (items : List Json)
  | object (members : List (String × Json))

instance : Inhabited Json := ⟨.null⟩

namespace Json

mutual

def beq : Json → Json → Bool
  | .null, .null => true
  | .bool a, .bool b => a == b
  | .number a, .number b => a == b
  | .string a, .string b => a == b
  | .array a, .array b => beqItems a b
  | .object a, .object b => beqMembers a b
  | _, _ => false

def beqItems : List Json → List Json → Bool
  | [], [] => true
  | a :: as, b :: bs => beq a b && beqItems as bs
  | _, _ => false

def beqMembers : List (String × Json) → List (String × Json) → Bool
  | [], [] => true
  | (k, a) :: as, (l, b) :: bs => k == l && beq a b && beqMembers as bs
  | _, _ => false

end

instance : BEq Json := ⟨beq⟩

mutual

/-- The value with the members of every object in byte order of their names, the last of each name. -/
def canonical : Json → Json
  | .array items => .array (canonicalItems items)
  | .object members => .object (canonicalMembers members []).entries
  | j => j

def canonicalItems : List Json → List Json
  | [] => []
  | j :: js => canonical j :: canonicalItems js

/-- Puts the members, each in canonical form, after those of `done`. -/
def canonicalMembers : List (String × Json) → List (String × Json) → SortedDict Json
  | [], done => SortedDict.ofList done.reverse
  | (k, j) :: ms, done => canonicalMembers ms ((k, canonical j) :: done)

end

/-- The member of an object: the last one of that name. -/
def member? (j : Json) (name : String) : Option Json :=
  match j with
  | .object members => (members.reverse.find? (·.1 == name)).map (·.2)
  | _ => none

def string? : Json → Option String
  | .string s => some s
  | _ => none

def bool? : Json → Option Bool
  | .bool b => some b
  | _ => none

def items? : Json → Option (List Json)
  | .array items => some items
  | _ => none

def members? : Json → Option (List (String × Json))
  | .object members => some members
  | _ => none

end Json

end LogDispatch
