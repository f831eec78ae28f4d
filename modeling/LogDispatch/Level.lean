import LogDispatch.Error
import LogDispatch.Text.Blank
import LogDispatch.Text.Lower

/-! Severity levels, which the configuration names, and the pairs of names for policies and roles.
    The rank of a level is its place in the table, least severe first. -/

namespace LogDispatch

def defaultLevels : List String := ["debug", "info", "warn", "error", "crit"]

/-- The rank a template reads as `level#` where a record has no level. -/
def unrankedLevel : Int := -1

/-- How many ranks there are. -/
def rankCount : Nat := Nat.pow 2 64

/-- The rank after another one. Ranks go round: the least comes after the greatest. -/
def nextRank (rank : Nat) : Nat := (rank + 1) % rankCount

/-- Level names compare after trimming, in lower case. -/
def normalName (name : String) : String := Text.lower (Text.trim name)

/-- Level names in order of severity. A table built by `ofNames?` is not empty, and its names are normal
    and pairwise different. -/
structure LevelTable where
  names : List String
  deriving DecidableEq, Repr

namespace LevelTable

instance : Inhabited LevelTable := ⟨⟨defaultLevels⟩⟩

/-- Adds names to those already taken, refusing blank ones and repetitions. -/
def extend? (taken : List String) : List String → Except ConfigFault (List String)
  | [] => .ok taken
  | name :: names =>
    let normal := normalName name
    if normal = "" then .error .emptyLevelName
    else if normal ∈ taken then .error (.duplicateLevel normal)
    else extend? (taken ++ [normal]) names

/-- The table of the given names, normalised. -/
def ofNames? (names : List String) : Except ConfigFault LevelTable := do
  let normal ← extend? [] names
  if normal.isEmpty then .error .noLevels else .ok ⟨normal⟩

def size (t : LevelTable) : Nat := t.names.length

def maxRank (t : LevelTable) : Nat := t.size - 1

/-- The rank of a name in any spelling. -/
def rank? (t : LevelTable) (name : String) : Option Nat :=
  t.names.findIdx? (· == normalName name)

def name? (t : LevelTable) (rank : Nat) : Option String := t.names[rank]?

end LevelTable

/-- The level of a call, by rank or by name. -/
inductive Level where
  | rank (rank : Nat)
  | name (name : String)
  deriving DecidableEq, Repr

def Level.display : Level → String
  | .rank n => "#" ++ toString n
  | .name s => s

namespace LevelTable

/-- The rank of a level that the table knows. -/
def resolve (t : LevelTable) : Level → Except CallFault Nat
  | .rank rank => if rank < t.size then .ok rank else .error (.unknownRank rank)
  | .name name => match t.rank? name with
    | some rank => .ok rank
    | none => .error (.unknownLevel name)

/-- The rank of a level that the configuration names. -/
def configRank (t : LevelTable) (name : String) : Except ConfigFault Nat :=
  match t.rank? name with
  | some rank => .ok rank
  | none => .error (.unknownLevel name)

end LevelTable

/-- What happens to channels that no rule mentions. -/
inductive Policy where
  | everything
  | nothing
  deriving DecidableEq, Repr

instance : Inhabited Policy := ⟨.everything⟩

/-- The part a process plays in its cluster. -/
inductive Role where
  | master
  | worker
  deriving DecidableEq, Repr

instance : Inhabited Role := ⟨.master⟩

/-- The two configured names of a policy or a role. -/
structure NamePair where
  first : String
  second : String
  deriving DecidableEq, Repr

namespace NamePair

def roles : NamePair := ⟨"master", "worker"⟩

def policies : NamePair := ⟨"everything", "nothing"⟩

/-- The names of an option, trimmed; the option must have two when it is given. -/
def ofOption (option : String) (default : NamePair) : Option (List String) → Except ConfigFault NamePair
  | none => .ok default
  | some [a, b] => .ok ⟨Text.trim a, Text.trim b⟩
  | some names => .error (.notAPair option names.length)

/-- Picks by name; the first name wins when both are the same. -/
def pick? {α : Type} (p : NamePair) (a b : α) (name : String) : Option α :=
  if p.first = name then some a else if p.second = name then some b else none

end NamePair

def Policy.ofName (names : NamePair) (name : String) : Except ConfigFault Policy :=
  match names.pick? Policy.everything Policy.nothing (Text.trim name) with
  | some p => .ok p
  | none => .error (.unknownPolicy name)

/-- The role that a configuration asks for; `any` asks for none. -/
def Role.requirement (names : NamePair) (name : String) : Except ConfigFault (Option Role) :=
  let name := Text.trim name
  if name = "any" then .ok none
  else match names.pick? Role.master Role.worker name with
    | some r => .ok (some r)
    | none => .error (.unknownRole name)

def Role.nameIn (names : NamePair) : Role → String
  | .master => names.first
  | .worker => names.second

end LogDispatch
