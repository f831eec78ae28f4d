/-! The value of written digits. Digits are gathered in groups, and groups of like size are put together, so
    that a long numeral takes few operations on large numbers. Main statement: the groups do not change the
    value. -/

namespace LogDispatch.Decimal

def digitValue (c : Char) : Nat := c.toNat - '0'.toNat

/-- The value of some digits, and the power of ten that makes room for them. -/
structure DigitGroup where
  value : Nat
  scale : Nat

namespace DigitGroup

def append (g h : DigitGroup) : DigitGroup := ⟨g.value * h.scale + h.value, g.scale * h.scale⟩

def push (g : DigitGroup) (c : Char) : DigitGroup := ⟨10 * g.value + digitValue c, 10 * g.scale⟩

/-- The value of groups, the last digits first, with `h` after them. -/
def valueOf : List DigitGroup → DigitGroup → Nat
  | [], h => h.value
  | g :: gs, h => valueOf gs (g.append h)

/-- Puts a group after others and takes up those that are not larger than it. -/
def settle : List DigitGroup → DigitGroup → List DigitGroup
  | [], h => [h]
  | g :: gs, h => if g.scale ≤ h.scale then settle gs (g.append h) else h :: g :: gs

theorem append_push (g h : DigitGroup) (c : Char) : g.append (h.push c) = (g.append h).push c := by
  have value : g.value * (10 * h.scale) = 10 * (g.value * h.scale) := Nat.mul_left_comm ..
  have scale : g.scale * (10 * h.scale) = 10 * (g.scale * h.scale) := Nat.mul_left_comm ..
  simp only [append, push, value, scale, mk.injEq, and_true]
  omega

theorem valueOf_push (gs : List DigitGroup) (h : DigitGroup) (c : Char) :
    valueOf gs (h.push c) = 10 * valueOf gs h + digitValue c := by
  induction gs generalizing h with
  | nil => rfl
  | cons g gs ih => rw [valueOf, append_push, ih, valueOf]

theorem valueOf_settle (gs : List DigitGroup) (h : DigitGroup) :
    valueOf (settle gs h) ⟨0, 1⟩ = valueOf gs h := by
  have alone (h : DigitGroup) : h.append ⟨0, 1⟩ = h := by simp [append]
  induction gs generalizing h with
  | nil => rw [settle, valueOf, valueOf, alone, valueOf]
  | cons g gs ih =>
    rw [settle]
    split
    · rw [ih, valueOf]
    · rw [valueOf, alone]

end DigitGroup

/-- Digits read so far: finished groups, the last digits first, and the group at hand. -/
structure DigitRun where
  finished : List DigitGroup
  current : DigitGroup

namespace DigitRun

/-- A group is finished when its power of ten has come to this one. -/
def fullScale : Nat := Nat.pow 10 256

def value (r : DigitRun) : Nat := DigitGroup.valueOf r.finished r.current

def push (r : DigitRun) (c : Char) : DigitRun :=
  let current := r.current.push c
  if fullScale ≤ current.scale then ⟨DigitGroup.settle r.finished current, ⟨0, 1⟩⟩
  else ⟨r.finished, current⟩

theorem value_push (r : DigitRun) (c : Char) : (r.push c).value = 10 * r.value + digitValue c := by
  dsimp only [push]
  split
  · rw [value, DigitGroup.valueOf_settle, DigitGroup.valueOf_push, value]
  · rw [value, DigitGroup.valueOf_push, value]

theorem value_foldl_push (ds : List Char) (r : DigitRun) :
    (ds.foldl push r).value = ds.foldl (fun n c => 10 * n + digitValue c) r.value := by
  induction ds generalizing r with
  | nil => rfl
  | cons c cs ih => rw [List.foldl_cons, List.foldl_cons, ih, value_push]

end DigitRun

/-- The value of ASCII digits read from left to right, after `seed`. -/
def digitsValue (seed : Nat) (ds : List Char) : Nat := (ds.foldl DigitRun.push ⟨[], ⟨seed, 1⟩⟩).value

/-- Each digit multiplies what stands before it by ten. -/
theorem digitsValue_eq_foldl (seed : Nat) (ds : List Char) :
    digitsValue seed ds = ds.foldl (fun n c => 10 * n + digitValue c) seed :=
  DigitRun.value_foldl_push ds ⟨[], ⟨seed, 1⟩⟩

end LogDispatch.Decimal
