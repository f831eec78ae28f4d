import LogDispatch.Proofs.Agenda
import Mathlib.Algebra.BigOperators.Group.List.Basic
import Mathlib.Algebra.Order.BigOperators.Group.List
import Mathlib.Algebra.Order.Group.Nat

/-! Sums of weights, over agendas above all. Doing an action takes its weight off and puts on that of what comes next,
    whatever other tasks do; laws of conservation are stated by such sums. -/

namespace LogDispatch.Engine

variable {M : Type} [AddCommMonoid M]

/-- What the entries of a list weigh together: the actions of an agenda, for example. -/
def weigh {α : Type} (w : α → M) (xs : List α) : M := (xs.map w).sum

/-- What the actions of all agendas weigh together. -/
def tally (w : Action → M) (e : Engine) : M := weigh (weigh w) e.agendas

section weigh
variable {α : Type}

@[simp] theorem weigh_nil (w : α → M) : weigh w [] = 0 := rfl

@[simp] theorem weigh_cons (w : α → M) (x : α) (xs : List α) : weigh w (x :: xs) = w x + weigh w xs := by
  simp [weigh]

@[simp] theorem weigh_append (w : α → M) (xs ys : List α) : weigh w (xs ++ ys) = weigh w xs + weigh w ys := by
  simp [weigh]

theorem weigh_eq_zero {w : α → M} {xs : List α} (h : ∀ x ∈ xs, w x = 0) : weigh w xs = 0 := by
  induction xs with
  | nil => rfl
  | cons x xs ih => rw [weigh_cons, h x List.mem_cons_self, ih fun y hy => h y (List.mem_cons_of_mem x hy), add_zero]

theorem le_weigh [PartialOrder M] [IsOrderedAddMonoid M] [CanonicallyOrderedAdd M] {w : α → M} {x : α} {xs : List α}
    (h : x ∈ xs) : w x ≤ weigh w xs :=
  List.single_le_sum (fun _ _ => zero_le) _ (List.mem_map_of_mem h)

end weigh

/-- The others add up to the same whatever stands in one place. -/
theorem exists_sum_set {xs : List M} {i : Nat} {x : M} (h : xs[i]? = some x) :
    ∃ others, xs.sum = x + others ∧ ∀ y, (xs.set i y).sum = y + others := by
  induction xs generalizing i with
  | nil => cases h
  | cons z zs ih =>
    cases i with
    | zero =>
      obtain rfl := Option.some.inj h
      exact ⟨zs.sum, List.sum_cons, fun y => List.sum_cons⟩
    | succ i =>
      obtain ⟨others, hsum, hset⟩ := ih h
      refine ⟨z + others, ?_, fun y => ?_⟩
      · rw [List.sum_cons, hsum, add_left_comm]
      · rw [List.set_cons_succ, List.sum_cons, hset, add_left_comm]

variable {e e' : Engine} {task : TaskId} {a : Action} {m : Move} {rest : List Action}

theorem tally_eq_zero {w : Action → M} (h : ∀ agenda ∈ e.agendas, ∀ a ∈ agenda, w a = 0) : tally w e = 0 :=
  weigh_eq_zero fun agenda hagenda => weigh_eq_zero (h agenda hagenda)

/-- A task that begins adds what is on its agenda. -/
theorem tally_begin (w : Action → M) {opening : List Action} (h : e'.agendas = e.agendas ++ [opening]) :
    tally w e' = tally w e + weigh w opening := by
  simp [tally, h]

/-- An action that is done goes off the balance, and what comes next goes on. -/
theorem tally_does (w : Action → M) (hagenda : e.agendas[task]? = some (a :: rest))
    (hdoes : Does (e.setAgenda task rest) task a m) :
    tally w (m.engine.setAgenda task (m.next ++ rest)) + w a = tally w e + weigh w m.next := by
  obtain ⟨others, hsum, hset⟩ := exists_sum_set
    (show (e.agendas.map (weigh w))[task]? = some (weigh w (a :: rest)) by
      rw [List.getElem?_map, hagenda, Option.map_some])
  have hagendas : (m.engine.setAgenda task (m.next ++ rest)).agendas = e.agendas.set task (m.next ++ rest) := by
    simp [hdoes.agendas]
  rw [tally, tally, weigh, weigh, hagendas, List.map_set, hset, hsum, weigh_append, weigh_cons]
  ac_rfl

/-- An action that is still to be done is on the balance. -/
theorem le_tally [PartialOrder M] [IsOrderedAddMonoid M] [CanonicallyOrderedAdd M] {w : Action → M}
    {agenda : List Action} (hagenda : agenda ∈ e.agendas) (ha : a ∈ agenda) : w a ≤ tally w e :=
  le_trans (le_weigh ha) (le_weigh hagenda)

end LogDispatch.Engine
