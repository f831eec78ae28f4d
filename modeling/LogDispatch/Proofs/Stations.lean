import LogDispatch.Proofs.Leases

/-! Queues of writers. Who touches the files of a store leaves the queues alone (`Still`), but to put a line at the end of
    one (`queue_send`) or to take a batch from its front (`take?_eq_some`). -/

namespace LogDispatch

namespace File.Store

/-- The lines that wait for a writer. -/
def queue (s : Store) (w : WriterId) : List Job := (s.writers[w]?.map Writer.queue).getD []

/-- The writer has a batch that is not answered for. -/
def isServing (s : Store) (w : WriterId) : Bool := (s.writers[w]?.map Writer.isServing).getD false

/-- No writer has been given a line or a batch, and none has done with one. -/
structure Still (s s' : Store) : Prop where
  queue : ∀ w, s'.queue w = s.queue w
  isServing : ∀ w, s'.isServing w = s.isServing w

section station
variable {s s' : Store} {w v : WriterId} {writer writer' : Writer} {outlet : Outlet} {job : Job} {n : Nat} {batch : List Job}

theorem getElem?_setWriter (hw : s.writers[w]? = some writer) (x : Writer) :
    (s.setWriter w x).writers[v]? = if v = w then some x else s.writers[v]? := by
  by_cases h : v = w
  · subst h
    rw [if_pos rfl]
    exact List.getElem?_set_self (List.getElem?_eq_some_iff.mp hw).1
  · rw [if_neg h]
    exact List.getElem?_set_ne (Ne.symm h)

theorem queue_eq (hw : s.writers[w]? = some writer) : s.queue w = writer.queue := by simp [queue, hw]

theorem isServing_eq (hw : s.writers[w]? = some writer) : s.isServing w = writer.isServing := by simp [isServing, hw]

theorem queue_setWriter (hw : s.writers[w]? = some writer) (x : Writer) :
    (s.setWriter w x).queue v = if v = w then x.queue else s.queue v := by
  rw [queue, getElem?_setWriter hw]
  split <;> rfl

theorem isServing_setWriter (hw : s.writers[w]? = some writer) (x : Writer) :
    (s.setWriter w x).isServing v = if v = w then x.isServing else s.isServing v := by
  rw [isServing, getElem?_setWriter hw]
  split <;> rfl

theorem Still.refl (s : Store) : Still s s := ⟨fun _ => rfl, fun _ => rfl⟩

theorem still_setWriter (hw : s.writers[w]? = some writer) (hqueue : writer'.queue = writer.queue)
    (hserving : writer'.isServing = writer.isServing) : Still s (s.setWriter w writer') := by
  constructor
  · intro v
    rw [queue_setWriter hw]
    split
    · rename_i h
      rw [h, queue_eq hw, hqueue]
    · rfl
  · intro v
    rw [isServing_setWriter hw]
    split
    · rename_i h
      rw [h, isServing_eq hw, hserving]
    · rfl

theorem still_closeWriter (w : WriterId) : Still s (s.closeWriter w) := by
  unfold closeWriter
  split
  · rename_i hw
    exact still_setWriter hw rfl rfl
  · exact .refl s

theorem still_write (w : WriterId) (batch : List Job) : Still s (s.write w batch).1 := by
  unfold write
  split
  · exact .refl s
  · rename_i writer hw
    split
    · rename_i disk sink _
      have hsame : ({ s with disk } : Store).writers[w]? = some writer := hw
      have hstill : Still _ (({ s with disk } : Store).setWriter w { writer with sink }) := still_setWriter hsame rfl rfl
      exact ⟨hstill.queue, hstill.isServing⟩
    · exact .refl s

/-- A new writer has nothing to do yet. -/
theorem still_addWriter {disk : Disk} {sink : Sink} {lock : Bool} :
    Still s ({ s with disk }.addWriter sink lock).1 := by
  have hnew : ∀ v : WriterId, (s.writers ++ [({ sink, lock } : Writer)])[v]? = s.writers[v]? ∨
      (s.writers[v]? = none ∧ (s.writers ++ [({ sink, lock } : Writer)])[v]? = some { sink, lock }) := by
    intro v
    rcases Nat.lt_trichotomy v s.writers.length with hlt | rfl | hgt
    · exact .inl (List.getElem?_append_left hlt)
    · exact .inr ⟨List.getElem?_eq_none (Nat.le_refl _), List.getElem?_concat_length⟩
    · left
      rw [List.getElem?_eq_none (Nat.le_of_lt hgt), List.getElem?_eq_none]
      rw [List.length_append]
      exact hgt
  constructor <;> intro v
  · unfold queue addWriter
    rcases hnew v with hsame | ⟨hnone, hsome⟩
    · rw [hsame]
    · rw [hnone, hsome]
      rfl
  · unfold isServing addWriter
    rcases hnew v with hsame | ⟨hnone, hsome⟩
    · rw [hsame]
    · rw [hnone, hsome]
      rfl

theorem still_create {table : Nat} {path : Path} {options : Options}
    (h : s.create table path options = .ok (.ok (s', outlet))) : Still s s' := by
  cases creates h with
  | joins => exact ⟨fun _ => rfl, fun _ => rfl⟩
  | opens | own => exact ⟨still_addWriter.queue, still_addWriter.isServing⟩

theorem still_release (outlet : Outlet) : Still s (s.release outlet).1 := by
  unfold release
  split
  · exact still_closeWriter _
  · dsimp only
    split
    · exact .refl s
    · split
      · exact ⟨fun _ => rfl, fun _ => rfl⟩
      · exact ⟨(still_closeWriter (s := s.setTable _ _) _).queue, (still_closeWriter (s := s.setTable _ _) _).isServing⟩

/-- A line goes to the end of the queue. -/
theorem queue_send (job : Job) : (s.send w job).queue v = s.queue v ++ (if v = w ∧ w < s.writers.length then [job] else []) ∧
    (s.send w job).isServing v = s.isServing v := by
  unfold send
  split
  · rename_i writer hw
    rw [queue_setWriter hw, isServing_setWriter hw]
    have hlt := (List.getElem?_eq_some_iff.mp hw).1
    by_cases h : v = w
    · subst h
      rw [if_pos rfl, if_pos rfl, if_pos ⟨rfl, hlt⟩, queue_eq hw, isServing_eq hw]
      exact ⟨rfl, rfl⟩
    · rw [if_neg h, if_neg h, if_neg fun hboth => h hboth.1, List.append_nil]
      exact ⟨rfl, rfl⟩
  · rename_i hw
    rw [if_neg fun hboth => Nat.not_le_of_lt hboth.2 (List.getElem?_eq_none_iff.mp hw), List.append_nil]
    exact ⟨rfl, rfl⟩

theorem take?_setWriter (h : s.take? w n = some (s', batch)) : ∃ writer, s.writers[w]? = some writer ∧
    (writer.isServing = false ∧ 0 < n ∧ n ≤ batchLimit ∧ n ≤ writer.queue.length) ∧ batch = writer.queue.take n ∧
      s' = s.setWriter w { writer with queue := writer.queue.drop n, isServing := true } := by
  unfold take? at h
  obtain ⟨writer, hw, h⟩ := Option.bind_eq_some_iff.mp h
  obtain ⟨⟨taken, writer'⟩, htake, h⟩ := Option.bind_eq_some_iff.mp h
  obtain ⟨rfl, rfl⟩ := Prod.mk.inj (Option.some.inj h)
  obtain ⟨hcan, htake⟩ := Option.ite_none_right_eq_some.mp htake
  obtain ⟨rfl, rfl⟩ := Prod.mk.inj (Option.some.inj htake)
  simp only [Bool.and_eq_true, Bool.not_eq_true', decide_eq_true_eq, Nat.le_min] at hcan
  obtain ⟨⟨hidle, hpos⟩, hlimit, hlength⟩ := hcan
  exact ⟨writer, hw, ⟨hidle, hpos, hlimit, hlength⟩, rfl, rfl⟩

/-- A batch is taken from the front of the queue. -/
theorem take?_eq_some (h : s.take? w n = some (s', batch)) :
    s.isServing w = false ∧ 0 < n ∧ n ≤ batchLimit ∧ n ≤ (s.queue w).length ∧ batch = (s.queue w).take n ∧
      ∀ v, s'.queue v = (if v = w then (s.queue w).drop n else s.queue v) ∧
        s'.isServing v = (if v = w then true else s.isServing v) := by
  obtain ⟨writer, hw, ⟨hidle, hpos, hlimit, hlength⟩, rfl, rfl⟩ := take?_setWriter h
  rw [queue_eq hw, isServing_eq hw]
  refine ⟨hidle, hpos, hlimit, hlength, rfl, fun v => ?_⟩
  rw [queue_setWriter hw, isServing_setWriter hw]
  exact ⟨rfl, rfl⟩

/-- As many lines can be taken as wait, up to the limit, unless a batch is under way. -/
theorem exists_take? (hidle : s.isServing w = false) (hpos : 0 < n) (hlimit : n ≤ batchLimit)
    (hqueue : n ≤ (s.queue w).length) : ∃ s', s.take? w n = some (s', (s.queue w).take n) := by
  cases hw : s.writers[w]? with
  | none =>
    simp only [queue, hw, Option.map_none, Option.getD_none, List.length_nil] at hqueue
    omega
  | some writer =>
    rw [isServing_eq hw] at hidle
    rw [queue_eq hw] at hqueue
    have hcan : (!writer.isServing && decide (0 < n) && decide (n ≤ min batchLimit writer.queue.length)) = true := by
      simp [hidle, hpos, hlimit, hqueue]
    refine ⟨s.setWriter w { writer with queue := writer.queue.drop n, isServing := true }, ?_⟩
    rw [queue_eq hw]
    simp only [take?, hw, Writer.take?, hcan, if_true, Option.bind_eq_bind, Option.bind_some]

theorem queue_rest : (s.rest w).queue v = s.queue v ∧
    (s.rest w).isServing v = (if v = w then false else s.isServing v) := by
  unfold rest
  split
  · rename_i writer hw
    rw [queue_setWriter hw, isServing_setWriter hw]
    split
    · rename_i h
      rw [h, queue_eq hw]
      exact ⟨rfl, rfl⟩
    · exact ⟨rfl, rfl⟩
  · rename_i hw
    refine ⟨rfl, ?_⟩
    split
    · rename_i h
      rw [h, isServing, hw]
      rfl
    · rfl

end station

end File.Store

end LogDispatch
