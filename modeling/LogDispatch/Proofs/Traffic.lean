import LogDispatch.Proofs.Attempt
import LogDispatch.Proofs.Leases

/-! What events have to do with files (`traffic`). A transport is made or released, a line is queued, or a writer
    takes a batch, writes it and rests; every other event leaves files and transports as they are. -/

namespace LogDispatch

def Action.isWork : Action → Bool
  | .write .. | .rest _ => true
  | _ => false

/-- A writer works on a batch: it takes it, writes it, or rests after it. -/
def Event.isWork (ev : Event) : Bool :=
  match ev.op with
  | .begin (.serve ..) => true
  | _ => ev.action?.any Action.isWork

/-- The transport after its release. -/
def Transport.retired (t : Transport) : Transport :=
  match t.device with
  | .file outlet => ⟨.file { outlet with isReleased := true }, true⟩
  | device => ⟨device, true⟩

/-- The files after the release of a transport. -/
def File.Store.retire (s : File.Store) (t : Transport) : File.Store :=
  match t.outlet? with
  | some outlet => (s.release outlet).1
  | none => s

namespace Engine

/-- What an event does to files and transports. -/
inductive Traffic (ev : Event) : Prop
  | quiet : ev.isWork = false → (∀ route i, ev.action? = some (.free route i) → ev.before.transports[i]? = none) →
      ev.after.files = ev.before.files → ev.after.transports = ev.before.transports → Traffic ev
  | takes {w : WriterId} {n : Nat} {batch : List File.Job} : ev.op = .begin (.serve w n) →
      ev.before.files.take? w n = some (ev.after.files, batch) →
      ev.after.agendas = ev.before.agendas ++ [[.write w batch, .rest w, .finish .done]] →
      ev.after.transports = ev.before.transports → Traffic ev
  | sends {w : WriterId} {job : File.Job} : ev.action? = some (.send w job) →
      ev.after.files = ev.before.files.send w job → ev.after.transports = ev.before.transports → Traffic ev
  | writes {w : WriterId} {batch : List File.Job} : ev.action? = some (.write w batch) →
      ev.after.files = (ev.before.files.write w batch).1 → ev.after.transports = ev.before.transports → Traffic ev
  | rests {w : WriterId} : ev.action? = some (.rest w) → ev.after.files = ev.before.files.rest w →
      ev.after.transports = ev.before.transports → Traffic ev
  | makes {a : Action} {d : Draft} {device : Device} : ev.action? = some a → isMaking a = true →
      Crafts ev.before.setup ev.before.files d device ev.after.files →
      ev.after.transports = ev.before.transports ++ [({ device } : Transport)] → Traffic ev
  | frees {route : String} {i : TransportId} {t : Transport} : ev.action? = some (.free route i) →
      ev.before.transports[i]? = some t → ev.after.files = ev.before.files.retire t →
      ev.after.transports = ev.before.transports.set i t.retired → Traffic ev

section traffic
variable {e e' : Engine} {task : TaskId} {a : Action} {m : Move} {rest : List Action} {op : Op} {fx : List Effect}

theorem isWork_of_task (htask : op.task? = some task) (hagenda : e.agendas[task]? = some (a :: rest)) :
    Event.isWork ⟨e, op, e', fx⟩ = a.isWork := by
  have haction : Event.action? ⟨e, op, e', fx⟩ = some a := action?_of_task htask hagenda
  unfold Event.isWork
  split
  · rename_i hop
    dsimp only at hop
    rw [hop] at htask
    cases htask
  · rw [haction, Option.any_some]

/-- A task that begins leaves the files as they are, unless it is to write a batch. -/
theorem traffic_begin {request : Request} (h : e.begin? request = some e') : Traffic ⟨e, .begin request, e', fx⟩ := by
  have hfree : ∀ route i, Event.action? ⟨e, .begin request, e', fx⟩ = some (.free route i) → e.transports[i]? = none := by
    intro route i hfree
    cases hfree
  cases request <;>
    simp only [begin?, Option.ite_none_right_eq_some, Option.map_eq_some_iff, Option.some.injEq] at h
  case serve w n =>
    obtain ⟨⟨files, batch⟩, htake, rfl⟩ := h
    exact .takes rfl htake rfl rfl
  case answer ack answer =>
    split at h
    · split at h
      · cases h
      · obtain rfl := Option.some.inj h
        exact .quiet rfl hfree rfl rfl
    · cases h
  case closeChannel channel =>
    obtain ⟨c, -, rfl⟩ := h
    exact .quiet rfl hfree rfl rfl
  case keep =>
    obtain ⟨-, g, -, rfl⟩ := h
    exact .quiet rfl hfree rfl rfl
  all_goals
    obtain ⟨-, rfl⟩ := h
    exact .quiet rfl hfree rfl rfl

/-- Releasing a transport that there is gives its file back. -/
theorem free_files (task : TaskId) (route : String) (i : TransportId) :
    (e.transports[i]? = none ∧ (e.free task route i).engine.files = e.files ∧
        (e.free task route i).engine.transports = e.transports) ∨
      ∃ t, e.transports[i]? = some t ∧ (e.free task route i).engine.files = e.files.retire t ∧
        (e.free task route i).engine.transports = e.transports.set i t.retired := by
  dsimp only [free]
  split
  · rename_i ht
    exact .inl ⟨ht, rfl, rfl⟩
  · rename_i t ht
    refine .inr ⟨t, ht, ?_⟩
    split
    · rename_i hdevice
      simp [File.Store.retire, Transport.outlet?, Transport.retired, hdevice]
    · rename_i hdevice
      simp [File.Store.retire, Transport.outlet?, Transport.retired, hdevice]
    · rename_i outlet hdevice
      simp [File.Store.retire, Transport.outlet?, Transport.retired, hdevice]

theorem traffic_does (htask : op.task? = some task) (hagenda : e.agendas[task]? = some (a :: rest))
    (hdoes : Does (e.setAgenda task rest) task a m) :
    Traffic ⟨e, op, m.engine.setAgenda task (m.next ++ rest), fx⟩ := by
  have haction : Event.action? ⟨e, op, m.engine.setAgenda task (m.next ++ rest), fx⟩ = some a :=
    action?_of_task htask hagenda
  have hf := hdoes.frame
  have keeps : (∀ route i, a ≠ .free route i) → ∀ {e'} route i, Event.action? ⟨e, op, e', fx⟩ = some (.free route i) →
      e.transports[i]? = none := by
    intro ha e' route i h
    exact absurd (Option.some.inj ((action?_of_task htask hagenda).symm.trans h)) (ha route i)
  have making : ∀ {d : Draft} {isReload : Bool}, Makes (e.setAgenda task rest) d isReload m.engine m.next →
      isMaking a = true → Traffic ⟨e, op, m.engine.setAgenda task (m.next ++ rest), fx⟩ := by
    intro d isReload hmakes hmaking
    have hidle : ∀ {e'}, Event.isWork ⟨e, op, e', fx⟩ = false := by
      intro e'
      rw [isWork_of_task htask hagenda]
      cases a <;> first | rfl | cases hmaking
    generalize m.engine = e', m.next = next at hmakes haction ⊢
    cases hmakes with
    | publish | abandon | await =>
      exact .quiet hidle (keeps fun _ _ heq => by rw [heq] at hmaking; cases hmaking) rfl rfl
    | attach hcrafts => exact .makes haction hmaking hcrafts rfl
  cases a
  case send w job =>
    cases hdoes with
    | perform h =>
      obtain rfl := Option.some.inj h
      exact .sends haction rfl rfl
  case free route i =>
    cases hdoes with
    | perform h =>
      obtain rfl := Option.some.inj h
      rcases (e.setAgenda task rest).free_files task route i with ⟨hnone, hfiles, htransports⟩ |
        ⟨t, ht, hfiles, htransports⟩
      · refine .quiet (isWork_of_task htask hagenda) (fun route' i' h => ?_) hfiles htransports
        obtain ⟨-, rfl⟩ := Action.free.inj (Option.some.inj (haction.symm.trans h))
        exact hnone
      · exact .frees haction ht hfiles htransports
  case make d isReload => exact making (makes_make hdoes) rfl
  case awaitCreate d spec plan isReload => exact making (makes_awaitCreate hdoes) rfl
  case write w batch =>
    cases hdoes with
    | perform h =>
      obtain rfl := Option.some.inj h
      exact .writes haction rfl rfl
  case rest w =>
    cases hdoes with
    | perform h =>
      obtain rfl := Option.some.inj h
      exact .rests haction rfl rfl
  all_goals
    dsimp only [Action.Changes] at hf
    exact .quiet (isWork_of_task htask hagenda) (keeps nofun) (congrArg Engine.files hf :)
      (congrArg Engine.transports hf :)

/-- What an event has to do with files. -/
theorem traffic (h : e.step? op = some (e', fx)) : Traffic ⟨e, op, e', fx⟩ := by
  rcases step_cases h with ⟨request, rfl, hb, -⟩ | ⟨task, a, rest, m, htask, hagenda, hdoes, rfl, -⟩
  · exact traffic_begin hb
  · exact traffic_does htask hagenda hdoes

end traffic

end Engine

end LogDispatch
