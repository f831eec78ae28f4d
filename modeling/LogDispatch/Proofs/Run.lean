import LogDispatch.Engine.Step

/-! Runs of an engine, event by event. An event begins a task or does the first action on the agenda of one
    (`step_cases`). What an action may change (`Does.frame`) and what comes after it (`Does.next`) is stated here
    once. -/

namespace LogDispatch

/-- Something the host did, with the state before it and what came of it. -/
structure Event where
  before : Engine
  op : Op
  after : Engine
  effects : List Effect

/-- The task that goes on, unless a new one begins. -/
def Op.task? : Op → Option TaskId
  | .begin _ => none
  | .advance task | .created task _ | .returned task _ => some task

/-- The action that is done, unless a new task begins. -/
def Event.action? (ev : Event) : Option Action :=
  ev.op.task?.bind fun task => ev.before.agendas[task]?.bind List.head?

namespace Engine

/-- The events that lead from one state to another. -/
inductive Run (e : Engine) : List Event → Engine → Prop
  | refl : Run e [] e
  | step {es : List Event} {e₁ e₂ : Engine} {op : Op} {effects : List Effect} :
      Run e es e₁ → e₁.step? op = some (e₂, effects) → Run e (es ++ [⟨e₁, op, e₂, effects⟩]) e₂

namespace Run
variable {e e₁ e₂ : Engine} {es es' : List Event}

theorem trans (h : Run e es e₁) (h' : Run e₁ es' e₂) : Run e (es ++ es') e₂ := by
  induction h' with
  | refl => simpa using h
  | step _ hs ih =>
    rw [← List.append_assoc]
    exact ih.step hs

theorem single {op : Op} {effects : List Effect} (h : e.step? op = some (e₁, effects)) :
    Run e [⟨e, op, e₁, effects⟩] e₁ := by
  simpa using Run.refl.step h

/-- An event in the middle of a run is a step between two runs. -/
theorem split {before after : List Event} {ev : Event} (h : Run e (before ++ ev :: after) e₁) :
    Run e before ev.before ∧ ev.before.step? ev.op = some (ev.after, ev.effects) ∧ Run ev.after after e₁ := by
  generalize heq : before ++ ev :: after = es at h
  induction h generalizing after with
  | refl => simp at heq
  | @step es e₁ e₂ op effects hr hs ih =>
    rcases List.eq_nil_or_concat after with rfl | ⟨rest, last, rfl⟩
    · obtain ⟨rfl, hev⟩ := List.append_inj' heq rfl
      obtain rfl := List.singleton_inj.mp hev
      exact ⟨hr, hs, .refl⟩
    · rw [List.concat_eq_append, ← List.cons_append, ← List.append_assoc] at heq
      obtain ⟨hes, hlast⟩ := List.append_inj' heq rfl
      obtain rfl := List.singleton_inj.mp hlast
      obtain ⟨a, b, c⟩ := ih hes
      exact ⟨a, b, by rw [List.concat_eq_append]; exact c.step hs⟩

end Run

theorem run?_append (e : Engine) (ops ops' : List Op) : e.run? (ops ++ ops') =
    (e.run? ops).bind fun r => (r.1.run? ops').map fun r' => (r'.1, r.2 ++ r'.2) := by
  induction ops generalizing e with
  | nil => cases h : e.run? ops' <;> simp [run?, h]
  | cons op ops ih =>
    simp only [List.cons_append, run?, Option.bind_eq_bind, Option.pure_def]
    cases e.step? op with
    | none => rfl
    | some r =>
      simp only [Option.bind_some, ih]
      cases r.1.run? ops with
      | none => rfl
      | some r' =>
        simp only [Option.bind_some]
        cases r'.1.run? ops' <;> simp

/-- A run is what comes of the host doing these things in a row. -/
theorem Run.run? {e e' : Engine} {es : List Event} (h : Run e es e') :
    e.run? (es.map (·.op)) = some (e', es.flatMap (·.effects)) := by
  induction h with
  | refl => rfl
  | step _ hs ih => simp [run?_append, ih, Engine.run?, hs]

/-- The state after the host did these things in a row. -/
def after (e : Engine) (ops : List Op) : Engine := ((e.run? ops).map Prod.fst).getD e

/-- The events of these things in a row. -/
def history (e : Engine) : List Op → List Event
  | [] => []
  | op :: ops => match e.step? op with
    | some (e', effects) => ⟨e, op, e', effects⟩ :: e'.history ops
    | none => []

/-- What comes first, and what comes after it. -/
theorem history_cons {e : Engine} {op : Op} {ops : List Op} (h : (e.run? (op :: ops)).isSome = true) :
    ∃ fx, e.step? op = some (e.after [op], fx) ∧ ((e.after [op]).run? ops).isSome = true ∧
      e.history (op :: ops) = ⟨e, op, e.after [op], fx⟩ :: (e.after [op]).history ops ∧
      e.after (op :: ops) = (e.after [op]).after ops := by
  obtain ⟨⟨e', fx⟩, hr⟩ := Option.isSome_iff_exists.mp h
  obtain ⟨⟨e₁, now⟩, hs, hr'⟩ := Option.bind_eq_some_iff.mp hr
  obtain ⟨⟨e₂, later⟩, hr'', hpair⟩ := Option.bind_eq_some_iff.mp hr'
  obtain ⟨rfl, -⟩ := Prod.mk.inj (Option.some.inj hpair)
  have hafter : e.after [op] = e₁ := by simp [after, run?, hs]
  rw [hafter]
  exact ⟨now, hs, by rw [hr'']; rfl, by simp only [history, hs], by simp [after, hr, hr'']⟩

theorem run_history (e : Engine) (ops : List Op) (h : (e.run? ops).isSome = true) :
    Run e (e.history ops) (e.after ops) := by
  induction ops generalizing e with
  | nil => exact .refl
  | cons op ops ih =>
    obtain ⟨fx, hs, hrest, hhistory, hafter⟩ := history_cons h
    rw [hafter, hhistory]
    exact (Run.single hs).trans (ih _ hrest)

theorem map_op_history (e : Engine) (ops : List Op) (h : (e.run? ops).isSome = true) :
    (e.history ops).map Event.op = ops := by
  induction ops generalizing e with
  | nil => rfl
  | cons op ops ih =>
    obtain ⟨fx, -, hrest, hhistory, -⟩ := history_cons h
    rw [hhistory, List.map_cons, ih _ hrest]

/-- A process on an empty disk that has the built-in transports and `kinds` of its own. -/
def plain (modules : Bool) (kinds : List String) (config : Config) : Engine :=
  start
    { transports := Factory.builtins.insertAll (kinds.map (·, .custom)), formatters := .empty, formats := .empty
      vars := .empty, role := .master, workerId := 0, surroundings := .bare, modules, terminal := false }
    { disk := { root := ⟨"/logs"⟩ } } config

/-- Two routes of the host under one tag. -/
def twins : Config :=
  { routes := some [(RouteSpec.ofTransport "a" "host").withTag "t", (RouteSpec.ofTransport "b" "host").withTag "t"] }

/-- The engine is built, and a call to both routes is accepted. -/
def untilFan : List Op :=
  [.advance 0, .advance 0, .created 0 (.ok (.ok "host")), .advance 0, .created 0 (.ok (.ok "host"))] ++
    List.replicate 4 (.advance 0) ++
    [.begin (.call { subject := .tags ["t"] (.text "up"), callback := some 7 })] ++ List.replicate 3 (.advance 1)

/-! ### What an event does -/

/-- What comes of the first action of a task, once it is off the agenda. An action that waits is done when the
    host reports. -/
inductive Does (e : Engine) (task : TaskId) : Action → Move → Prop
  | perform {a : Action} {m : Move} : e.perform? task a = some m → Does e task a m
  | created {d : Draft} {spec : RouteSpec} {plan : Draft.RoutePlan} {isReload : Bool} (result : Making String) :
      Does e task (.awaitCreate d spec plan isReload) (e.made d spec plan isReload (result.map (·.map .custom)))
  | taken {complaint : String} (panicked : Bool) :
      Does e task (.awaitOut complaint)
        { engine := e, effects := if panicked then [.print .errors complaint] else [] }
  | freed {route : String} (panicked : Bool) :
      Does e task (.awaitFree route)
        { engine := e, effects := if panicked then [.print .errors (releaseComplaint route)] else [] }

/-- What is on the agenda of a task that begins. -/
inductive Opening (e : Engine) : List Action → Prop
  | call (call : Call) (channel : ∀ c, call.channel = some c → ∃ ch, e.channels[c]? = some ch) :
      Opening e [.load call]
  | reload (config : Config) : Opening e [.lockReload, .checkReload config]
  | shutdown : Opening e [.lockReload, .close, .unlockReload, .leave, .finish .done]
  | openChannel (module : String) (shownAs : Option String) : Opening e [.register module shownAs]
  | leave : Opening e [.leave, .finish .done]
  | keep (g : Generation) (live : e.live = some g) : Opening e [.letGo g, .finish .done]
  | answer (ack : AckId) (answer : Answer) : Opening e [.answer ack answer, .finish .done]
  | serve (writer : WriterId) (batch : List File.Job) :
      Opening e [.write writer batch, .rest writer, .finish .done]

/-- Two channels that differ at most in who can still use them. -/
structure SameTable (c c' : Channel) : Prop where
  module : c'.module = c.module
  table : c'.table = c.table

/-- What the beginning of a task leaves as it is. Handles, the use of channels and the queues of files may
    change. -/
structure Calm (e e' : Engine) : Prop where
  setup : e'.setup = e.setup
  nextId : e'.nextId = e.nextId
  live : e'.live = e.live
  released : e'.released = e.released
  isClosed : e'.isClosed = e.isClosed
  metrics : e'.metrics = e.metrics
  channels : e'.channels.length = e.channels.length
  tables : ∀ (i : ChannelId) (c' : Channel), e'.channels[i]? = some c' →
    ∃ c, e.channels[i]? = some c ∧ SameTable c c'
  transports : e'.transports = e.transports
  fanOuts : e'.fanOuts = e.fanOuts
  acks : e'.acks = e.acks
  reloadLocked : e'.reloadLocked = e.reloadLocked

theorem Calm.of_handles {e : Engine} (n : Nat) (agendas : List (List Action)) (files : File.Store) :
    Calm e { e with handles := n, agendas, files } where
  setup := rfl
  nextId := rfl
  live := rfl
  released := rfl
  isClosed := rfl
  metrics := rfl
  channels := rfl
  tables _ c' h := ⟨c', h, rfl, rfl⟩
  transports := rfl
  fanOuts := rfl
  acks := rfl
  reloadLocked := rfl

theorem openChannel?_eq_some {e : Engine} {channel : ChannelId} {c : Channel}
    (h : e.openChannel? channel = some c) : e.channels[channel]? = some c :=
  (Option.filter_eq_some_iff.mp h).1

theorem begin_cases {e e' : Engine} {r : Request} (h : e.begin? r = some e') :
    ∃ agenda, Opening e agenda ∧ e'.agendas = e.agendas ++ [agenda] ∧ Calm e e' := by
  cases r with
  | call call =>
    simp only [begin?, Option.ite_none_right_eq_some, Option.some.injEq] at h
    obtain ⟨⟨-, hc⟩, rfl⟩ := h
    refine ⟨_, .call call fun c hcall => ?_, rfl, .of_handles _ _ _⟩
    rw [hcall, Option.all_some] at hc
    obtain ⟨ch, hch⟩ := Option.isSome_iff_exists.mp hc
    exact ⟨ch, openChannel?_eq_some hch⟩
  | reload config =>
    simp only [begin?, Option.ite_none_right_eq_some, Option.some.injEq] at h
    obtain ⟨-, rfl⟩ := h
    exact ⟨_, .reload config, rfl, .of_handles _ _ _⟩
  | shutdown =>
    simp only [begin?, Option.ite_none_right_eq_some, Option.some.injEq] at h
    obtain ⟨-, rfl⟩ := h
    exact ⟨_, .shutdown, rfl, .of_handles _ _ _⟩
  | openChannel module shownAs =>
    simp only [begin?, Option.ite_none_right_eq_some, Option.some.injEq] at h
    obtain ⟨-, rfl⟩ := h
    exact ⟨_, .openChannel module shownAs, rfl, .of_handles _ _ _⟩
  | closeChannel channel =>
    simp only [begin?, Option.map_eq_some_iff] at h
    obtain ⟨c, hc, rfl⟩ := h
    refine ⟨_, .leave, rfl, ⟨rfl, rfl, rfl, rfl, rfl, rfl, by simp [addTask, setChannel], fun i c' hi => ?_, rfl,
      rfl, rfl, rfl⟩⟩
    simp only [addTask, setChannel, List.getElem?_set] at hi
    split at hi
    · subst i
      split at hi
      · obtain rfl := Option.some.inj hi
        exact ⟨c, openChannel?_eq_some hc, rfl, rfl⟩
      · cases hi
    · exact ⟨c', hi, rfl, rfl⟩
  | keep =>
    simp only [begin?, Option.ite_none_right_eq_some, Option.map_eq_some_iff] at h
    obtain ⟨-, g, hg, rfl⟩ := h
    exact ⟨_, .keep g hg, rfl, .of_handles _ _ _⟩
  | leave =>
    simp only [begin?, Option.ite_none_right_eq_some, Option.some.injEq] at h
    obtain ⟨-, rfl⟩ := h
    exact ⟨_, .leave, rfl, .of_handles _ _ _⟩
  | answer ack answer =>
    simp only [begin?] at h
    split at h
    · split at h
      · cases h
      · obtain rfl := Option.some.inj h
        exact ⟨_, .answer ack answer, rfl, .of_handles _ _ _⟩
    · cases h
  | serve writer lines =>
    simp only [begin?, Option.map_eq_some_iff, Prod.exists] at h
    obtain ⟨files, batch, -, rfl⟩ := h
    exact ⟨_, .serve writer batch, rfl, .of_handles _ _ _⟩

section setAgenda
variable (e : Engine) (task : TaskId) (agenda : List Action)

@[simp] theorem setup_setAgenda : (e.setAgenda task agenda).setup = e.setup := rfl
@[simp] theorem files_setAgenda : (e.setAgenda task agenda).files = e.files := rfl
@[simp] theorem nextId_setAgenda : (e.setAgenda task agenda).nextId = e.nextId := rfl
@[simp] theorem live_setAgenda : (e.setAgenda task agenda).live = e.live := rfl
@[simp] theorem released_setAgenda : (e.setAgenda task agenda).released = e.released := rfl
@[simp] theorem handles_setAgenda : (e.setAgenda task agenda).handles = e.handles := rfl
@[simp] theorem isClosed_setAgenda : (e.setAgenda task agenda).isClosed = e.isClosed := rfl
@[simp] theorem metrics_setAgenda : (e.setAgenda task agenda).metrics = e.metrics := rfl
@[simp] theorem channels_setAgenda : (e.setAgenda task agenda).channels = e.channels := rfl
@[simp] theorem transports_setAgenda : (e.setAgenda task agenda).transports = e.transports := rfl
@[simp] theorem fanOuts_setAgenda : (e.setAgenda task agenda).fanOuts = e.fanOuts := rfl
@[simp] theorem acks_setAgenda : (e.setAgenda task agenda).acks = e.acks := rfl
@[simp] theorem reloadLocked_setAgenda : (e.setAgenda task agenda).reloadLocked = e.reloadLocked := rfl

@[simp] theorem agendas_setAgenda : (e.setAgenda task agenda).agendas = e.agendas.set task agenda := rfl

end setAgenda

@[simp] theorem setAgenda_setAgenda (e : Engine) (task : TaskId) (agenda agenda' : List Action) :
    (e.setAgenda task agenda).setAgenda task agenda' = e.setAgenda task agenda' := by
  simp [setAgenda]

theorem made_setAgenda {e : Engine} {d : Draft} {spec : RouteSpec} {plan : Draft.RoutePlan} {isReload : Bool}
    {result : Making Device} {task : TaskId} {rest : List Action} :
    (e.setAgenda task rest).made d spec plan isReload result =
      { e.made d spec plan isReload result with
        engine := (e.made d spec plan isReload result).engine.setAgenda task rest } := by
  rcases result with _ | _ | _ <;> rfl

/-- An event begins a task, or does the first action of one and puts what comes next before the rest. -/
theorem step_cases {e e' : Engine} {op : Op} {fx : List Effect} (h : e.step? op = some (e', fx)) :
    (∃ request, op = .begin request ∧ e.begin? request = some e' ∧ fx = []) ∨
    (∃ task action rest m, op.task? = some task ∧ e.agendas[task]? = some (action :: rest) ∧
      Does (e.setAgenda task rest) task action m ∧ e' = m.engine.setAgenda task (m.next ++ rest) ∧
      fx = m.effects) := by
  cases op with
  | «begin» request =>
    simp only [step?, Option.map_eq_some_iff, Prod.mk.injEq] at h
    obtain ⟨_, h, rfl, rfl⟩ := h
    exact .inl ⟨request, rfl, h, rfl⟩
  | advance task =>
    simp only [step?, advance?] at h
    split at h
    · rename_i action rest hagenda
      obtain ⟨m, hm, hp⟩ := Option.map_eq_some_iff.mp h
      obtain ⟨rfl, rfl⟩ := Prod.mk.inj hp
      exact .inr ⟨task, action, rest, m, rfl, hagenda, .perform hm, rfl, rfl⟩
    · cases h
  | created task result =>
    simp only [step?, created?] at h
    split at h
    · rename_i d spec plan isReload rest hagenda
      obtain ⟨rfl, rfl⟩ := Prod.mk.inj (Option.some.inj h)
      refine .inr ⟨task, _, rest, _, rfl, hagenda, .created result, ?_, ?_⟩
      · rw [made_setAgenda, setAgenda_setAgenda]
      · rw [made_setAgenda]
    · cases h
  | returned task panicked =>
    simp only [step?, returned?] at h
    split at h
    · rename_i complaint rest hagenda
      obtain ⟨rfl, rfl⟩ := Prod.mk.inj (Option.some.inj h)
      exact .inr ⟨task, _, rest, _, rfl, hagenda, .taken panicked, by simp, rfl⟩
    · rename_i route rest hagenda
      obtain ⟨rfl, rfl⟩ := Prod.mk.inj (Option.some.inj h)
      exact .inr ⟨task, _, rest, _, rfl, hagenda, .freed panicked, by simp, rfl⟩
    · cases h

end Engine

/-- The parts of an engine that an action may change. All others are as before. -/
def Action.Changes (a : Action) (e e' : Engine) : Prop :=
  match a with
  | .refresh .. | .register .. | .enlist _ | .recalc .. => e' = { e with channels := e'.channels }
  | .accept .. | .countUnrouted | .reject .. | .count .. | .countReload => e' = { e with metrics := e'.metrics }
  | .fan .. | .record .. | .arrive _ | .tell _ => e' = { e with fanOuts := e'.fanOuts }
  | .attempt .. | .answer .. => e' = { e with acks := e'.acks }
  | .letGo _ => e' = { e with released := e'.released }
  | .close => e' = { e with released := e'.released, isClosed := true }
  | .leave => e' = { e with handles := e'.handles, live := e'.live }
  | .free .. | .make .. | .awaitCreate .. => e' = { e with files := e'.files, transports := e'.transports }
  | .lockReload | .unlockReload => e' = { e with reloadLocked := e'.reloadLocked }
  | .build .. => e' = { e with nextId := e'.nextId }
  | .install _ => e' = { e with live := e'.live }
  | .recalcAll _ | .unlockChannels => e' = { e with channelsLocked := e'.channelsLocked }
  | .send .. | .write .. | .rest _ => e' = { e with files := e'.files }
  | .load _ | .screen .. | .select .. | .awaitOut _ | .awaitFree _ | .checkReload _ | .complain _ | .finish _ =>
    e' = e

namespace Engine
variable {e : Engine} {task : TaskId} {a : Action} {m : Move}

@[simp] theorem engine_deliver (transport : TransportId) (record : Record) (ack : AckId) (complaint : String) :
    (e.deliver task transport record ack complaint).engine = e := by
  unfold deliver
  split
  · rfl
  · rfl
  · split <;> rfl
  · rfl

theorem made_changes (d : Draft) (spec : RouteSpec) (plan : Draft.RoutePlan) (isReload : Bool)
    (result : Making Device) : (e.made d spec plan isReload result).engine =
      { e with transports := (e.made d spec plan isReload result).engine.transports } := by
  rcases result with _ | _ | _ <;> rfl

theorem makeRoute_changes (d : Draft) (spec : RouteSpec) (plan : Draft.RoutePlan) (isReload : Bool) :
    (e.makeRoute task d spec plan isReload).engine =
      { e with
        files := (e.makeRoute task d spec plan isReload).engine.files
        transports := (e.makeRoute task d spec plan isReload).engine.transports } := by
  unfold makeRoute
  split
  · rfl
  · rw [made_changes]
  · split <;> rw [made_changes]
  · rfl

theorem make_changes (d : Draft) (isReload : Bool) : (e.make task d isReload).engine =
    { e with
      files := (e.make task d isReload).engine.files
      transports := (e.make task d isReload).engine.transports } := by
  unfold make
  split
  · rfl
  · split
    · rfl
    · exact makeRoute_changes ..

/-- An action changes its own part of the engine, and nothing else. -/
theorem Does.frame (h : Does e task a m) : a.Changes e m.engine := by
  cases h with
  | created result =>
    show _ = _
    rw [made_changes]
  | taken => rfl
  | freed => rfl
  | perform h =>
    cases a <;> simp only [perform?, Option.some.injEq, reduceCtorEq] at h <;> try subst h
    case load =>
      obtain ⟨g, -, rfl⟩ := Option.map_eq_some_iff.mp h
      dsimp only [Action.Changes]
      split <;> rfl
    case lockReload =>
      obtain ⟨-, h⟩ := Option.ite_none_left_eq_some.mp h
      obtain rfl := Option.some.inj h
      rfl
    case recalcAll =>
      obtain ⟨-, h⟩ := Option.ite_none_left_eq_some.mp h
      obtain rfl := Option.some.inj h
      rfl
    case register =>
      unfold register at h
      split at h
      · obtain rfl := Option.some.inj h
        rfl
      · obtain ⟨g, -, rfl⟩ := Option.map_eq_some_iff.mp h
        rfl
    case enlist =>
      unfold enlist at h
      split at h
      · cases h
      · split at h <;> obtain rfl := Option.some.inj h <;> rfl
    case make d isReload => exact make_changes d isReload
    case attempt g fanOut d =>
      dsimp only [Action.Changes, attempt]
      split
      · rfl
      · split
        · rfl
        · rw [engine_deliver]
    case free route transport =>
      dsimp only [Action.Changes, free]
      split
      · rfl
      · split <;> rfl
    case build config isReload =>
      dsimp only [Action.Changes, build]
      split <;> rfl
    case screen call g =>
      dsimp only [Action.Changes, screen]
      split <;> rfl
    case select call g channel rank text =>
      dsimp only [Action.Changes, select]
      split
      · rfl
      · split <;> rfl
    case answer ack answer =>
      dsimp only [Action.Changes, Engine.answer]
      split
      · rfl
      · split <;> rfl
    case checkReload config =>
      dsimp only [Action.Changes, checkReload]
      split
      · rfl
      · split <;> rfl
    case close =>
      dsimp only [Action.Changes, close]
      split
      · rename_i hc
        cases e
        cases hc
        rfl
      · split
        · unfold release
          split <;> rfl
        · rfl
    case letGo g =>
      dsimp only [Action.Changes, letGo, release]
      split
      · rfl
      · split <;> rfl
    case leave =>
      dsimp only [Action.Changes, leave]
      split <;> rfl
    case refresh channel table =>
      dsimp only [Action.Changes, refresh]
      split <;> rfl
    case recalc g channel =>
      dsimp only [Action.Changes, recalc]
      split <;> rfl
    case record fanOut error =>
      dsimp only [Action.Changes, record]
      split <;> rfl
    case arrive fanOut =>
      dsimp only [Action.Changes, arrive]
      split <;> rfl
    case tell fanOut =>
      dsimp only [Action.Changes, tell]
      split <;> rfl
    all_goals rfl

theorem Does.agendas (h : Does e task a m) : m.engine.agendas = e.agendas := by
  have hf := h.frame
  cases a <;> (dsimp only [Action.Changes] at hf; rw [hf])

theorem Does.reloadLocked (h : Does e task a m) (hlock : a ≠ .lockReload) (hunlock : a ≠ .unlockReload) :
    m.engine.reloadLocked = e.reloadLocked := by
  have hf := h.frame
  cases a <;> first
    | exact absurd rfl hlock
    | exact absurd rfl hunlock
    | (dsimp only [Action.Changes] at hf; rw [hf])

/-- Seen from one task, an event leaves its agenda alone or does the first action on it. -/
theorem step_agenda {e' : Engine} {op : Op} {fx : List Effect} {agenda : List Action}
    (h : e.step? op = some (e', fx)) (ht : e.agendas[task]? = some agenda) :
    (op.task? ≠ some task ∧ e'.agendas[task]? = some agenda) ∨
    ∃ a rest m, op.task? = some task ∧ agenda = a :: rest ∧ Does (e.setAgenda task rest) task a m ∧
      e' = m.engine.setAgenda task (m.next ++ rest) ∧ fx = m.effects ∧
      e'.agendas[task]? = some (m.next ++ rest) := by
  have hlt := (List.getElem?_eq_some_iff.mp ht).1
  rcases step_cases h with ⟨request, rfl, hb, rfl⟩ | ⟨t, a, rest, m, hop, hagenda, hdoes, rfl, rfl⟩
  · obtain ⟨opening, -, hagendas, -⟩ := begin_cases hb
    exact .inl ⟨nofun, by rw [hagendas, List.getElem?_append_left hlt, ht]⟩
  · have hagendas : (m.engine.setAgenda t (m.next ++ rest)).agendas = e.agendas.set t (m.next ++ rest) := by
      simp [hdoes.agendas]
    by_cases htask : t = task
    · subst htask
      obtain rfl := Option.some.inj (ht.symm.trans hagenda)
      exact .inr ⟨a, rest, m, hop, rfl, hdoes, rfl, rfl, by rw [hagendas, List.getElem?_set_self hlt]⟩
    · refine .inl ⟨fun h => htask (Option.some.inj (hop.symm.trans h)), ?_⟩
      rw [hagendas, List.getElem?_set_ne htask, ht]

end Engine

/-! ### What comes next -/

/-- Nothing may come after the action but what was on the agenda before. -/
def Action.canEnd : Action → Bool
  | .load _ | .screen .. | .select .. | .accept .. | .fan .. | .checkReload _ | .build .. | .make ..
  | .awaitCreate .. | .recalcAll _ | .register .. => false
  | _ => true

namespace Engine
variable {e : Engine} {task : TaskId} {a : Action} {m : Move}

/-- The steps by which a fan-out takes an answer. -/
def answerSteps (fanOut : FanOutId) : Except LogError Unit → List Action
  | .ok () => [.count fanOut (.ok ()), .arrive fanOut]
  | .error error => [.count fanOut (.error error), .record fanOut error, .arrive fanOut]

/-- The actions that release the transports of some routes. -/
def frees (routes : List Route) : List Action := routes.map fun r => .free r.name r.transport

/-- What an action puts before the rest of the agenda. -/
inductive Next (e : Engine) : Action → List Action → Prop
  | nothing {a : Action} : a.canEnd = true → Next e a []
  | forbidden {call : Call} {g : Generation} :
      e.live = some g → Next e (.load call) (leaving g (.panicked noChannel))
  | load {call : Call} {g : Generation} : e.live = some g → isForbidden call g = false →
      Next e (.load call) (.screen call g :: leaving g .done)
  | screen {call : Call} {g : Generation} {a : Action} :
      e.admission call g = .ok a → Next e (.screen call g) [a]
  | reject {call : Call} {g : Generation} {error : LogError} :
      e.admission call g = .error error → Next e (.screen call g) [.reject error call.callback]
  | noChannel {call : Call} {g : Generation} {channel : ChannelId} {rank : Nat} {text : String} :
      e.channels[channel]? = none →
      Next e (.select call g channel rank text) [e.logged call g rank text []]
  | select {call : Call} {g : Generation} {channel : ChannelId} {rank : Nat} {text : String} {c : Channel}
      {table : RouteLevels} : e.channels[channel]? = some c → c.tableFor? g = some table →
      Next e (.select call g channel rank text) [e.logged call g rank text (table.select rank)]
  | stale {call : Call} {g : Generation} {channel : ChannelId} {rank : Nat} {text : String} {c : Channel} :
      e.channels[channel]? = some c →
      Next e (.select call g channel rank text)
        [.refresh channel (.compute g c.module),
          e.logged call g rank text ((RouteLevels.compute g c.module).select rank)]
  | accept {g : Generation} {deliveries : List Delivery} {callback : Option CallbackId} : deliveries ≠ [] →
      Next e (.accept g deliveries callback) [.fan g deliveries callback]
  | unrouted {g : Generation} {callback : Option CallbackId} :
      Next e (.accept g [] callback) [.countUnrouted, .fan g [] callback]
  | fan {g : Generation} {deliveries : List Delivery} {callback : Option CallbackId} : deliveries ≠ [] →
      Next e (.fan g deliveries callback) (deliveries.map (.attempt g e.fanOuts.length))
  | alone {g : Generation} {callback : Option CallbackId} : Next e (.fan g [] callback) [.tell e.fanOuts.length]
  | dropped {g : Generation} {fanOut : FanOutId} {d : Delivery} {line : String} :
      Next e (.attempt g fanOut d) [.answer e.acks.length .dropped, .complain line]
  | answered {g : Generation} {fanOut : FanOutId} {d : Delivery} {answer : Answer} :
      Next e (.attempt g fanOut d) [.answer e.acks.length answer]
  | awaitOut {g : Generation} {fanOut : FanOutId} {d : Delivery} {line : String} :
      Next e (.attempt g fanOut d) [.awaitOut line]
  | send {g : Generation} {fanOut : FanOutId} {d : Delivery} {r : Route} {outlet : File.Outlet} {writer : WriterId}
      {text : String} : g.routes[d.route]? = some r → e.device? r.transport = some (.file outlet) →
      outlet.sender? = some writer → d.text = .ok text →
      Next e (.attempt g fanOut d) [.send writer ⟨text, e.acks.length⟩]
  | answer {ack : AckId} {answer : Answer} {a : Ack} : e.acks[ack]? = some a → a.answered = false →
      Next e (.answer ack answer) (answerSteps a.fanOut (answer.result a.route))
  | tell {fanOut : FanOutId} {f : FanOut} : e.fanOuts[fanOut]? = some f → f.isLast = true →
      Next e (.arrive fanOut) [.tell fanOut]
  | letGo {g : Generation} : e.isHeld g.id = false → g.id ∉ e.released → Next e (.letGo g) (frees g.routes)
  | close {g : Generation} : e.live = some g → g.id ∉ e.released → Next e .close (frees g.routes)
  | leave {g : Generation} : e.live = some g → Next e .leave [.letGo g]
  | awaitFree {route : String} {transport : TransportId} : Next e (.free route transport) [.awaitFree route]
  | refused {config : Config} {error : LogError} :
      Next e (.checkReload config) (building true (.failed error))
  | check {config : Config} : Next e (.checkReload config) [.build config true]
  | faulty {config : Config} {isReload : Bool} {error : LogError} :
      Next e (.build config isReload) (building isReload (.failed error))
  | draft {config : Config} {isReload : Bool} {d : Draft} : Draft.ofConfig e.setup e.nextId config = .ok d →
      Next e (.build config isReload) [.make d isReload]
  | publish {d : Draft} {isReload : Bool} : d.todo = [] →
      Next e (.make d isReload) (publishing d.generation isReload)
  | awaitCreate {d : Draft} {spec : RouteSpec} {todo : List RouteSpec} {plan : Draft.RoutePlan} {isReload : Bool} :
      d.todo = spec :: todo → d.plan spec = .ok plan →
      Next e (.make d isReload) [.awaitCreate d spec plan isReload]
  | abandon {d : Draft} {isReload : Bool} {outcome : Outcome} : outcome ≠ .done →
      Next e (.make d isReload) (abandon d isReload outcome)
  | attach {d : Draft} {spec : RouteSpec} {todo : List RouteSpec} {plan : Draft.RoutePlan} {isReload : Bool} :
      d.todo = spec :: todo → d.plan spec = .ok plan → Next e (.make d isReload)
        [.make ({ d with todo := d.todo.drop 1 }.attach spec plan e.transports.length) isReload]
  | created {d : Draft} {spec : RouteSpec} {plan : Draft.RoutePlan} {isReload : Bool} :
      Next e (.awaitCreate d spec plan isReload)
        [.make ({ d with todo := d.todo.drop 1 }.attach spec plan e.transports.length) isReload]
  | notCreated {d : Draft} {spec : RouteSpec} {plan : Draft.RoutePlan} {isReload : Bool} {outcome : Outcome} :
      outcome ≠ .done → Next e (.awaitCreate d spec plan isReload) (Engine.abandon d isReload outcome)
  | install {g old : Generation} : e.live = some old → Next e (.install g) [.letGo old]
  | recalcAll {g : Generation} : Next e (.recalcAll g) (e.enlisted.map (.recalc g) ++ [.unlockChannels])
  | disabled {module : String} {shownAs : Option String} :
      Next e (.register module shownAs) [.leave, .finish (.failed .channelsDisabled)]
  | register {module : String} {shownAs : Option String} {g : Generation} : e.live = some g →
      Next e (.register module shownAs)
        [.enlist e.channels.length, .letGo g, .finish (.channel e.channels.length)]
  | write {writer : WriterId} {batch : List File.Job} {answers : List (AckId × Answer)} :
      Next e (.write writer batch) (answers.map fun a => .answer a.1 a.2)

/-- An answer counts if the acknowledgement has not been answered; then it is taken step by step. -/
theorem answer_cases (e : Engine) (ack : AckId) (answer : Answer) :
    (e.answer ack answer = { engine := e } ∧ ∀ a, e.acks[ack]? = some a → a.answered = true) ∨
    ∃ a, e.acks[ack]? = some a ∧ a.answered = false ∧ e.answer ack answer =
      { engine := { e with acks := e.acks.set ack { a with answered := true } }
        next := answerSteps a.fanOut (answer.result a.route) } := by
  cases hack : e.acks[ack]? with
  | none => exact .inl ⟨by simp only [Engine.answer, hack], nofun⟩
  | some a =>
    cases hans : a.answered with
    | true =>
      refine .inl ⟨by simp only [Engine.answer, hack, hans, if_true], fun b hb => ?_⟩
      rw [← Option.some.inj hb]
      exact hans
    | false =>
      refine .inr ⟨a, rfl, hans, ?_⟩
      simp only [Engine.answer, hack, hans, Bool.false_eq_true, if_false]
      cases answer.result a.route <;> rfl

theorem release_next (e : Engine) (g : Generation) :
    (e.release g).next = [] ∨ (g.id ∉ e.released ∧ (e.release g).next = frees g.routes) := by
  unfold release
  split
  · exact .inl rfl
  · rename_i h
    exact .inr ⟨by simpa using h, rfl⟩

theorem made_next (e : Engine) (d : Draft) (spec : RouteSpec) (plan : Draft.RoutePlan) (isReload : Bool)
    (result : Making Device) :
    (∃ outcome, outcome ≠ .done ∧ (e.made d spec plan isReload result).next = abandon d isReload outcome) ∨
      (e.made d spec plan isReload result).next =
        [.make ({ d with todo := d.todo.drop 1 }.attach spec plan e.transports.length) isReload] := by
  rcases result with panic | error | device
  · exact .inl ⟨.panicked panic, nofun, rfl⟩
  · exact .inl ⟨.failed (error.inRoute spec.title), nofun, rfl⟩
  · exact .inr rfl

theorem makeRoute_next {d : Draft} {spec : RouteSpec} {todo : List RouteSpec} {plan : Draft.RoutePlan}
    (htodo : d.todo = spec :: todo) (hplan : d.plan spec = .ok plan) (isReload : Bool) :
    Next e (.make d isReload) (e.makeRoute task d spec plan isReload).next := by
  have made : ∀ (e' : Engine) (result : Making Device), e'.transports = e.transports →
      Next e (.make d isReload) (e'.made d spec plan isReload result).next := by
    intro e' result htransports
    rcases made_next e' d spec plan isReload result with ⟨outcome, ho, h⟩ | h <;> rw [h]
    · exact .abandon ho
    · rw [htransports]
      exact .attach htodo hplan
  unfold makeRoute
  split
  · exact .abandon nofun
  · exact made e _ rfl
  · split
    · exact made e _ rfl
    · exact made e _ rfl
    · exact made _ _ rfl
  · exact .awaitCreate htodo hplan

theorem attempt_next (g : Generation) (fanOut : FanOutId) (d : Delivery) :
    Next e (.attempt g fanOut d) (e.attempt task g fanOut d).next := by
  dsimp only [attempt]
  split
  · exact .nothing rfl
  · rename_i r hr
    split
    · exact .dropped
    · rename_i text htext
      unfold deliver
      split
      · exact .nothing rfl
      · exact .answered
      · rename_i outlet hdevice
        split
        · rename_i writer hsender
          exact .send hr hdevice hsender htext
        · exact .answered
      · exact .awaitOut

theorem Does.next (h : Does e task a m) : Next e a m.next := by
  cases h with
  | created result =>
    rcases made_next e _ _ _ _ (result.map (·.map .custom)) with ⟨outcome, ho, h⟩ | h <;> rw [h]
    · exact .notCreated ho
    · exact .created
  | taken => exact .nothing rfl
  | freed => exact .nothing rfl
  | perform h =>
    cases a <;> simp only [perform?, Option.some.injEq, reduceCtorEq] at h <;> try subst h
    case load call =>
      obtain ⟨g, hg, rfl⟩ := Option.map_eq_some_iff.mp h
      split
      · exact .forbidden hg
      · rename_i hf
        exact .load hg (by simpa using hf)
    case screen call g =>
      unfold Engine.screen
      split
      · rename_i hadm
        exact .screen hadm
      · rename_i hadm
        exact .reject hadm
    case select call g channel rank text =>
      dsimp only [Engine.select]
      split
      · rename_i hc
        exact .noChannel hc
      · rename_i hc
        split
        · rename_i ht
          exact .select hc ht
        · exact .stale hc
    case accept g deliveries callback =>
      cases deliveries with
      | nil => exact .unrouted
      | cons => exact .accept nofun
    case fan g deliveries callback =>
      cases deliveries with
      | nil => exact .alone
      | cons => exact .fan nofun
    case attempt g fanOut d => exact attempt_next g fanOut d
    case answer ack answer =>
      rcases answer_cases e ack answer with ⟨heq, -⟩ | ⟨a, hack, hans, heq⟩ <;> rw [heq]
      · exact .nothing rfl
      · exact .answer hack hans
    case arrive fanOut =>
      dsimp only [Engine.arrive]
      split
      · exact .nothing rfl
      · rename_i f hf
        cases hlast : f.isLast
        · exact .nothing rfl
        · exact .tell hf hlast
    case letGo g =>
      dsimp only [Engine.letGo]
      split
      · exact .nothing rfl
      · rename_i hheld
        rcases release_next e g with h | ⟨hr, h⟩ <;> rw [h]
        · exact .nothing rfl
        · exact .letGo (by simpa using hheld) hr
    case leave =>
      dsimp only [Engine.leave]
      split
      · cases hlive : e.live with
        | none => exact .nothing rfl
        | some g => exact .leave hlive
      · exact .nothing rfl
    case free route transport =>
      dsimp only [Engine.free]
      split
      · exact .nothing rfl
      · split
        · exact .nothing rfl
        · exact .awaitFree
        · exact .nothing rfl
    case checkReload config =>
      dsimp only [Engine.checkReload]
      split
      · exact .refused
      · split
        · exact .refused
        · exact .check
    case build config isReload =>
      dsimp only [Engine.build]
      split
      · exact .faulty
      · rename_i d hd
        exact .draft hd
    case make d isReload =>
      unfold Engine.make
      split
      · rename_i htodo
        exact .publish htodo
      · rename_i htodo
        split
        · exact .abandon nofun
        · rename_i hplan
          exact makeRoute_next htodo hplan isReload
    case install g =>
      dsimp only [Engine.install]
      cases hlive : e.live with
      | none => exact .nothing rfl
      | some old => exact .install hlive
    case recalcAll g =>
      obtain ⟨-, h⟩ := Option.ite_none_left_eq_some.mp h
      obtain rfl := Option.some.inj h
      exact .recalcAll
    case close =>
      dsimp only [Engine.close]
      split
      · exact .nothing rfl
      · split
        · rename_i g hlive
          rcases release_next { e with isClosed := true } g with h | ⟨hr, h⟩ <;> rw [h]
          · exact .nothing rfl
          · exact .close hlive hr
        · exact .nothing rfl
    case register module shownAs =>
      unfold Engine.register at h
      split at h
      · obtain rfl := Option.some.inj h
        exact .disabled
      · obtain ⟨g, hg, rfl⟩ := Option.map_eq_some_iff.mp h
        exact .register hg
    case enlist channel =>
      unfold Engine.enlist at h
      split at h
      · cases h
      · split at h <;> obtain rfl := Option.some.inj h <;> exact .nothing rfl
    case lockReload =>
      obtain ⟨-, h⟩ := Option.ite_none_left_eq_some.mp h
      obtain rfl := Option.some.inj h
      exact .nothing rfl
    case write writer batch =>
      have hnext : (e.write writer batch).next =
          (batch.filterMap fun job => e.acks[job.ack]?.map fun a =>
            (job.ack, File.answerFor a.route (e.files.write writer batch).2)).map fun a => .answer a.1 a.2 := by
        simp only [Engine.write, answersFor, List.map_filterMap, Option.map_map, Function.comp_def]
      rw [hnext]
      exact .write
    case refresh channel table =>
      dsimp only [Engine.refresh]
      split <;> exact .nothing rfl
    case recalc g channel =>
      dsimp only [Engine.recalc]
      split <;> exact .nothing rfl
    case record fanOut error =>
      dsimp only [Engine.record]
      split <;> exact .nothing rfl
    case tell fanOut =>
      dsimp only [Engine.tell]
      split <;> exact .nothing rfl
    all_goals exact .nothing rfl

end Engine

end LogDispatch
