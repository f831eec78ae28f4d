import LogDispatch.Proofs.Lineage

/-! Fan-outs and the answers to them: what the events of a run are about (`replies`, `counted`, `recorded`,
    `tellings`), what an action does to fan-outs and acknowledgements, and that both are known by numbers
    (`Numbered`). -/

namespace LogDispatch

/-- The first answer of a route to a call. -/
structure Reply where
  ack : AckId
  route : String
  answer : Answer

def Reply.result (r : Reply) : Except LogError Unit := r.answer.result r.route

/-- The error of an answer, if it is one of failure. -/
def Reply.error? (r : Reply) : Option LogError :=
  match r.result with
  | .ok () => none
  | .error error => some error

/-- The fan-out still waits for the answer. -/
def Ack.awaits (k : FanOutId) (a : Ack) : Bool := a.fanOut == k && !a.answered

/-- The fan-out that an action is a step of. -/
def Action.fanOut? : Action → Option FanOutId
  | .attempt _ k _ | .count k _ | .record k _ | .arrive k | .tell k => some k
  | _ => none

namespace Event
variable (k : FanOutId) (ev : Event)

/-- The answer to a fan-out that an event is, if it is the first of its acknowledgement. -/
def reply? : Option Reply :=
  match ev.action? with
  | some (.answer ack answer) => match ev.before.acks[ack]? with
    | some a => if a.awaits k then some ⟨ack, a.route, answer⟩ else none
    | none => none
  | _ => none

def counted? : Option (Except LogError Unit) :=
  match ev.action? with
  | some (.count j result) => if j = k then some result else none
  | _ => none

def recorded? : Option LogError :=
  match ev.action? with
  | some (.record j error) => if j = k then some error else none
  | _ => none

/-- The event tells the callback of the fan-out. -/
def tells : Bool :=
  match ev.action? with
  | some (.tell j) => j == k
  | _ => false

end Event

/-- The answers to a fan-out, in the order they came. -/
def replies (k : FanOutId) (es : List Event) : List Reply := es.filterMap (Event.reply? k)

/-- The answers that the counters have counted. -/
def counted (k : FanOutId) (es : List Event) : List (Except LogError Unit) := es.filterMap (Event.counted? k)

/-- The errors in the order they were recorded. -/
def recorded (k : FanOutId) (es : List Event) : List LogError := es.filterMap (Event.recorded? k)

/-- How often the callback was told. -/
def tellings (k : FanOutId) (es : List Event) : Nat := es.countP (Event.tells k)

namespace Engine

/-! ### Numbers of fan-outs -/

/-- Actions and acknowledgements name fan-outs that have begun. -/
structure Numbered (e : Engine) : Prop where
  actions : ∀ agenda ∈ e.agendas, ∀ a ∈ agenda, ∀ k, a.fanOut? = some k → k < e.fanOuts.length
  acks : ∀ x ∈ e.acks, x.fanOut < e.fanOuts.length

section does
variable {e e' : Engine} {task : TaskId} {a : Action} {m : Move} {k : FanOutId} {f : FanOut}

theorem Does.acks (h : Does e task a m) :
    m.engine.acks = e.acks ∨
    (∃ g k d route, a = .attempt g k d ∧ g.routes[d.route]? = some route ∧
      m.engine.acks = e.acks ++ [⟨route.name, k, false⟩]) ∨
    ∃ i answer x, a = .answer i answer ∧ e.acks[i]? = some x ∧ x.answered = false ∧
      m.engine.acks = e.acks.set i { x with answered := true } := by
  have hf := h.frame
  cases a
  case attempt g k d =>
    cases h with
    | perform h =>
      obtain rfl := Option.some.inj h
      cases hroute : g.routes[d.route]? with
      | none => exact .inl (by simp only [attempt, hroute])
      | some route =>
        refine .inr (.inl ⟨g, k, d, route, rfl, hroute, ?_⟩)
        simp only [attempt, hroute]
        split
        · rfl
        · rw [engine_deliver]
  case answer i answer =>
    cases h with
    | perform h =>
      obtain rfl := Option.some.inj h
      rcases answer_cases e i answer with ⟨heq, -⟩ | ⟨x, hx, hopen, heq⟩ <;> rw [heq]
      · exact .inl rfl
      · exact .inr (.inr ⟨i, answer, x, rfl, hx, hopen, rfl⟩)
  all_goals
    dsimp only [Action.Changes] at hf
    exact .inl (congrArg Engine.acks hf :)

theorem does_answer {i : AckId} {answer : Answer} {x : Ack} (hx : e.acks[i]? = some x) (hopen : x.answered = false)
    (h : Does e task (.answer i answer) m) :
    m.engine.acks = e.acks.set i { x with answered := true } ∧ m.next = answerSteps x.fanOut (answer.result x.route) := by
  cases h with
  | perform h =>
    obtain rfl := Option.some.inj h
    rcases answer_cases e i answer with ⟨-, hall⟩ | ⟨x', hx', -, heq⟩
    · rw [hall x hx] at hopen
      cases hopen
    · obtain rfl := Option.some.inj (hx.symm.trans hx')
      rw [heq]
      exact ⟨rfl, rfl⟩

theorem does_attempt {g : Generation} {d : Delivery} {route : Route} (hroute : g.routes[d.route]? = some route)
    (h : Does e task (.attempt g k d) m) : m.engine.acks = e.acks ++ [⟨route.name, k, false⟩] := by
  cases h with
  | perform h =>
    obtain rfl := Option.some.inj h
    simp only [attempt, hroute]
    split
    · rfl
    · rw [engine_deliver]

/-- An attempt at a file takes a sender, and nothing is queued yet. -/
theorem does_attempt_file {g : Generation} {d : Delivery} {route : Route} {outlet : File.Outlet} {w : WriterId}
    {text : String} (hroute : g.routes[d.route]? = some route) (hdevice : e.device? route.transport = some (.file outlet))
    (hsender : outlet.sender? = some w) (htext : d.text = .ok text) (h : Does e task (.attempt g k d) m) :
    m.next = [.send w ⟨text, e.acks.length⟩] ∧ m.engine.files = e.files := by
  cases h with
  | perform h =>
    obtain rfl := Option.some.inj h
    have hsame : ∀ acks, ({ e with acks } : Engine).device? route.transport = some (.file outlet) := fun _ => hdevice
    simp only [attempt, hroute, htext, deliver, hsame, hsender]
    exact ⟨rfl, trivial⟩

theorem does_count {result : Except LogError Unit} (h : Does e task (.count k result) m) : m = e.count result := by
  cases h with
  | perform h => exact (Option.some.inj h).symm

theorem does_record {error : LogError} (hf : e.fanOuts[k]? = some f) (h : Does e task (.record k error) m) :
    m = { engine := e.setFanOut k (f.record error) } := by
  cases h with
  | perform h =>
    obtain rfl := Option.some.inj h
    simp only [Engine.record, hf]

theorem does_arrive (hf : e.fanOuts[k]? = some f) (h : Does e task (.arrive k) m) :
    m = { engine := e.setFanOut k f.arrive, next := if f.isLast then [.tell k] else [] } := by
  cases h with
  | perform h =>
    obtain rfl := Option.some.inj h
    simp only [Engine.arrive, hf]

theorem does_tell (hf : e.fanOuts[k]? = some f) (h : Does e task (.tell k) m) :
    m = { engine := e.setFanOut k f.finish, effects := f.completion?.toList.map .complete } := by
  cases h with
  | perform h =>
    obtain rfl := Option.some.inj h
    simp only [Engine.tell, hf]

theorem does_fan {g : Generation} {deliveries : List Delivery} {callback : Option CallbackId}
    (h : Does e task (.fan g deliveries callback) m) : m = e.fan g deliveries callback := by
  cases h with
  | perform h => exact (Option.some.inj h).symm

/-- Fan-outs begin and change by their own steps. A change leaves the callback as it is or takes it out. -/
theorem Does.fanOuts (h : Does e task a m) :
    m.engine.fanOuts = e.fanOuts ∨
    (∃ g deliveries callback, a = .fan g deliveries callback ∧
      m.engine.fanOuts = e.fanOuts ++ [{ pending := deliveries.length, callback }]) ∨
    ∃ j f f', a.fanOut? = some j ∧ e.fanOuts[j]? = some f ∧ m.engine.fanOuts = e.fanOuts.set j f' ∧
      ∀ c, f'.callback = some c → f.callback = some c := by
  have hf := h.frame
  cases a
  case fan g deliveries callback =>
    rw [does_fan h]
    exact .inr (.inl ⟨g, deliveries, callback, rfl, rfl⟩)
  case record j error =>
    cases h with
    | perform h =>
      obtain rfl := Option.some.inj h
      dsimp only [Engine.record]
      split
      · exact .inl rfl
      · rename_i f hj
        exact .inr (.inr ⟨j, f, _, rfl, hj, rfl, fun c hc => hc⟩)
  case arrive j =>
    cases h with
    | perform h =>
      obtain rfl := Option.some.inj h
      dsimp only [Engine.arrive]
      split
      · exact .inl rfl
      · rename_i f hj
        exact .inr (.inr ⟨j, f, _, rfl, hj, rfl, fun c hc => hc⟩)
  case tell j =>
    cases h with
    | perform h =>
      obtain rfl := Option.some.inj h
      dsimp only [Engine.tell]
      split
      · exact .inl rfl
      · rename_i f hj
        exact .inr (.inr ⟨j, f, _, rfl, hj, rfl, fun c hc => by cases hc⟩)
  all_goals
    dsimp only [Action.Changes] at hf
    exact .inl (congrArg Engine.fanOuts hf :)

theorem Does.fanOuts_length (h : Does e task a m) : e.fanOuts.length ≤ m.engine.fanOuts.length := by
  rcases h.fanOuts with heq | ⟨_, _, _, -, heq⟩ | ⟨_, _, _, -, -, heq, -⟩ <;> simp [heq]

/-- A fan-out changes by its own steps only. -/
theorem Does.fanOuts_other (h : Does e task a m) (hk : k < e.fanOuts.length) (ha : a.fanOut? ≠ some k) :
    m.engine.fanOuts[k]? = e.fanOuts[k]? := by
  rcases h.fanOuts with heq | ⟨_, _, _, -, heq⟩ | ⟨j, _, _, hj, -, heq, -⟩ <;> rw [heq]
  · exact List.getElem?_append_left hk
  · exact List.getElem?_set_ne fun hjk => ha (by rw [hj, hjk])

/-- No action is a step of a fan-out. -/
def isOutside (next : List Action) : Bool := next.all fun b => b.fanOut?.isNone

theorem isOutside_frees (routes : List Route) : isOutside (frees routes) = true := by
  simp [isOutside, frees, Action.fanOut?]

theorem isOutside_building (isReload : Bool) (outcome : Outcome) : isOutside (building isReload outcome) = true := by
  cases isReload <;> rfl

theorem isOutside_abandon (d : Draft) (isReload : Bool) (outcome : Outcome) :
    isOutside (abandon d isReload outcome) = true := by
  rw [isOutside, abandon, List.all_append, Bool.and_eq_true]
  exact ⟨isOutside_frees _, isOutside_building ..⟩

/-- What comes next is no step of a fan-out, unless a call begins to wait, an answer comes, or the last one
    arrives. -/
theorem Next.kinds {next : List Action} (hn : Next e a next) :
    isOutside next = true ∨
    (∃ g deliveries callback, a = .fan g deliveries callback ∧
      next = deliveries.map (.attempt g e.fanOuts.length)) ∨
    (∃ g callback, a = .fan g [] callback ∧ next = [.tell e.fanOuts.length]) ∨
    (∃ j, a = .arrive j ∧ next = [.tell j]) ∨
    ∃ i answer x, a = .answer i answer ∧ e.acks[i]? = some x ∧ x.answered = false ∧
      next = answerSteps x.fanOut (answer.result x.route) := by
  cases hn with
  | fan => exact .inr (.inl ⟨_, _, _, rfl, rfl⟩)
  | alone => exact .inr (.inr (.inl ⟨_, _, rfl, rfl⟩))
  | tell => exact .inr (.inr (.inr (.inl ⟨_, rfl, rfl⟩)))
  | answer hx hopen => exact .inr (.inr (.inr (.inr ⟨_, _, _, rfl, hx, hopen, rfl⟩)))
  | screen hadm => rcases admission_cases hadm with ⟨_, _, _, rfl⟩ | ⟨_, rfl⟩ <;> exact .inl rfl
  | letGo | close => exact .inl (isOutside_frees _)
  | refused | faulty => exact .inl (isOutside_building ..)
  | @publish d isReload => cases isReload <;> exact .inl rfl
  | abandon | notCreated => exact .inl (isOutside_abandon ..)
  | recalcAll => exact .inl (by simp [isOutside, Action.fanOut?])
  | write => exact .inl (by simp [isOutside, Action.fanOut?])
  | _ => exact .inl rfl

theorem fanOut?_of_outside {agenda : List Action} (h : isOutside agenda = true) (ha : a ∈ agenda) : a.fanOut? = none :=
  Option.isNone_iff_eq_none.mp (List.all_eq_true.mp h a ha)

theorem fanOut?_answerSteps {fanOut : FanOutId} {result : Except LogError Unit} (ha : a ∈ answerSteps fanOut result) :
    a.fanOut? = some fanOut := by
  cases result <;> simp only [answerSteps, List.mem_cons, List.not_mem_nil, or_false] at ha
  · rcases ha with rfl | rfl | rfl <;> rfl
  · rcases ha with rfl | rfl <;> rfl

/-- Steps of a fan-out come from its own steps, from answers to it, and from its beginning. -/
theorem Next.fanOut {next : List Action} (hn : Next e a next) {b : Action} (hb : b ∈ next) {j : FanOutId}
    (hj : b.fanOut? = some j) : a.fanOut? = some j ∨
      (∃ i answer x, a = .answer i answer ∧ e.acks[i]? = some x ∧ x.answered = false ∧ x.fanOut = j) ∨
      ∃ g deliveries callback, a = .fan g deliveries callback ∧ j = e.fanOuts.length := by
  rcases hn.kinds with h | ⟨g, ds, cb, rfl, rfl⟩ | ⟨g, cb, rfl, rfl⟩ | ⟨i, rfl, rfl⟩ | ⟨i, answer, x, rfl, hx, hopen, rfl⟩
  · rw [fanOut?_of_outside h hb] at hj
    cases hj
  · obtain ⟨d, -, rfl⟩ := List.mem_map.mp hb
    exact .inr (.inr ⟨g, ds, cb, rfl, (Option.some.inj hj).symm⟩)
  · rw [List.mem_singleton.mp hb] at hj
    exact .inr (.inr ⟨g, [], cb, rfl, (Option.some.inj hj).symm⟩)
  · rw [List.mem_singleton.mp hb] at hj
    exact .inl hj
  · rw [fanOut?_answerSteps hb] at hj
    exact .inr (.inl ⟨i, answer, x, rfl, hx, hopen, Option.some.inj hj⟩)

theorem Opening.outside {agenda : List Action} (h : Opening e agenda) : isOutside agenda = true := by
  cases h <;> rfl

namespace Numbered
variable {op : Op} {fx : List Effect} {es : List Event}

theorem start (setup : Setup) (files : File.Store) (config : Config) : Numbered (start setup files config) where
  actions agenda h a ha k hk := by
    rw [List.mem_singleton.mp h] at ha
    rw [List.mem_singleton.mp ha] at hk
    cases hk
  acks x hx := absurd hx List.not_mem_nil

theorem step (h : Numbered e) (hs : e.step? op = some (e', fx)) : Numbered e' := by
  rcases step_cases hs with ⟨request, -, hb, -⟩ | ⟨task, a, rest, m, -, hagenda, hdoes, rfl, -⟩
  · obtain ⟨opening, hopen, hagendas, hcalm⟩ := begin_cases hb
    refine ⟨fun agenda hmem x hx k hk => ?_, ?_⟩
    · rw [hagendas] at hmem
      rw [hcalm.fanOuts]
      rcases List.mem_append.mp hmem with hmem | hmem
      · exact h.actions agenda hmem x hx k hk
      · rw [List.mem_singleton.mp hmem] at hx
        rw [fanOut?_of_outside hopen.outside hx] at hk
        cases hk
    · rw [hcalm.fanOuts, hcalm.acks]
      exact h.acks
  · have hlen : e.fanOuts.length ≤ m.engine.fanOuts.length := hdoes.fanOuts_length
    have hmem := List.mem_of_getElem? hagenda
    have hself : ∀ b ∈ a :: rest, ∀ k, b.fanOut? = some k → k < m.engine.fanOuts.length :=
      fun b hb k hk => Nat.lt_of_lt_of_le (h.actions _ hmem b hb k hk) hlen
    refine ⟨fun agenda hagenda' x hx k hk => ?_, fun x hx => ?_⟩
    · have hagenda' : agenda ∈ e.agendas.set task (m.next ++ rest) := by
        simpa [hdoes.agendas] using hagenda'
      rcases List.mem_or_eq_of_mem_set hagenda' with hagenda' | rfl
      · exact Nat.lt_of_lt_of_le (h.actions agenda hagenda' x hx k hk) hlen
      · rcases List.mem_append.mp hx with hx | hx
        · rcases hdoes.next.fanOut hx hk with ha | ⟨i, answer, y, rfl, hy, -, rfl⟩ | ⟨g, ds, cb, rfl, rfl⟩
          · exact hself a List.mem_cons_self k ha
          · exact Nat.lt_of_lt_of_le (h.acks y (List.mem_of_getElem? hy)) hlen
          · simp [does_fan hdoes, Engine.fan]
        · exact hself x (List.mem_cons_of_mem a hx) k hk
    · have hx : x ∈ m.engine.acks := hx
      rcases hdoes.acks with heq | ⟨g, k, d, route, rfl, -, heq⟩ | ⟨i, answer, y, -, hy, -, heq⟩ <;> rw [heq] at hx
      · exact Nat.lt_of_lt_of_le (h.acks x hx) hlen
      · rcases List.mem_append.mp hx with hx | hx
        · exact Nat.lt_of_lt_of_le (h.acks x hx) hlen
        · rw [List.mem_singleton.mp hx]
          exact hself _ List.mem_cons_self k rfl
      · rcases List.mem_or_eq_of_mem_set hx with hx | rfl
        · exact Nat.lt_of_lt_of_le (h.acks x hx) hlen
        · exact Nat.lt_of_lt_of_le (h.acks y (List.mem_of_getElem? hy)) hlen

theorem run (h : Numbered e) (hr : Run e es e') : Numbered e' := by
  induction hr with
  | refl => exact h
  | step _ hs ih => exact ih.step hs

end Numbered

theorem Does.metrics (h : Does e task a m) :
    e.metrics.delivered ≤ m.engine.metrics.delivered ∧ e.metrics.failed ≤ m.engine.metrics.failed := by
  have hf := h.frame
  cases a
  case count j result =>
    rw [does_count h]
    cases result
    · exact ⟨Nat.le_refl _, Nat.le_succ _⟩
    · exact ⟨Nat.le_succ _, Nat.le_refl _⟩
  case accept | countUnrouted | reject | countReload =>
    cases h with
    | perform h =>
      obtain rfl := Option.some.inj h
      exact ⟨Nat.le_refl _, Nat.le_refl _⟩
  all_goals
    dsimp only [Action.Changes] at hf
    rw [hf]
    exact ⟨Nat.le_refl _, Nat.le_refl _⟩

end does

end Engine

end LogDispatch
