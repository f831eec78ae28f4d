import LogDispatch.Proofs.Lineage
import LogDispatch.Proofs.Making
import LogDispatch.Proofs.Tally

/-! Custody of transports. From the moment it is made a transport is in one place: in a draft, in a generation that
    has not been released, or in a release that is still to be done. What an action does keeps the books
    (`custody_does`): a release takes a transport out for good. -/

namespace LogDispatch

/-- The effect releases this transport. -/
def Effect.isFree (t : TransportId) : Effect → Bool
  | .free _ t' => t' == t
  | _ => false

/-- The effect gives this transport a record. -/
def Effect.isOut (t : TransportId) : Effect → Bool
  | .out _ t' .. => t' == t
  | _ => false

/-- How many times a transport has been released. -/
def releases (t : TransportId) (es : List Event) : Nat := (es.flatMap (·.effects)).countP (Effect.isFree t)

theorem releases_append (t : TransportId) (es es' : List Event) :
    releases t (es ++ es') = releases t es + releases t es' := by
  simp [releases]

/-- How many routes of the generation have the transport. -/
def Generation.uses (t : TransportId) (g : Generation) : Nat := g.routes.countP (·.transport == t)

/-- One of the routes has the transport. -/
def Generation.Has (t : TransportId) (g : Generation) : Prop := ∃ r ∈ g.routes, r.transport = t

theorem Generation.uses_pos {t : TransportId} {g : Generation} : 0 < g.uses t ↔ g.Has t := by
  simp [Generation.uses, Generation.Has, List.countP_pos_iff]

/-- How many releases of the transport the action will see to. -/
def Action.custody (t : TransportId) : Action → Nat
  | .free _ t' => if t' = t then 1 else 0
  | .make d _ | .awaitCreate d .. => d.generation.uses t
  | .install g => g.uses t
  | _ => 0

namespace Engine

/-- What a generation has of a transport, unless it has been released. -/
def share (t : TransportId) (released : List GenerationId) (g : Generation) : Nat :=
  if g.id ∈ released then 0 else g.uses t

/-- One if the transport has been made. -/
def isMade (e : Engine) (t : TransportId) : Nat := if t < e.transports.length then 1 else 0

section shares
variable {t : TransportId} {g : Generation} {known : List Generation} {released : List GenerationId}

/-- A release takes the share of its own generation, and no other one. -/
theorem weigh_share_cons (ho : known.Pairwise (·.id < ·.id)) (hg : g ∈ known) (hr : g.id ∉ released) :
    weigh (share t (g.id :: released)) known + g.uses t = weigh (share t released) known := by
  induction ho with
  | nil => cases hg
  | @cons x xs hx _ ih =>
    rw [weigh_cons, weigh_cons]
    rcases List.mem_cons.mp hg with rfl | hg
    · have hrest : weigh (share t (g.id :: released)) xs = weigh (share t released) xs := by
        refine congrArg List.sum (List.map_congr_left fun y hy => ?_)
        have hne : y.id ≠ g.id := Nat.ne_of_gt (hx y hy)
        simp [share, hne]
      have hmine : share t (g.id :: released) g = 0 := if_pos List.mem_cons_self
      have hbefore : share t released g = g.uses t := if_neg hr
      rw [hrest, hmine, hbefore]
      omega
    · have hne : x.id ≠ g.id := Nat.ne_of_lt (hx g hg)
      have hfirst : share t (g.id :: released) x = share t released x := by simp [share, hne]
      rw [hfirst, ← ih hg]
      omega

theorem uses_le_weigh_share (hg : g ∈ known) (hr : g.id ∉ released) : g.uses t ≤ weigh (share t released) known := by
  have hshare : share t released g = g.uses t := if_neg hr
  rw [← hshare]
  exact le_weigh hg

end shares

/-! ### Releases -/

section release
variable {e : Engine} {task : TaskId} {a : Action} {m : Move} {g : Generation}

/-- The generation is released now: the releases of its transports come next. -/
structure Releases (e : Engine) (g : Generation) (m : Move) : Prop where
  fresh : g.id ∉ e.released
  released : m.engine.released = g.id :: e.released
  next : m.next = frees g.routes

/-- Nothing is released. -/
structure Spares (e : Engine) (m : Move) : Prop where
  released : m.engine.released = e.released
  next : m.next = []

theorem release_cases (e : Engine) (g : Generation) :
    (g.id ∈ e.released ∧ Spares e (e.release g)) ∨ Releases e g (e.release g) := by
  by_cases h : g.id ∈ e.released
  · have heq : e.release g = { engine := e } := by simp [release, h]
    rw [heq]
    exact .inl ⟨h, rfl, rfl⟩
  · have heq : e.release g =
        { engine := { e with released := g.id :: e.released }, next := frees g.routes } := by
      simp [release, h, frees]
    rw [heq]
    exact .inr ⟨h, rfl, rfl⟩

/-- Letting a generation go releases it if nobody else holds it and that has not been done before. -/
theorem does_letGo (h : Does e task (.letGo g) m) :
    (Spares e m ∧ (e.isHeld g.id = true ∨ g.id ∈ e.released)) ∨ (Releases e g m ∧ e.isHeld g.id = false) := by
  cases h with
  | perform h =>
    obtain rfl := Option.some.inj h
    cases hheld : e.isHeld g.id with
    | true =>
      have heq : e.letGo g = { engine := e } := by simp [letGo, hheld]
      rw [heq]
      exact .inl ⟨⟨rfl, rfl⟩, .inl rfl⟩
    | false =>
      have heq : e.letGo g = e.release g := by simp [letGo, hheld]
      rw [heq]
      rcases release_cases e g with ⟨hr, hs⟩ | hr
      · exact .inl ⟨hs, .inr hr⟩
      · exact .inr ⟨hr, rfl⟩

/-- Closing the engine releases the live generation unless that has been done before. -/
theorem does_close (h : Does e task .close m) :
    m.engine.isClosed = true ∧ (Spares e m ∨ ∃ g, e.live = some g ∧ Releases e g m) := by
  have hf := h.frame
  dsimp only [Action.Changes] at hf
  refine ⟨by rw [hf], ?_⟩
  cases h with
  | perform h =>
    obtain rfl := Option.some.inj h
    unfold Engine.close
    split
    · exact .inl ⟨rfl, rfl⟩
    · dsimp only
      split
      · rename_i g hlive
        rcases release_cases { e with isClosed := true } g with ⟨-, hs⟩ | hr
        · exact .inl ⟨hs.released, hs.next⟩
        · exact .inr ⟨g, hlive, hr.fresh, hr.released, hr.next⟩
      · exact .inl ⟨rfl, rfl⟩

/-- Only letting a generation go and closing the engine release one. -/
theorem Does.released (h : Does e task a m) : m.engine.released = e.released ∨
    ∃ g, Releases e g m ∧
      ((a = .letGo g ∧ e.isHeld g.id = false) ∨ (a = .close ∧ e.live = some g ∧ m.engine.isClosed = true)) := by
  have hf := h.frame
  cases a
  case letGo g =>
    rcases does_letGo h with ⟨hs, -⟩ | ⟨hr, hheld⟩
    · exact .inl hs.released
    · exact .inr ⟨g, hr, .inl ⟨rfl, hheld⟩⟩
  case close =>
    obtain ⟨hclosed, hs | ⟨g, hlive, hr⟩⟩ := does_close h
    · exact .inl hs.released
    · exact .inr ⟨g, hr, .inr ⟨rfl, hlive, hclosed⟩⟩
  all_goals
    dsimp only [Action.Changes] at hf
    exact .inl (congrArg Engine.released hf :)

theorem Does.mem_released (h : Does e task a m) {id : GenerationId} (hid : id ∈ e.released) :
    id ∈ m.engine.released := by
  rcases h.released with heq | ⟨g, hr, -⟩
  · rwa [heq]
  · rw [hr.released]
    exact List.mem_cons_of_mem _ hid

/-- An engine that is closed stays so. -/
theorem Does.isClosed (h : Does e task a m) (hopen : m.engine.isClosed = false) : e.isClosed = false := by
  have hf := h.frame
  cases a
  case close =>
    rw [(does_close h).1] at hopen
    cases hopen
  all_goals
    dsimp only [Action.Changes] at hf
    exact (congrArg Engine.isClosed hf :).symm.trans hopen

end release

/-! ### What goes out -/

section effects
variable {e : Engine} {task : TaskId} {a : Action} {m : Move} {t : TransportId}

/-- The effect is one of the action: a release frees its own transport, an attempt gives its record to the
    transport of its route, a callback is told by a rejection or at the end of a fan-out, and a task ends as it
    says. -/
def IsOf (a : Action) : Effect → Prop
  | .free _ t => ∃ route, a = .free route t
  | .out _ t .. => ∃ g fanOut d r, a = .attempt g fanOut d ∧ g.routes[d.route]? = some r ∧ r.transport = t
  | .complete _ => (∃ error callback, a = .reject error callback) ∨ ∃ fanOut, a = .tell fanOut
  | .ended _ outcome => a = .finish outcome
  | _ => True

theorem deliver_effects {transport : TransportId} {record : Record} {ack : AckId} {complaint : String} {fx : Effect}
    (h : fx ∈ (e.deliver task transport record ack complaint).effects) :
    fx = .out task transport record ack ∨ ∃ stream line, fx = .print stream line := by
  unfold deliver at h
  split at h
  · exact .inl (List.mem_singleton.mp h)
  · rcases List.mem_pair.mp h with rfl | rfl
    · exact .inl rfl
    · exact .inr ⟨_, _, rfl⟩
  · split at h <;> exact .inl (List.mem_singleton.mp h)
  · exact .inl (List.mem_singleton.mp h)

theorem makeRoute_effects {d : Draft} {spec : RouteSpec} {plan : Draft.RoutePlan} {isReload : Bool} {fx : Effect}
    (h : fx ∈ (e.makeRoute task d spec plan isReload).effects) :
    ∃ context previous, fx = .create task spec context previous := by
  have made : ∀ (e' : Engine) (result : Making Device), fx ∉ (e'.made d spec plan isReload result).effects := by
    intro e' result
    rcases result with _ | _ | _ <;> exact List.not_mem_nil
  unfold makeRoute at h
  split at h
  · exact absurd h List.not_mem_nil
  · exact absurd h (made _ _)
  · split at h <;> exact absurd h (made _ _)
  · exact ⟨_, _, List.mem_singleton.mp h⟩

/-! Most actions send nothing out. -/

section silent
variable {call : Call} {g : Generation} {channel : ChannelId} {fanOut : FanOutId}

theorem effects_of_load (h : e.load call = some m) : m.effects = [] := by
  obtain ⟨_, -, rfl⟩ := Option.map_eq_some_iff.mp h
  split <;> rfl

theorem effects_of_lockReload (h : e.lockReload = some m) : m.effects = [] := by
  obtain ⟨-, h⟩ := Option.ite_none_left_eq_some.mp h
  exact Option.some.inj h ▸ rfl

theorem effects_of_recalcAll (h : e.recalcAll g = some m) : m.effects = [] := by
  obtain ⟨-, h⟩ := Option.ite_none_left_eq_some.mp h
  exact Option.some.inj h ▸ rfl

theorem effects_of_register {module : String} {shownAs : Option String} (h : e.register module shownAs = some m) :
    m.effects = [] := by
  unfold register at h
  split at h
  · exact Option.some.inj h ▸ rfl
  · obtain ⟨_, -, rfl⟩ := Option.map_eq_some_iff.mp h
    rfl

theorem effects_of_enlist (h : e.enlist channel = some m) : m.effects = [] := by
  unfold enlist at h
  split at h
  · cases h
  · split at h <;> exact Option.some.inj h ▸ rfl

@[simp] theorem screen_effects : (e.screen call g).effects = [] := by
  unfold screen
  split <;> rfl

@[simp] theorem select_effects {rank : Nat} {text : String} : (e.select call g channel rank text).effects = [] := by
  unfold select
  split
  · rfl
  · split <;> rfl

@[simp] theorem refresh_effects {table : RouteLevels} : (e.refresh channel table).effects = [] := by
  unfold refresh
  split <;> rfl

@[simp] theorem recalc_effects : (e.recalc g channel).effects = [] := by
  unfold recalc
  split <;> rfl

@[simp] theorem answer_effects {ack : AckId} {answer : Answer} : (e.answer ack answer).effects = [] := by
  rcases answer_cases e ack answer with ⟨heq, -⟩ | ⟨_, _, _, heq⟩ <;> rw [heq]

@[simp] theorem record_effects {error : LogError} : (e.record fanOut error).effects = [] := by
  unfold record
  split <;> rfl

@[simp] theorem arrive_effects : (e.arrive fanOut).effects = [] := by
  unfold arrive
  split <;> rfl

@[simp] theorem release_effects : (e.release g).effects = [] := by
  unfold release
  split <;> rfl

@[simp] theorem letGo_effects : (e.letGo g).effects = [] := by
  unfold letGo
  split
  · rfl
  · exact release_effects

@[simp] theorem close_effects : e.close.effects = [] := by
  unfold close
  dsimp only
  split
  · rfl
  · split
    · exact release_effects
    · rfl

@[simp] theorem leave_effects : e.leave.effects = [] := by
  unfold leave
  dsimp only
  split <;> rfl

@[simp] theorem checkReload_effects {config : Config} : (e.checkReload config).effects = [] := by
  unfold checkReload
  split
  · rfl
  · split <;> rfl

@[simp] theorem build_effects {config : Config} {isReload : Bool} : (e.build config isReload).effects = [] := by
  unfold build
  dsimp only
  split <;> rfl

end silent

theorem free_effects {route : String} {fx : Effect} (h : fx ∈ (e.free task route t).effects) :
    fx = .free task t ∨ ∃ writer, fx = .closing writer := by
  unfold Engine.free at h
  dsimp only at h
  split at h
  · exact .inl (List.mem_singleton.mp h)
  · split at h
    · exact .inl (List.mem_singleton.mp h)
    · exact .inl (List.mem_singleton.mp h)
    · rcases List.mem_cons.mp h with rfl | h
      · exact .inl rfl
      · obtain ⟨_, -, rfl⟩ := List.mem_map.mp h
        exact .inr ⟨_, rfl⟩

theorem make_effects {d : Draft} {isReload : Bool} {fx : Effect} (h : fx ∈ (e.make task d isReload).effects) :
    ∃ spec context previous, fx = .create task spec context previous := by
  unfold Engine.make at h
  split at h
  · exact absurd h List.not_mem_nil
  · split at h
    · exact absurd h List.not_mem_nil
    · exact ⟨_, makeRoute_effects h⟩

theorem Does.isOf (h : Does e task a m) {fx : Effect} (hfx : fx ∈ m.effects) : IsOf a fx := by
  cases h with
  | created result =>
    rcases result with _ | _ | _ <;> exact absurd hfx List.not_mem_nil
  | taken panicked | freed panicked =>
    cases panicked
    · exact absurd hfx List.not_mem_nil
    · rw [List.mem_singleton.mp hfx]
      trivial
  | perform h =>
    cases a <;> simp only [perform?, Option.some.injEq, reduceCtorEq] at h <;> try subst h
    case load => simp [effects_of_load h] at hfx
    case lockReload => simp [effects_of_lockReload h] at hfx
    case recalcAll => simp [effects_of_recalcAll h] at hfx
    case register => simp [effects_of_register h] at hfx
    case enlist => simp [effects_of_enlist h] at hfx
    case attempt g fanOut d =>
      dsimp only [Engine.attempt] at hfx
      split at hfx
      · exact absurd hfx List.not_mem_nil
      · rename_i r hr
        split at hfx
        · exact absurd hfx List.not_mem_nil
        · rcases deliver_effects hfx with rfl | ⟨_, _, rfl⟩
          · exact ⟨g, fanOut, d, r, rfl, hr, rfl⟩
          · trivial
    case free route transport =>
      rcases free_effects hfx with rfl | ⟨_, rfl⟩
      · exact ⟨route, rfl⟩
      · trivial
    case make d isReload =>
      obtain ⟨_, _, _, rfl⟩ := make_effects hfx
      trivial
    case reject error callback =>
      obtain ⟨_, -, rfl⟩ := List.mem_map.mp hfx
      exact .inl ⟨error, callback, rfl⟩
    case tell fanOut =>
      dsimp only [Engine.tell] at hfx
      split at hfx
      · exact absurd hfx List.not_mem_nil
      · obtain ⟨_, -, rfl⟩ := List.mem_map.mp hfx
        exact .inr ⟨fanOut, rfl⟩
    case complain | finish =>
      rw [List.mem_singleton.mp hfx]
      trivial
    case screen | select | refresh | answer | record | arrive | letGo | leave | checkReload | build | recalc | close =>
      simp at hfx
    all_goals exact absurd hfx List.not_mem_nil

end effects

/-! ### The law of custody -/

section custody
variable {e e' : Engine} {task : TaskId} {a : Action} {m : Move} {t : TransportId} {d : Draft} {isReload : Bool}
  {known : List Generation} {rest next agenda : List Action} {op : Op} {fx : List Effect} {es : List Event}

theorem weigh_custody_frees (routes : List Route) :
    weigh (Action.custody t) (frees routes) = routes.countP (·.transport == t) := by
  induction routes with
  | nil => rfl
  | cons r rs ih =>
    rw [List.countP_cons, ← ih, frees, List.map_cons, weigh_cons, ← frees, Nat.add_comm]
    simp [Action.custody]

theorem weigh_custody_building (isReload : Bool) (outcome : Outcome) :
    weigh (Action.custody t) (building isReload outcome) = 0 := by
  cases isReload <;> rfl

theorem weigh_custody_abandon (outcome : Outcome) :
    weigh (Action.custody t) (abandon d isReload outcome) = d.generation.uses t := by
  have hfrees := weigh_custody_frees (t := t) d.generation.routes
  unfold frees at hfrees
  rw [abandon, weigh_append, weigh_custody_building, hfrees, Nat.add_zero, Generation.uses]

theorem weigh_custody_publishing (g : Generation) (isReload : Bool) :
    weigh (Action.custody t) (publishing g isReload) = g.uses t := by
  cases isReload <;> simp [publishing, building, Action.custody]

theorem uses_attach (spec : RouteSpec) (plan : Draft.RoutePlan) (i : TransportId) :
    (d.attach spec plan i).generation.uses t = d.generation.uses t + if i = t then 1 else 0 := by
  simp [Generation.uses, List.countP_append, List.countP_singleton]

/-- A draft keeps its transports when the next one is made, or they are all released. -/
theorem Makes.custody (h : Makes e d isReload e' next) :
    weigh (Action.custody t) next + e.isMade t = d.generation.uses t + e'.isMade t := by
  cases h with
  | publish => rw [weigh_custody_publishing]
  | abandon => rw [weigh_custody_abandon]
  | await => simp [Action.custody]
  | @attach spec plan device files =>
    have huses := uses_attach (t := t) (d := { d with todo := d.todo.drop 1 }) spec plan e.transports.length
    dsimp only at huses
    simp only [weigh_cons, weigh_nil, Action.custody, huses, isMade, List.length_append, List.length_singleton]
    rcases Nat.lt_trichotomy t e.transports.length with hlt | rfl | hgt
    · simp [hlt, Nat.ne_of_gt hlt, Nat.lt_succ_of_lt hlt]
    · simp
    · simp [Nat.not_lt_of_gt hgt, Nat.ne_of_lt hgt, Nat.not_lt_of_ge (Nat.succ_le_of_lt hgt)]

/-- The release of a transport frees it once, and that is all there is to do about it. -/
theorem does_free {route : String} {transport : TransportId} (h : Does e task (.free route transport) m) :
    m.effects.countP (Effect.isFree t) = (if transport = t then 1 else 0) ∧
      weigh (Action.custody t) m.next = 0 ∧ m.engine.isMade t = e.isMade t := by
  cases h with
  | perform h =>
    obtain rfl := Option.some.inj h
    unfold Engine.free
    dsimp only
    split
    · exact ⟨by simp [Effect.isFree], rfl, rfl⟩
    · split
      · exact ⟨by simp [Effect.isFree], rfl, by simp [isMade]⟩
      · exact ⟨by simp [Effect.isFree], rfl, by simp [isMade]⟩
      · refine ⟨?_, rfl, by simp [isMade]⟩
        have hnone : ∀ closed : List WriterId, (closed.map Effect.closing).countP (Effect.isFree t) = 0 := by
          simp [List.countP_eq_zero, Effect.isFree]
        rw [List.countP_cons, hnone]
        simp [Effect.isFree]

/-- Nothing else frees a transport. -/
theorem Does.countP_isFree (h : Does e task a m) (ha : ∀ route transport, a ≠ .free route transport) :
    m.effects.countP (Effect.isFree t) = 0 := by
  refine List.countP_eq_zero.mpr fun fx hfx hfree => ?_
  have hof := h.isOf hfx
  cases fx with
  | free =>
    obtain ⟨route, rfl⟩ := hof
    exact ha _ _ rfl
  | _ => cases hfree

/-- The action has no part in the custody of transports. -/
def isAside : Action → Bool
  | .free .. | .make .. | .awaitCreate .. | .install _ | .letGo _ | .close => false
  | _ => true

theorem Does.aside (h : Does e task a m) (ha : isAside a = true) (t : TransportId) (known : List Generation) :
    a.custody t = 0 ∧ weigh (Action.custody t) m.next = 0 ∧ m.engine.isMade t = e.isMade t ∧
      a.adds known = known ∧ m.engine.released = e.released := by
  have hf := h.frame
  refine ⟨?_, ?_, ?_, ?_, ?_⟩
  · cases a <;> first | rfl | cases ha
  · have hn := h.next
    generalize m.next = next at hn
    cases hn with
    | screen hadm => rcases admission_cases hadm with ⟨_, _, _, rfl⟩ | ⟨_, rfl⟩ <;> rfl
    | fan => exact weigh_eq_zero (by simp [Action.custody])
    | @answer ack answer x => cases answer.result x.route <;> rfl
    | recalcAll =>
      rw [weigh_append, weigh_eq_zero fun b hb => ?_]
      · rfl
      · obtain ⟨c, -, rfl⟩ := List.mem_map.mp hb
        rfl
    | write =>
      refine weigh_eq_zero fun b hb => ?_
      obtain ⟨answer, -, rfl⟩ := List.mem_map.mp hb
      rfl
    | refused | faulty => exact weigh_custody_building ..
    | draft hd => simp [Action.custody, Generation.uses, (Draft.ofConfig_eq_ok hd).2.2.1]
    | letGo | close | publish | awaitCreate | abandon | attach | created | notCreated => cases ha
    | _ => rfl
  · cases a <;> first
      | (dsimp only [Action.Changes] at hf; rw [isMade, isMade, hf]; done)
      | cases ha
  · cases a <;> first | rfl | cases ha
  · cases a <;> first
      | (dsimp only [Action.Changes] at hf; exact (congrArg Engine.released hf :))
      | cases ha

/-- What the state has in custody of a transport, given the generations known so far. -/
def inCustody (t : TransportId) (e : Engine) (known : List Generation) : Nat :=
  tally (Action.custody t) e + weigh (share t e.released) known

theorem isMade_of_frame {e e' : Engine} (h : e'.transports = e.transports) : e'.isMade t = e.isMade t := by
  rw [isMade, isMade, h]

/-- An action that is done leaves a transport in balance: it comes into custody when it is made and goes out of it when
    it is freed. -/
def Balances (t : TransportId) (known : List Generation) (e : Engine) (a : Action) (m : Move) : Prop :=
  m.effects.countP (Effect.isFree t) + weigh (Action.custody t) m.next + weigh (share t m.engine.released) (a.adds known) +
    e.isMade t = a.custody t + weigh (share t e.released) known + m.engine.isMade t

theorem balances_aside (h : Does e task a m) (ha : isAside a = true) : Balances t known e a m := by
  obtain ⟨hzero, hnext, hmade, hadds, hreleased⟩ := h.aside ha t known
  have hfree := h.countP_isFree (t := t) fun _ _ heq => by rw [heq] at ha; cases ha
  rw [Balances, hfree, hnext, hadds, hreleased, hzero, hmade, Nat.zero_add]

theorem balances_free {route : String} {transport : TransportId} (h : Does e task (.free route transport) m) :
    Balances t known e (.free route transport) m := by
  obtain ⟨hfree, hnext, hmade⟩ := does_free (t := t) h
  have hreleased : m.engine.released = e.released := (congrArg Engine.released h.frame :)
  rw [Balances, hfree, hnext, hreleased, hmade]
  rfl

/-- The next transport of a draft comes into the custody of the draft, unless that is given up. -/
theorem balances_making (h : Does e task a m)
    (ha : a = .make d isReload ∨ ∃ spec plan, a = .awaitCreate d spec plan isReload) : Balances t known e a m := by
  have hmade := (does_making h ha).custody (t := t)
  have hfree : m.effects.countP (Effect.isFree t) = 0 := by
    rcases ha with rfl | ⟨_, _, rfl⟩ <;> exact h.countP_isFree nofun
  have hreleased : m.engine.released = e.released := by
    rcases ha with rfl | ⟨_, _, rfl⟩ <;> exact (congrArg Engine.released h.frame :)
  have hcarried : a.custody t = d.generation.uses t ∧ a.adds known = known := by
    rcases ha with rfl | ⟨_, _, rfl⟩ <;> exact ⟨rfl, rfl⟩
  rw [Balances, hfree, hreleased, hcarried.1, hcarried.2]
  omega

/-- A generation that becomes live keeps the transports that its draft had: no number that has been released is above
    all known ones. -/
theorem balances_install {g : Generation} (h : Does e task (.install g) m) (habove : ∀ x ∈ known, x.id < g.id)
    (hin : ∀ id ∈ e.released, ∃ x ∈ known, x.id = id) : Balances t known e (.install g) m := by
  have hfresh : g.id ∉ e.released := fun hid => by
    obtain ⟨x, hx, heq⟩ := hin _ hid
    exact Nat.ne_of_lt (habove x hx) heq
  have hshare : share t e.released g = g.uses t := if_neg hfresh
  have hfree := h.countP_isFree (t := t) nofun
  have hreleased : m.engine.released = e.released := (congrArg Engine.released h.frame :)
  have hmade : m.engine.isMade t = e.isMade t := isMade_of_frame (congrArg Engine.transports h.frame :)
  have hnext : weigh (Action.custody t) m.next = 0 := by
    have hn := h.next
    generalize m.next = next at hn
    cases hn <;> rfl
  rw [Balances, hfree, hnext, hreleased, hmade, Action.adds, weigh_append, weigh_cons, weigh_nil, hshare, Action.custody]
  omega

/-- A release moves the share of its generation to the agenda. -/
theorem Releases.balances {g : Generation} (hr : Releases e g m) (ho : known.Pairwise (·.id < ·.id)) (hg : g ∈ known)
    (hfree : m.effects.countP (Effect.isFree t) = 0) (hmade : m.engine.isMade t = e.isMade t) (hzero : a.custody t = 0)
    (hadds : a.adds known = known) : Balances t known e a m := by
  have hmoved := weigh_share_cons (t := t) ho hg hr.fresh
  rw [Balances, hfree, hr.next, weigh_custody_frees, hr.released, hmade, hzero, hadds, ← hmoved, Generation.uses]
  omega

theorem Spares.balances (hs : Spares e m) (hfree : m.effects.countP (Effect.isFree t) = 0)
    (hmade : m.engine.isMade t = e.isMade t) (hzero : a.custody t = 0) (hadds : a.adds known = known) :
    Balances t known e a m := by
  rw [Balances, hfree, hs.next, weigh_nil, hs.released, hmade, hzero, hadds, Nat.zero_add]

theorem does_balances (hf : Founded e known) (hin : ∀ id ∈ e.released, ∃ g ∈ known, g.id = id) (hknows : a.Knows e known)
    (h : Does e task a m) : Balances t known e a m := by
  cases haside : isAside a with
  | true => exact balances_aside h haside
  | false =>
    cases a <;> first | (cases haside; done) | skip
    case free => exact balances_free h
    case make => exact balances_making h (.inl rfl)
    case awaitCreate => exact balances_making h (.inr ⟨_, _, rfl⟩)
    case install => exact balances_install h hknows.above hin
    case letGo =>
      have hfree := h.countP_isFree (t := t) nofun
      have hmade : m.engine.isMade t = e.isMade t := isMade_of_frame (congrArg Engine.transports h.frame :)
      rcases does_letGo h with ⟨hs, -⟩ | ⟨hr, -⟩
      · exact hs.balances hfree hmade rfl rfl
      · exact hr.balances hf.ordered hknows hfree hmade rfl rfl
    case close =>
      have hfree := h.countP_isFree (t := t) nofun
      have hmade : m.engine.isMade t = e.isMade t := isMade_of_frame (congrArg Engine.transports h.frame :)
      obtain ⟨-, hs | ⟨g, hlive, hr⟩⟩ := does_close h
      · exact hs.balances hfree hmade rfl rfl
      · exact hr.balances hf.ordered (hf.live g hlive) hfree hmade rfl rfl

/-- What an action does to the custody of a transport: a transport that is made comes into it, and one that is freed
    goes out of it. -/
theorem custody_does (hl : Lineage e known) (hin : ∀ id ∈ e.released, ∃ g ∈ known, g.id = id)
    (hagenda : e.agendas[task]? = some (a :: rest)) (hdoes : Does (e.setAgenda task rest) task a m) :
    m.effects.countP (Effect.isFree t) + inCustody t (m.engine.setAgenda task (m.next ++ rest)) (a.adds known) +
      e.isMade t = inCustody t e known + m.engine.isMade t := by
  have hf : Founded (e.setAgenda task rest) known := hl.toFounded.setAgenda rest
  have hknows : a.Knows (e.setAgenda task rest) known := knows_setAgenda (hl.rooted _ (List.mem_of_getElem? hagenda)).1
  have hbalance : Balances t known (e.setAgenda task rest) a m := does_balances hf hin hknows hdoes
  have htally := tally_does (Action.custody t) hagenda hdoes
  have hbefore : (e.setAgenda task rest).isMade t = e.isMade t := rfl
  rw [Balances, hbefore, released_setAgenda] at hbalance
  rw [inCustody, inCustody, released_setAgenda]
  omega

end custody

end Engine

end LogDispatch
