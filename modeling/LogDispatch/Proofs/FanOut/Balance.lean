import LogDispatch.Proofs.FanOut
import LogDispatch.Proofs.Tally
import Mathlib.Algebra.Order.Group.Multiset
import Mathlib.Data.Multiset.OrderedMonoid

/-! What is on its way from the routes of a call to its callback. A law of conservation stands for each kind of thing
    (`Awaiting`); every event is in balance with them (`Balance`), whatever order the steps come in. -/

namespace LogDispatch.Engine

/-! ### What is on its way to a callback -/

section weights
variable (k : FanOutId)

/-- The name of the route a delivery is for. -/
def routeName (g : Generation) (d : Delivery) : Multiset String := ((g.routes[d.route]?).toList.map (·.name) : List String)

/-- The routes that are still to be tried. -/
def trying : Action → Multiset String
  | .attempt g j d => if j = k then routeName g d else 0
  | _ => 0

/-- The attempts and the arrivals that are still to come. -/
def due : Action → Nat
  | .attempt _ j _ | .arrive j => if j = k then 1 else 0
  | _ => 0

def counting : Action → Multiset (Except LogError Unit)
  | .count j result => if j = k then {result} else 0
  | _ => 0

def recording : Action → Multiset LogError
  | .record j error => if j = k then {error} else 0
  | _ => 0

def telling : Action → Nat
  | .tell j => if j = k then 1 else 0
  | _ => 0

/-- The route of an acknowledgement that is waited for. -/
def awaitedRoute (x : Ack) : Multiset String := if x.awaits k then {x.route} else 0

/-- The routes that were tried and have not answered. -/
def awaited (acks : List Ack) : Multiset String := (acks.map (awaitedRoute k)).sum

variable {k}

/-- The weight is on steps of the fan-out only. -/
def Weighs {M : Type} [AddCommMonoid M] (k : FanOutId) (w : Action → M) : Prop := ∀ a, a.fanOut? ≠ some k → w a = 0

theorem weighs_trying : Weighs k (trying k) := by
  intro a ha
  cases a with
  | attempt g j d => exact if_neg fun h => ha (by rw [← h]; rfl)
  | _ => rfl

theorem weighs_due : Weighs k (due k) := by
  intro a ha
  cases a with
  | attempt | arrive => exact if_neg fun h => ha (by rw [← h]; rfl)
  | _ => rfl

theorem weighs_counting : Weighs k (counting k) := by
  intro a ha
  cases a with
  | count => exact if_neg fun h => ha (by rw [← h]; rfl)
  | _ => rfl

theorem weighs_recording : Weighs k (recording k) := by
  intro a ha
  cases a with
  | record => exact if_neg fun h => ha (by rw [← h]; rfl)
  | _ => rfl

theorem weighs_telling : Weighs k (telling k) := by
  intro a ha
  cases a with
  | tell => exact if_neg fun h => ha (by rw [← h]; rfl)
  | _ => rfl

theorem awaited_append (acks : List Ack) (x : Ack) : awaited k (acks ++ [x]) = awaited k acks + awaitedRoute k x := by
  simp [awaited]

theorem awaited_set {acks : List Ack} {i : AckId} {x : Ack} (hx : acks[i]? = some x) (y : Ack) :
    awaited k (acks.set i y) + awaitedRoute k x = awaited k acks + awaitedRoute k y := by
  obtain ⟨others, hsum, hset⟩ := exists_sum_set
    (show (acks.map (awaitedRoute k))[i]? = some (awaitedRoute k x) by rw [List.getElem?_map, hx, Option.map_some])
  rw [awaited, awaited, List.map_set, hset, hsum]
  ac_rfl

end weights

/-- What a run has brought of the answers to one call, and what is still on its way: to the routes `names`, from
    them, to the counters, to the list of errors and to the callback. -/
structure Awaiting (k : FanOutId) (names : Multiset String) (callback : Option CallbackId) (base : Metrics)
    (es : List Event) (e : Engine) (f : FanOut) : Prop where
  fanOut : e.fanOuts[k]? = some f
  routes : ((replies k es).map Reply.route : List String) + awaited k e.acks + tally (trying k) e = names
  pending : f.pending = (awaited k e.acks).card + tally (due k) e
  results : (counted k es : Multiset (Except LogError Unit)) + tally (counting k) e =
    ((replies k es).map Reply.result : List (Except LogError Unit))
  errors : (recorded k es : Multiset LogError) + tally (recording k) e =
    ((replies k es).filterMap Reply.error? : List LogError)
  telling : tally (Engine.telling k) e + tellings k es = if f.pending = 0 then 1 else 0
  untold : tellings k es = 0 → f.errors = recorded k es ∧ f.callback = callback
  unique : ((replies k es).map Reply.ack).Nodup
  answered : ∀ r ∈ replies k es, ∃ x, e.acks[r.ack]? = some x ∧ x.answered = true
  delivered : base.delivered + (counted k es).countP Except.isOk ≤ e.metrics.delivered
  failed : base.failed + (counted k es).countP (!Except.isOk ·) ≤ e.metrics.failed

section snoc
variable (k : FanOutId) (es : List Event) (ev : Event)

@[simp] theorem replies_snoc : replies k (es ++ [ev]) = replies k es ++ (ev.reply? k).toList := by
  cases h : ev.reply? k <;> simp [replies, h]

@[simp] theorem counted_snoc : counted k (es ++ [ev]) = counted k es ++ (ev.counted? k).toList := by
  cases h : ev.counted? k <;> simp [counted, h]

@[simp] theorem recorded_snoc : recorded k (es ++ [ev]) = recorded k es ++ (ev.recorded? k).toList := by
  cases h : ev.recorded? k <;> simp [recorded, h]

@[simp] theorem tellings_snoc : tellings k (es ++ [ev]) = tellings k es + if ev.tells k then 1 else 0 := by
  simp [tellings, List.countP_append, List.countP_singleton]

end snoc

/-- What an event moves along towards the callback: nothing is lost, and nothing comes twice. -/
structure Balance (k : FanOutId) (ev : Event) (f f' : FanOut) : Prop where
  fanOut : ev.after.fanOuts[k]? = some f'
  routes : ((ev.reply? k).toList.map Reply.route : List String) + awaited k ev.after.acks +
    tally (trying k) ev.after = awaited k ev.before.acks + tally (trying k) ev.before
  pending : f'.pending + ((awaited k ev.before.acks).card + tally (due k) ev.before) =
    f.pending + ((awaited k ev.after.acks).card + tally (due k) ev.after)
  results : ((ev.counted? k).toList : Multiset (Except LogError Unit)) + tally (counting k) ev.after =
    tally (counting k) ev.before + ((ev.reply? k).toList.map Reply.result : List (Except LogError Unit))
  errors : ((ev.recorded? k).toList : Multiset LogError) + tally (recording k) ev.after =
    tally (recording k) ev.before + ((ev.reply? k).toList.filterMap Reply.error? : List LogError)
  telling : tally (Engine.telling k) ev.after + (if ev.tells k then 1 else 0) + (if f.pending = 0 then 1 else 0) =
    tally (Engine.telling k) ev.before + if f'.pending = 0 then 1 else 0
  untold : ev.tells k = false → f'.errors = f.errors ++ (ev.recorded? k).toList ∧ f'.callback = f.callback
  first : ∀ r, ev.reply? k = some r → (∃ x, ev.before.acks[r.ack]? = some x ∧ x.answered = false) ∧
    ∃ x, ev.after.acks[r.ack]? = some x ∧ x.answered = true
  delivered : ev.before.metrics.delivered + (ev.counted? k).toList.countP Except.isOk ≤ ev.after.metrics.delivered
  failed : ev.before.metrics.failed + (ev.counted? k).toList.countP (!Except.isOk ·) ≤ ev.after.metrics.failed

section steps
variable {e e' : Engine} {task : TaskId} {a : Action} {m : Move} {rest : List Action} {k : FanOutId} {f f' : FanOut}
  {names : Multiset String} {callback : Option CallbackId} {base : Metrics} {es : List Event} {op : Op}
  {fx : List Effect}

/-- An acknowledgement that has been answered stays so. -/
theorem step_answered (hs : e.step? op = some (e', fx)) {i : AckId} {x : Ack} (hx : e.acks[i]? = some x)
    (hans : x.answered = true) : ∃ y, e'.acks[i]? = some y ∧ y.answered = true := by
  have hlt := (List.getElem?_eq_some_iff.mp hx).1
  rcases step_cases hs with ⟨request, -, hb, -⟩ | ⟨task, a, rest, m, -, -, hdoes, rfl, -⟩
  · obtain ⟨-, -, -, hcalm⟩ := begin_cases hb
    rw [hcalm.acks]
    exact ⟨x, hx, hans⟩
  · show ∃ y, m.engine.acks[i]? = some y ∧ _
    rcases hdoes.acks with heq | ⟨_, _, _, _, -, -, heq⟩ | ⟨j, _, y, -, -, -, heq⟩ <;> rw [heq]
    · exact ⟨x, hx, hans⟩
    · exact ⟨x, (List.getElem?_append_left hlt).trans hx, hans⟩
    · by_cases hij : j = i
      · subst hij
        exact ⟨_, List.getElem?_set_self hlt, rfl⟩
      · exact ⟨x, (List.getElem?_set_ne hij).trans hx, hans⟩

/-- Events that are balanced keep the account of the run. -/
theorem Awaiting.step (h : Awaiting k names callback base es e f) (hs : e.step? op = some (e', fx))
    (hb : Balance k ⟨e, op, e', fx⟩ f f') : Awaiting k names callback base (es ++ [⟨e, op, e', fx⟩]) e' f' := by
  refine ⟨hb.fanOut, ?_, ?_, ?_, ?_, ?_, ?_, ?_, ?_, ?_, ?_⟩
  · rw [← h.routes, replies_snoc, List.map_append, ← Multiset.coe_add, add_assoc, add_assoc, add_assoc, ← hb.routes]
    rw [add_assoc]
  · have := h.pending
    have := hb.pending
    dsimp only at this
    omega
  · rw [counted_snoc, replies_snoc, List.map_append, ← Multiset.coe_add, ← Multiset.coe_add, ← h.results, add_assoc,
      add_assoc, ← hb.results]
  · rw [recorded_snoc, replies_snoc, List.filterMap_append, ← Multiset.coe_add, ← Multiset.coe_add, ← h.errors,
      add_assoc, add_assoc, ← hb.errors]
  · have := h.telling
    have := hb.telling
    rw [tellings_snoc]
    dsimp only at this
    omega
  · intro htold
    have hnone : tellings k es = 0 ∧ Event.tells k ⟨e, op, e', fx⟩ = false := by simpa using htold
    obtain ⟨herrors, hcallback⟩ := h.untold hnone.1
    obtain ⟨herrors', hcallback'⟩ := hb.untold hnone.2
    rw [recorded_snoc, herrors', hcallback', herrors, hcallback]
    exact ⟨rfl, rfl⟩
  · rw [replies_snoc, List.map_append]
    refine List.nodup_append.mpr ⟨h.unique, ?_, fun i hi j hj => ?_⟩
    · cases Event.reply? k ⟨e, op, e', fx⟩ <;> simp
    · obtain ⟨r, hr, rfl⟩ := List.mem_map.mp hi
      obtain ⟨r', hr', rfl⟩ := List.mem_map.mp hj
      obtain ⟨x, hx, hans⟩ := h.answered r hr
      obtain ⟨⟨x', hx', hopen⟩, -⟩ := hb.first r' (Option.mem_toList.mp hr')
      rintro heq
      rw [heq] at hx
      obtain rfl := Option.some.inj (hx.symm.trans hx')
      rw [hans] at hopen
      cases hopen
  · intro r hr
    rw [replies_snoc] at hr
    rcases List.mem_append.mp hr with hr | hr
    · obtain ⟨x, hx, hans⟩ := h.answered r hr
      exact step_answered hs hx hans
    · exact (hb.first r (Option.mem_toList.mp hr)).2
  · rw [counted_snoc, List.countP_append]
    have := h.delivered
    have := hb.delivered
    dsimp only at this
    omega
  · rw [counted_snoc, List.countP_append]
    have := h.failed
    have := hb.failed
    dsimp only at this
    omega

/-! ### The steps towards a callback -/

theorem awaitedRoute_eq_zero {x : Ack} (h : x.awaits k = false) : awaitedRoute k x = 0 := by simp [awaitedRoute, h]

theorem weigh_outside {M : Type} [AddCommMonoid M] {w : Action → M} (hw : Weighs k w) {next : List Action}
    (h : isOutside next = true) : weigh w next = 0 :=
  weigh_eq_zero fun b hb => hw b (by rw [fanOut?_of_outside h hb]; nofun)

/-- The event by which a task does an action. -/
abbrev doing (e : Engine) (op : Op) (task : TaskId) (rest : List Action) (m : Move) : Event :=
  ⟨e, op, m.engine.setAgenda task (m.next ++ rest), m.effects⟩

namespace Balance

/-- An event that has nothing to do with the fan-out. -/
theorem idle {ev : Event} (hf : ev.after.fanOuts[k]? = some f) (hreply : ev.reply? k = none)
    (hcounted : ev.counted? k = none) (hrecorded : ev.recorded? k = none) (htells : ev.tells k = false)
    (hawaited : awaited k ev.after.acks = awaited k ev.before.acks)
    (htally : ∀ {M : Type} [AddCommMonoid M] (w : Action → M), Weighs k w → tally w ev.after = tally w ev.before)
    (hmetrics : ev.before.metrics.delivered ≤ ev.after.metrics.delivered ∧
      ev.before.metrics.failed ≤ ev.after.metrics.failed) : Balance k ev f f where
  fanOut := hf
  routes := by simp [hreply, hawaited, htally _ weighs_trying]
  pending := by rw [hawaited, htally _ weighs_due]
  results := by simp [hreply, hcounted, htally _ weighs_counting]
  errors := by simp [hreply, hrecorded, htally _ weighs_recording]
  telling := by simp [htells, htally _ weighs_telling]
  untold _ := by simp [hrecorded]
  first r hr := by
    rw [hreply] at hr
    cases hr
  delivered := by simpa [hcounted] using hmetrics.1
  failed := by simpa [hcounted] using hmetrics.2

theorem begin_step {request : Request} (hb : e.begin? request = some e') (hf : e.fanOuts[k]? = some f) :
    Balance k ⟨e, .begin request, e', []⟩ f f := by
  obtain ⟨opening, hopen, hagendas, hcalm⟩ := begin_cases hb
  refine idle ?_ rfl rfl rfl rfl ?_ (fun w hw => ?_) ?_
  · rw [hcalm.fanOuts]
    exact hf
  · rw [hcalm.acks]
  · rw [tally_begin w hagendas, weigh_outside hw hopen.outside, add_zero]
  · rw [hcalm.metrics]
    exact ⟨Nat.le_refl _, Nat.le_refl _⟩

/-- Steps of other fan-outs and answers to others leave this one alone. -/
theorem other (hf : e.fanOuts[k]? = some f) (hagenda : e.agendas[task]? = some (a :: rest))
    (hdoes : Does (e.setAgenda task rest) task a m) (haction : (doing e op task rest m).action? = some a)
    (ha : a.fanOut? ≠ some k)
    (hanswer : ∀ i answer x, a = .answer i answer → e.acks[i]? = some x → x.answered = false → x.fanOut ≠ k) :
    Balance k (doing e op task rest m) f f := by
  have hk := (List.getElem?_eq_some_iff.mp hf).1
  refine idle ?_ ?_ ?_ ?_ ?_ ?_ (fun w hw => ?_) hdoes.metrics
  · exact (hdoes.fanOuts_other hk ha).trans hf
  · rw [Event.reply?, haction]
    cases a with
    | answer i answer =>
      dsimp only
      split
      · rename_i x hx
        refine if_neg fun hawaits => ?_
        simp only [Ack.awaits, Bool.and_eq_true, beq_iff_eq, Bool.not_eq_true'] at hawaits
        exact hanswer i answer x rfl hx hawaits.2 hawaits.1
      · rfl
    | _ => rfl
  · rw [Event.counted?, haction]
    cases a with
    | count j result => exact if_neg fun h => ha (by rw [← h]; rfl)
    | _ => rfl
  · rw [Event.recorded?, haction]
    cases a with
    | record j error => exact if_neg fun h => ha (by rw [← h]; rfl)
    | _ => rfl
  · rw [Event.tells, haction]
    cases a with
    | tell j => exact beq_eq_false_iff_ne.mpr fun h => ha (by rw [← h]; rfl)
    | _ => rfl
  · rw [acks_setAgenda]
    rcases hdoes.acks with heq | ⟨g, j, d, route, rfl, -, heq⟩ | ⟨i, answer, x, rfl, hx, hopen, heq⟩ <;>
      rw [heq, acks_setAgenda]
    · have hzero : awaitedRoute k ⟨route.name, j, false⟩ = 0 := by
        refine awaitedRoute_eq_zero ?_
        simpa [Ack.awaits] using fun h => ha (by rw [← h]; rfl)
      rw [awaited_append, hzero, add_zero]
    · have hset := awaited_set (k := k) hx { x with answered := true }
      have hbefore : awaitedRoute k x = 0 :=
        awaitedRoute_eq_zero (by simp [Ack.awaits, hanswer i answer x rfl hx hopen])
      have hafter : awaitedRoute k { x with answered := true } = 0 := awaitedRoute_eq_zero (by simp [Ack.awaits])
      rwa [hbefore, hafter, add_zero, add_zero] at hset
  · have hnext : weigh w m.next = 0 := by
      refine weigh_eq_zero fun b hb => hw b fun hbk => ?_
      rcases hdoes.next.fanOut hb hbk with h | ⟨i, answer, x, rfl, hx, hopen, hfan⟩ | ⟨g, ds, cb, -, hlen⟩
      · exact ha h
      · exact hanswer i answer x rfl hx hopen hfan
      · exact absurd hlen (Nat.ne_of_lt hk)
    simpa [hw a ha, hnext] using tally_does w hagenda hdoes

/-- A route is tried, and waited for from then on. -/
theorem attempt {g : Generation} {d : Delivery} {route : Route} (hf : e.fanOuts[k]? = some f)
    (hroute : g.routes[d.route]? = some route) (hagenda : e.agendas[task]? = some (.attempt g k d :: rest))
    (hdoes : Does (e.setAgenda task rest) task (.attempt g k d) m)
    (haction : (doing e op task rest m).action? = some (.attempt g k d)) :
    Balance k (doing e op task rest m) f f := by
  have houtside : isOutside m.next = true := by
    generalize hnext : m.next = next
    cases hnext ▸ hdoes.next <;> rfl
  have hframe := hdoes.frame
  dsimp only [Action.Changes] at hframe
  have hawaited : awaited k (m.engine.setAgenda task (m.next ++ rest)).acks = awaited k e.acks + {route.name} := by
    rw [acks_setAgenda, does_attempt hroute hdoes, acks_setAgenda, awaited_append]
    simp [awaitedRoute, Ack.awaits]
  have htally : ∀ {M : Type} [AddCommMonoid M] (w : Action → M), Weighs k w →
      tally w (m.engine.setAgenda task (m.next ++ rest)) + w (.attempt g k d) = tally w e := fun w hw => by
    rw [tally_does w hagenda hdoes, weigh_outside hw houtside, add_zero]
  have htrying := htally _ weighs_trying
  have hdue := htally _ weighs_due
  have hcounting := htally _ weighs_counting
  have hrecording := htally _ weighs_recording
  have htelling := htally _ weighs_telling
  simp only [trying, due, counting, recording, Engine.telling, if_true, routeName, hroute, Option.toList_some,
    List.map_cons, List.map_nil, Multiset.coe_singleton, add_zero] at htrying hdue hcounting hrecording htelling
  have hreply : (doing e op task rest m).reply? k = none := by simp [Event.reply?, haction]
  have hcounted : (doing e op task rest m).counted? k = none := by simp [Event.counted?, haction]
  have hrecorded : (doing e op task rest m).recorded? k = none := by simp [Event.recorded?, haction]
  have htells : (doing e op task rest m).tells k = false := by simp [Event.tells, haction]
  exact {
    fanOut := by
      show m.engine.fanOuts[k]? = _
      rw [hframe]
      exact hf
    routes := by
      rw [hreply, hawaited, ← htrying]
      simp only [Option.toList_none, List.map_nil, Multiset.coe_nil, zero_add]
      ac_rfl
    pending := by
      rw [hawaited, Multiset.card_add, Multiset.card_singleton, ← hdue]
      dsimp only [doing]
      omega
    results := by simp [hreply, hcounted, hcounting]
    errors := by simp [hreply, hrecorded, hrecording]
    telling := by simp [htells, htelling]
    untold := fun _ => by simp [hrecorded]
    first := fun r hr => by
      rw [hreply] at hr
      cases hr
    delivered := by simpa [hcounted] using hdoes.metrics.1
    failed := by simpa [hcounted] using hdoes.metrics.2 }

/-- A route answers for the first time. -/
theorem answer {i : AckId} {answer : Answer} {x : Ack} (hf : e.fanOuts[k]? = some f) (hx : e.acks[i]? = some x)
    (hopen : x.answered = false) (hfan : x.fanOut = k) (hagenda : e.agendas[task]? = some (.answer i answer :: rest))
    (hdoes : Does (e.setAgenda task rest) task (.answer i answer) m)
    (haction : (doing e op task rest m).action? = some (.answer i answer)) :
    Balance k (doing e op task rest m) f f := by
  obtain ⟨hacks, hnext⟩ := does_answer (e := e.setAgenda task rest) hx hopen hdoes
  have hframe := hdoes.frame
  dsimp only [Action.Changes] at hframe
  have hawaited : awaited k (m.engine.setAgenda task (m.next ++ rest)).acks + {x.route} = awaited k e.acks := by
    have hset := awaited_set (k := k) hx { x with answered := true }
    have hafter : awaitedRoute k { x with answered := true } = 0 := awaitedRoute_eq_zero (by simp [Ack.awaits])
    have hbefore : awaitedRoute k x = {x.route} := by simp [awaitedRoute, Ack.awaits, hfan, hopen]
    rw [acks_setAgenda, hacks, acks_setAgenda]
    rwa [hafter, hbefore, add_zero] at hset
  have htally : ∀ {M : Type} [AddCommMonoid M] (w : Action → M), Weighs k w →
      tally w (m.engine.setAgenda task (m.next ++ rest)) =
        tally w e + weigh w (answerSteps k (answer.result x.route)) := fun w hw => by
    have hzero : w (.answer i answer) = 0 := hw _ nofun
    have := tally_does w hagenda hdoes
    rw [hzero, add_zero] at this
    rw [this, hnext, hfan]
  have htrying := htally _ weighs_trying
  have hdue := htally _ weighs_due
  have hcounting := htally _ weighs_counting
  have hrecording := htally _ weighs_recording
  have htelling := htally _ weighs_telling
  have hreply : (doing e op task rest m).reply? k = some ⟨i, x.route, answer⟩ := by
    simp [Event.reply?, haction, hx, Ack.awaits, hfan, hopen]
  have hcounted : (doing e op task rest m).counted? k = none := by simp [Event.counted?, haction]
  have hrecorded : (doing e op task rest m).recorded? k = none := by simp [Event.recorded?, haction]
  have htells : (doing e op task rest m).tells k = false := by simp [Event.tells, haction]
  have hsteps : weigh (trying k) (answerSteps k (answer.result x.route)) = 0 ∧
      weigh (due k) (answerSteps k (answer.result x.route)) = 1 ∧
      weigh (counting k) (answerSteps k (answer.result x.route)) = {answer.result x.route} ∧
      weigh (recording k) (answerSteps k (answer.result x.route)) =
        ((Reply.error? ⟨i, x.route, answer⟩).toList : List LogError) ∧
      weigh (Engine.telling k) (answerSteps k (answer.result x.route)) = 0 := by
    simp only [Reply.error?, Reply.result]
    cases answer.result x.route <;> simp [answerSteps, trying, due, counting, recording, Engine.telling]
  obtain ⟨hsteps₁, hsteps₂, hsteps₃, hsteps₄, hsteps₅⟩ := hsteps
  have hlt := (List.getElem?_eq_some_iff.mp hx).1
  exact {
    fanOut := by
      show m.engine.fanOuts[k]? = _
      rw [hframe]
      exact hf
    routes := by
      rw [hreply, htrying, hsteps₁, ← hawaited]
      simp only [Option.toList_some, List.map_cons, List.map_nil, Multiset.coe_singleton, add_zero]
      ac_rfl
    pending := by
      rw [← hawaited, hdue, hsteps₂, Multiset.card_add, Multiset.card_singleton]
      dsimp only [doing]
      omega
    results := by simp [hreply, hcounted, hcounting, hsteps₃, Reply.result]
    errors := by
      rw [hreply, hrecorded, hrecording, hsteps₄]
      cases hr : Reply.error? ⟨i, x.route, answer⟩ <;> simp [hr]
    telling := by simp [htells, htelling, hsteps₅]
    untold := fun _ => by simp [hrecorded]
    first := fun r hr => by
      obtain rfl := Option.some.inj (hreply.symm.trans hr)
      refine ⟨⟨x, hx, hopen⟩, { x with answered := true }, ?_, rfl⟩
      show m.engine.acks[i]? = _
      rw [hacks]
      exact List.getElem?_set_self hlt
    delivered := by simpa [hcounted] using hdoes.metrics.1
    failed := by simpa [hcounted] using hdoes.metrics.2 }

/-- A step of the fan-out itself, which leaves the acknowledgements alone. -/
theorem own_step (hagenda : e.agendas[task]? = some (a :: rest)) (hdoes : Does (e.setAgenda task rest) task a m)
    (hacks : m.engine.acks = e.acks) (hreply : (doing e op task rest m).reply? k = none)
    (hfanOut : m.engine.fanOuts[k]? = some f') (htrying : trying k a = weigh (trying k) m.next)
    (hpending : f'.pending + due k a = f.pending + weigh (due k) m.next)
    (hcounting : ((Event.counted? k (doing e op task rest m)).toList : Multiset (Except LogError Unit)) +
      weigh (counting k) m.next = counting k a)
    (hrecording : ((Event.recorded? k (doing e op task rest m)).toList : Multiset LogError) +
      weigh (recording k) m.next = recording k a)
    (htelling : weigh (Engine.telling k) m.next + (if (doing e op task rest m).tells k then 1 else 0) +
      (if f.pending = 0 then 1 else 0) = Engine.telling k a + if f'.pending = 0 then 1 else 0)
    (huntold : (doing e op task rest m).tells k = false →
      f'.errors = f.errors ++ (Event.recorded? k (doing e op task rest m)).toList ∧ f'.callback = f.callback)
    (hdelivered : e.metrics.delivered + ((doing e op task rest m).counted? k).toList.countP Except.isOk ≤
      m.engine.metrics.delivered)
    (hfailed : e.metrics.failed + ((doing e op task rest m).counted? k).toList.countP (!Except.isOk ·) ≤
      m.engine.metrics.failed) : Balance k (doing e op task rest m) f f' where
  fanOut := hfanOut
  routes := by
    have h := tally_does (trying k) hagenda hdoes
    rw [htrying] at h
    rw [hreply]
    show (0 : Multiset String) + awaited k m.engine.acks + _ = _
    rw [hacks, zero_add, add_right_cancel h]
  pending := by
    have h := tally_does (due k) hagenda hdoes
    rw [acks_setAgenda, hacks]
    dsimp only [doing]
    omega
  results := by
    have h := tally_does (counting k) hagenda hdoes
    rw [← hcounting, ← add_assoc] at h
    rw [hreply]
    show _ + tally (counting k) _ = tally (counting k) e + 0
    rw [add_zero, add_comm]
    exact add_right_cancel h
  errors := by
    have h := tally_does (recording k) hagenda hdoes
    rw [← hrecording, ← add_assoc] at h
    rw [hreply]
    show _ + tally (recording k) _ = tally (recording k) e + 0
    rw [add_zero, add_comm]
    exact add_right_cancel h
  telling := by
    have h := tally_does (Engine.telling k) hagenda hdoes
    show tally (Engine.telling k) (m.engine.setAgenda task (m.next ++ rest)) + _ + _ = tally (Engine.telling k) e + _
    omega
  untold := huntold
  first r hr := by
    rw [hreply] at hr
    cases hr
  delivered := hdelivered
  failed := hfailed

theorem count {result : Except LogError Unit} (hf : e.fanOuts[k]? = some f)
    (hagenda : e.agendas[task]? = some (.count k result :: rest))
    (hdoes : Does (e.setAgenda task rest) task (.count k result) m)
    (haction : (doing e op task rest m).action? = some (.count k result)) : Balance k (doing e op task rest m) f f := by
  have hcounted : (doing e op task rest m).counted? k = some result := by simp [Event.counted?, haction]
  have hrecorded : (doing e op task rest m).recorded? k = none := by simp [Event.recorded?, haction]
  have htells : (doing e op task rest m).tells k = false := by simp [Event.tells, haction]
  obtain rfl := does_count hdoes
  refine own_step hagenda hdoes rfl (by simp [Event.reply?, haction]) hf rfl rfl ?_ ?_ ?_ ?_ ?_ ?_
  · rw [hcounted]
    simp [Engine.count, counting]
  · rw [hrecorded]
    simp [Engine.count, recording]
  · rw [htells]
    simp [Engine.count, Engine.telling]
  · rw [hrecorded]
    simp
  · rw [hcounted]
    cases result <;> exact Nat.le_refl _
  · rw [hcounted]
    cases result <;> exact Nat.le_refl _

theorem record {error : LogError} (hf : e.fanOuts[k]? = some f)
    (hagenda : e.agendas[task]? = some (.record k error :: rest))
    (hdoes : Does (e.setAgenda task rest) task (.record k error) m)
    (haction : (doing e op task rest m).action? = some (.record k error)) :
    Balance k (doing e op task rest m) f (f.record error) := by
  have hcounted : (doing e op task rest m).counted? k = none := by simp [Event.counted?, haction]
  have hrecorded : (doing e op task rest m).recorded? k = some error := by simp [Event.recorded?, haction]
  have htells : (doing e op task rest m).tells k = false := by simp [Event.tells, haction]
  have hlt := (List.getElem?_eq_some_iff.mp hf).1
  obtain rfl := does_record (e := e.setAgenda task rest) hf hdoes
  refine own_step hagenda hdoes rfl (by simp [Event.reply?, haction]) (List.getElem?_set_self hlt) rfl rfl
    ?_ ?_ ?_ ?_ ?_ ?_
  · rw [hcounted]
    simp [counting]
  · rw [hrecorded]
    simp [recording]
  · rw [htells, show (f.record error).pending = f.pending from rfl]
    simp [Engine.telling]
  · rw [hrecorded]
    simp [FanOut.record]
  · rw [hcounted]
    simp [setFanOut]
  · rw [hcounted]
    simp [setFanOut]

/-- An answer arrives. The callback will be told when it is the last one. -/
theorem arrive (hf : e.fanOuts[k]? = some f) (hpos : 0 < f.pending)
    (hagenda : e.agendas[task]? = some (.arrive k :: rest)) (hdoes : Does (e.setAgenda task rest) task (.arrive k) m)
    (haction : (doing e op task rest m).action? = some (.arrive k)) :
    Balance k (doing e op task rest m) f f.arrive := by
  have hcounted : (doing e op task rest m).counted? k = none := by simp [Event.counted?, haction]
  have hrecorded : (doing e op task rest m).recorded? k = none := by simp [Event.recorded?, haction]
  have htells : (doing e op task rest m).tells k = false := by simp [Event.tells, haction]
  have hlt := (List.getElem?_eq_some_iff.mp hf).1
  have hlast : f.isLast = true ↔ f.arrive.pending = 0 := by
    simp only [FanOut.isLast, FanOut.arrive, beq_iff_eq]
    omega
  obtain rfl := does_arrive (e := e.setAgenda task rest) hf hdoes
  refine own_step hagenda hdoes rfl (by simp [Event.reply?, haction]) (List.getElem?_set_self hlt) ?_ ?_
    ?_ ?_ ?_ ?_ ?_ ?_
  · cases f.isLast <;> rfl
  · have hnext : weigh (due k) (if f.isLast then [Action.tell k] else []) = 0 := by cases f.isLast <;> rfl
    rw [hnext]
    simp only [due, if_true, FanOut.arrive]
    omega
  · rw [hcounted]
    cases f.isLast <;> rfl
  · rw [hrecorded]
    cases f.isLast <;> rfl
  · rw [htells]
    by_cases hzero : f.arrive.pending = 0
    · rw [if_pos (hlast.mpr hzero), if_neg (Nat.ne_of_gt hpos), if_pos hzero]
      simp [Engine.telling]
    · rw [if_neg fun h => hzero (hlast.mp h), if_neg (Nat.ne_of_gt hpos), if_neg hzero]
      simp [Engine.telling]
  · rw [hrecorded]
    simp [FanOut.arrive]
  · rw [hcounted]
    simp [setFanOut]
  · rw [hcounted]
    simp [setFanOut]

theorem tell (hf : e.fanOuts[k]? = some f) (hagenda : e.agendas[task]? = some (.tell k :: rest))
    (hdoes : Does (e.setAgenda task rest) task (.tell k) m)
    (haction : (doing e op task rest m).action? = some (.tell k)) : Balance k (doing e op task rest m) f f.finish := by
  have hcounted : (doing e op task rest m).counted? k = none := by simp [Event.counted?, haction]
  have hrecorded : (doing e op task rest m).recorded? k = none := by simp [Event.recorded?, haction]
  have htells : (doing e op task rest m).tells k = true := by simp [Event.tells, haction]
  have hlt := (List.getElem?_eq_some_iff.mp hf).1
  obtain rfl := does_tell (e := e.setAgenda task rest) hf hdoes
  refine own_step hagenda hdoes rfl (by simp [Event.reply?, haction]) (List.getElem?_set_self hlt) rfl rfl
    ?_ ?_ ?_ ?_ ?_ ?_
  · rw [hcounted]
    simp [counting]
  · rw [hrecorded]
    simp [recording]
  · rw [htells, show f.finish.pending = f.pending from rfl]
    simp [Engine.telling]
  · rw [htells]
    simp
  · rw [hcounted]
    simp [setFanOut]
  · rw [hcounted]
    simp [setFanOut]

end Balance

/-! ### From the beginning of a call to its callback -/

/-- Every event is balanced, as long as each delivery is for a route that exists. -/
theorem exists_balance {known : List Generation} (hl : Lineage e known) (h : Awaiting k names callback base es e f)
    (hs : e.step? op = some (e', fx)) : ∃ f', Balance k ⟨e, op, e', fx⟩ f f' := by
  rcases step_cases hs with ⟨request, rfl, hb, rfl⟩ | ⟨task, a, rest, m, htask, hagenda, hdoes, rfl, rfl⟩
  · exact ⟨f, .begin_step hb h.fanOut⟩
  · have haction : (doing e op task rest m).action? = some a := action?_of_task htask hagenda
    have hmem := List.mem_of_getElem? hagenda
    by_cases ha : a.fanOut? = some k
    · cases a with
      | attempt g j d =>
        obtain rfl := Option.some.inj ha
        have hlt := (hl.rooted _ hmem).1.2
        exact ⟨f, .attempt h.fanOut (List.getElem?_eq_getElem hlt) hagenda hdoes haction⟩
      | count j result =>
        obtain rfl := Option.some.inj ha
        exact ⟨f, .count h.fanOut hagenda hdoes haction⟩
      | record j error =>
        obtain rfl := Option.some.inj ha
        exact ⟨_, .record h.fanOut hagenda hdoes haction⟩
      | arrive j =>
        obtain rfl := Option.some.inj ha
        have hdue : due j (.arrive j) = 1 := if_pos rfl
        have hle := le_tally (w := due j) hmem List.mem_cons_self
        have hpending := h.pending
        exact ⟨_, .arrive h.fanOut (by omega) hagenda hdoes haction⟩
      | tell j =>
        obtain rfl := Option.some.inj ha
        exact ⟨_, .tell h.fanOut hagenda hdoes haction⟩
      | _ => cases ha
    · by_cases hanswer : ∀ i answer x, a = .answer i answer → e.acks[i]? = some x → x.answered = false → x.fanOut ≠ k
      · exact ⟨f, .other h.fanOut hagenda hdoes haction ha hanswer⟩
      · push Not at hanswer
        obtain ⟨i, answer, x, rfl, hx, hopen, hfan⟩ := hanswer
        exact ⟨f, .answer h.fanOut hx hopen hfan hagenda hdoes haction⟩

theorem Awaiting.run {known : List Generation} (ho : Orderly e) (hl : Lineage e known)
    (h : Awaiting k names callback base [] e f) (hr : Run e es e') :
    ∃ f', Awaiting k names callback base es e' f' := by
  induction hr with
  | refl => exact ⟨f, h⟩
  | step hr hs ih =>
    obtain ⟨f₁, h₁⟩ := ih
    obtain ⟨f₂, hb⟩ := exists_balance (hl.run ho hr) h₁ hs
    exact ⟨f₂, h₁.step hs hb⟩

end steps

end LogDispatch.Engine
