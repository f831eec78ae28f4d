import LogDispatch.Proofs.FanOut.Balance

/-! The callback of a call. The steps by which answers are taken may come in any order; still the callback is told
    once, after the last answer, of every error. -/

namespace LogDispatch

namespace Engine

section steps
variable {e e' : Engine} {task : TaskId} {a : Action} {m : Move} {rest : List Action} {k : FanOutId} {f f' : FanOut}
  {names : Multiset String} {callback : Option CallbackId} {base : Metrics} {es : List Event} {op : Op}
  {fx : List Effect}

/-- The names of the routes of some deliveries. -/
def routeNames (g : Generation) (deliveries : List Delivery) : List String :=
  deliveries.flatMap fun d => (g.routes[d.route]?).toList.map (·.name)

theorem weigh_trying (g : Generation) (deliveries : List Delivery) :
    weigh (trying k) (deliveries.map (.attempt g k)) = (routeNames g deliveries : Multiset String) := by
  induction deliveries with
  | nil => rfl
  | cons d ds ih =>
    rw [List.map_cons, weigh_cons, ih, routeNames, routeNames, List.flatMap_cons, ← Multiset.coe_add]
    congr 1
    exact if_pos rfl

theorem weigh_due (g : Generation) (deliveries : List Delivery) :
    weigh (due k) (deliveries.map (.attempt g k)) = deliveries.length := by
  induction deliveries with
  | nil => rfl
  | cons d ds ih =>
    have hdue : due k (.attempt g k d) = 1 := if_pos rfl
    rw [List.map_cons, weigh_cons, ih, hdue, List.length_cons, Nat.add_comm]

theorem weigh_attempts_eq_zero {M : Type} [AddCommMonoid M] {w : Action → M} {g : Generation}
    (hw : ∀ d, w (.attempt g k d) = 0) (deliveries : List Delivery) :
    weigh w (deliveries.map (.attempt g k)) = 0 := by
  refine weigh_eq_zero fun a ha => ?_
  obtain ⟨d, -, rfl⟩ := List.mem_map.mp ha
  exact hw d

theorem Numbered.tally_eq_zero {M : Type} [AddCommMonoid M] (h : Numbered e) {w : Action → M}
    (hw : Weighs e.fanOuts.length w) : tally w e = 0 :=
  Engine.tally_eq_zero fun agenda hagenda a ha => hw a fun hk =>
    absurd (h.actions agenda hagenda a ha _ hk) (Nat.lt_irrefl _)

/-- A call that starts to wait for its answers owes each of them. -/
theorem Awaiting.fan {g : Generation} {deliveries : List Delivery} (hn : Numbered e)
    (hagenda : e.agendas[task]? = some (.fan g deliveries callback :: rest))
    (hs : e.step? (.advance task) = some (e', fx)) :
    Awaiting e.fanOuts.length (routeNames g deliveries) callback e'.metrics [] e'
      { pending := deliveries.length, callback } := by
  rcases step_agenda hs hagenda with ⟨hne, -⟩ | ⟨a, rest', m, -, heq, hdoes, rfl, -, -⟩
  · exact absurd rfl hne
  · obtain ⟨rfl, rfl⟩ := List.cons.inj heq
    have hm := does_fan hdoes
    have hnext : m.next = if deliveries.isEmpty then [.tell e.fanOuts.length]
        else deliveries.map (.attempt g e.fanOuts.length) := by rw [hm]; rfl
    have htally : ∀ {M : Type} [AddCommMonoid M] (w : Action → M), Weighs e.fanOuts.length w →
        tally w (m.engine.setAgenda task (m.next ++ rest)) = weigh w m.next := fun w hw => by
      have h := tally_does w hagenda hdoes
      rwa [hn.tally_eq_zero hw, hw _ (by simp [Action.fanOut?]), add_zero, zero_add] at h
    have hacks : (m.engine.setAgenda task (m.next ++ rest)).acks = e.acks := by rw [hm]; rfl
    have hawaited : awaited e.fanOuts.length e.acks = 0 := by
      refine List.sum_eq_zero fun y hy => ?_
      obtain ⟨x, hx, rfl⟩ := List.mem_map.mp hy
      refine awaitedRoute_eq_zero ?_
      simp [Ack.awaits, Nat.ne_of_lt (hn.acks x hx)]
    have hfanOut : (m.engine.setAgenda task (m.next ++ rest)).fanOuts[e.fanOuts.length]? =
        some { pending := deliveries.length, callback } := by
      rw [fanOuts_setAgenda, hm]
      exact List.getElem?_concat_length
    refine ⟨hfanOut, ?_, ?_, ?_, ?_, ?_, fun _ => ⟨rfl, rfl⟩, .nil, fun r hr => absurd hr List.not_mem_nil,
      Nat.le_refl _, Nat.le_refl _⟩
    · rw [htally _ weighs_trying, hacks, hawaited, hnext]
      show (0 : Multiset String) + 0 + _ = _
      rw [zero_add, zero_add]
      cases deliveries with
      | nil => rfl
      | cons d ds => exact weigh_trying g (d :: ds)
    · rw [htally _ weighs_due, hacks, hawaited, hnext]
      cases deliveries with
      | nil => rfl
      | cons d ds => exact ((Nat.zero_add _).trans (weigh_due g (d :: ds))).symm
    · rw [htally _ weighs_counting, hnext]
      cases deliveries with
      | nil => rfl
      | cons d ds => exact (zero_add _).trans (weigh_attempts_eq_zero (fun _ => rfl) (d :: ds))
    · rw [htally _ weighs_recording, hnext]
      cases deliveries with
      | nil => rfl
      | cons d ds => exact (zero_add _).trans (weigh_attempts_eq_zero (fun _ => rfl) (d :: ds))
    · rw [htally _ weighs_telling, hnext]
      cases deliveries with
      | nil => simp [Engine.telling, tellings]
      | cons d ds => exact weigh_attempts_eq_zero (fun _ => rfl) (d :: ds)

/-- Whoever still has to count an answer or to record an error has the arrival of the answer before them. -/
theorem arrive_mem_of_count {agenda : List Action} (h : Arranged agenda)
    (hmem : (∃ result, .count k result ∈ agenda) ∨ ∃ error, .record k error ∈ agenda) : .arrive k ∈ agenda := by
  induction h with
  | nil => rcases hmem with ⟨result, hmem⟩ | ⟨error, hmem⟩ <;> cases hmem
  | @cons a rest fits _ _ _ ih =>
    have hrecord : ∀ {error}, Action.record k error = a → .arrive k ∈ a :: rest := by
      rintro error rfl
      obtain ⟨r, rfl⟩ := fits
      exact List.mem_cons_of_mem _ List.mem_cons_self
    rcases hmem with ⟨result, hmem⟩ | ⟨error, hmem⟩ <;> rcases List.mem_cons.mp hmem with heq | hmem
    · subst heq
      refine List.mem_cons_of_mem _ ?_
      cases result with
      | ok =>
        obtain ⟨r, rfl⟩ := fits
        exact List.mem_cons_self
      | error error =>
        obtain ⟨r, rfl⟩ := fits
        exact ih (.inr ⟨error, List.mem_cons_self⟩)
    · exact List.mem_cons_of_mem _ (ih (.inl ⟨result, hmem⟩))
    · exact hrecord heq
    · exact List.mem_cons_of_mem _ (ih (.inr ⟨error, hmem⟩))

/-- Once nothing is due, nothing is on its way to the counters or to the list of errors. -/
theorem settled_of_due (ho : Orderly e) (hdue : tally (due k) e = 0) :
    tally (trying k) e = 0 ∧ tally (counting k) e = 0 ∧ tally (recording k) e = 0 := by
  have none_due : ∀ agenda ∈ e.agendas, ∀ a ∈ agenda, due k a = 0 := fun agenda hagenda a ha =>
    Nat.le_zero.mp (hdue ▸ le_tally hagenda ha)
  have none_arrives : ∀ agenda ∈ e.agendas, .arrive k ∉ agenda := fun agenda hagenda ha => by
    have := none_due agenda hagenda _ ha
    simp [due] at this
  refine ⟨tally_eq_zero fun agenda hagenda a ha => ?_, tally_eq_zero fun agenda hagenda a ha => ?_,
    tally_eq_zero fun agenda hagenda a ha => ?_⟩
  · cases a with
    | attempt g j d =>
      refine if_neg fun hj => ?_
      have := none_due agenda hagenda _ ha
      simp [due, hj] at this
    | _ => rfl
  · cases a with
    | count j result =>
      refine if_neg fun hj => none_arrives agenda hagenda ?_
      exact arrive_mem_of_count (ho.arranged agenda hagenda) (.inl ⟨result, hj ▸ ha⟩)
    | _ => rfl
  · cases a with
    | record j error =>
      refine if_neg fun hj => none_arrives agenda hagenda ?_
      exact arrive_mem_of_count (ho.arranged agenda hagenda) (.inr ⟨error, hj ▸ ha⟩)
    | _ => rfl

/-- When the callback is told, every answer has come, been counted and, if it failed, recorded. -/
theorem Awaiting.at_telling (ho : Orderly e) (h : Awaiting k names callback base es e f)
    (hagenda : e.agendas[task]? = some (.tell k :: rest)) :
    tellings k es = 0 ∧ ((replies k es).map Reply.route : Multiset String) = names ∧
      (counted k es).Perm ((replies k es).map Reply.result) ∧
      (recorded k es).Perm ((replies k es).filterMap Reply.error?) ∧
      f.errors = recorded k es ∧ f.callback = callback := by
  have htell : Engine.telling k (.tell k) = 1 := if_pos rfl
  have hle := le_tally (w := Engine.telling k) (List.mem_of_getElem? hagenda) List.mem_cons_self
  have htelling := h.telling
  have hpending := h.pending
  have hzero : f.pending = 0 := by
    by_contra hne
    rw [if_neg hne] at htelling
    omega
  rw [if_pos hzero] at htelling
  have hcard : (awaited k e.acks).card = 0 := by omega
  obtain ⟨htrying, hcounting, hrecording⟩ := settled_of_due (k := k) ho (by omega)
  have hroutes := h.routes
  have hresults := h.results
  have herrors := h.errors
  rw [Multiset.card_eq_zero.mp hcard, htrying, add_zero, add_zero] at hroutes
  rw [hcounting, add_zero] at hresults
  rw [hrecording, add_zero] at herrors
  have huntold : tellings k es = 0 := by omega
  exact ⟨huntold, hroutes, Multiset.coe_eq_coe.mp hresults, Multiset.coe_eq_coe.mp herrors, h.untold huntold⟩

end steps

end Engine

/-! ### Answers are taken in the end -/

/-- The action is a step by which an answer is taken. Nothing can hold it up. -/
def Action.isStep : Action → Bool
  | .count .. | .record .. | .arrive _ | .tell _ => true
  | _ => false

namespace Engine

section progress
variable {e e' : Engine} {task : TaskId} {a : Action} {m : Move} {rest next agenda : List Action} {k : FanOutId}
  {f : FanOut} {names : Multiset String} {callback : Option CallbackId} {base : Metrics} {es : List Event} {op : Op}
  {fx : List Effect}

theorem isSome_fanOut?_of_isStep (h : a.isStep = true) : a.fanOut?.isSome = true := by
  cases a <;> first | rfl | cases h

theorem isStep_of_outside (h : isOutside next = true) : next.any Action.isStep = false :=
  List.any_eq_false.mpr fun _ hb hstep => by
    have := isSome_fanOut?_of_isStep hstep
    rw [fanOut?_of_outside h hb] at this
    cases this

/-- A step of an answer is followed by nothing new, but for the telling after the last arrival. -/
theorem Next.of_step (hn : Next e a next) (ha : a.isStep = true) :
    next = [] ∨ ∃ j, a = .arrive j ∧ next = [.tell j] := by
  cases hn with
  | nothing => exact .inl rfl
  | tell => exact .inr ⟨_, rfl, rfl⟩
  | _ => cases ha

theorem isStep_answerSteps (fanOut : FanOutId) (result : Except LogError Unit) :
    (answerSteps fanOut result).all Action.isStep = true := by
  cases result <;> rfl

theorem Next.stepsFirst (hn : Next e a next) (h : Foremost Action.isStep (a :: rest)) :
    Foremost Action.isStep (next ++ rest) := by
  cases ha : a.isStep with
  | true =>
    have hrest := (Foremost.cons_iff ha).mp h
    rcases hn.of_step ha with rfl | ⟨j, -, rfl⟩
    · exact hrest
    · exact hrest.append rfl
  | false =>
    have hrest := h.none_of_cons ha
    have hfirst := Foremost.of_none hrest
    rcases hn.kinds with h | ⟨g, ds, cb, rfl, rfl⟩ | ⟨g, cb, rfl, rfl⟩ | ⟨i, rfl, rfl⟩ | ⟨i, answer, x, rfl, -, -, rfl⟩
    · exact .of_none (by rw [List.any_append, isStep_of_outside h, hrest]; rfl)
    · refine .of_none ?_
      rw [List.any_append, hrest, Bool.or_false]
      simp [Action.isStep]
    · exact hfirst.append rfl
    · cases ha
    · exact hfirst.append (isStep_answerSteps ..)

/-- The steps of an answer stand before everything else that is to be done. -/
theorem steps_foremost {setup : Setup} {files : File.Store} {config : Config} (h : Run (start setup files config) es e) :
    ∀ agenda ∈ e.agendas, Foremost Action.isStep agenda :=
  h.agendas (.of_none rfl) (fun hopen => .of_none (isStep_of_outside hopen.outside)) Next.stepsFirst

/-- How much is left to do for the answers that have come. -/
def toTake : Action → Nat
  | .arrive _ => 2
  | .count .. | .record .. | .tell _ => 1
  | _ => 0

/-- A step of an answer can always be done, and there is less to do after it. -/
theorem exists_step (hagenda : e.agendas[task]? = some (a :: rest)) (ha : a.isStep = true) :
    ∃ e' fx, e.step? (.advance task) = some (e', fx) ∧ tally toTake e' < tally toTake e := by
  obtain ⟨m, hm⟩ : ∃ m, (e.setAgenda task rest).perform? task a = some m := by
    cases a <;> first | exact ⟨_, rfl⟩ | cases ha
  refine ⟨m.engine.setAgenda task (m.next ++ rest), m.effects, ?_, ?_⟩
  · simp only [step?, advance?, hagenda, hm, Option.map_some, proceed]
  · have hdoes : Does (e.setAgenda task rest) task a m := .perform hm
    have htally := tally_does toTake hagenda hdoes
    rcases hdoes.next.of_step ha with hnext | ⟨j, rfl, hnext⟩ <;> rw [hnext] at htally ⊢
    · have hpos : 0 < toTake a := by cases a <;> first | exact Nat.zero_lt_succ _ | cases ha
      rw [weigh_nil] at htally
      omega
    · simp only [toTake, weigh_cons, weigh_nil] at htally
      omega

/-- A step of an answer that is still to be done heads its agenda, or another one does. -/
theorem exists_first_step (h : ∀ agenda ∈ e.agendas, Foremost Action.isStep agenda) (hagenda : agenda ∈ e.agendas)
    (ha : a ∈ agenda) (hstep : a.isStep = true) :
    ∃ (task : TaskId) (b : Action) (rest : List Action), e.agendas[task]? = some (b :: rest) ∧ b.isStep = true := by
  obtain ⟨task, htask⟩ := List.mem_iff_getElem?.mp hagenda
  cases agenda with
  | nil => cases ha
  | cons b rest =>
    refine ⟨task, b, rest, htask, ?_⟩
    cases hb : b.isStep with
    | true => rfl
    | false =>
      rcases List.mem_cons.mp ha with rfl | ha
      · rw [hb] at hstep
        cases hstep
      · exact absurd hstep (List.any_eq_false.mp ((h _ hagenda).none_of_cons hb) a ha)

theorem exists_of_tally_pos {w : Action → Nat} (h : 0 < tally w e) : ∃ agenda ∈ e.agendas, ∃ a ∈ agenda, 0 < w a := by
  by_contra hnone
  push Not at hnone
  have hzero : tally w e = 0 := tally_eq_zero fun agenda hagenda a ha => Nat.le_zero.mp (hnone agenda hagenda a ha)
  omega

/-- Once every route has answered, there is a step to do as long as the callback has not been told. -/
theorem Awaiting.exists_first_step (h : Awaiting k names callback base es e f)
    (hall : (replies k es).length = names.card) {known : List Generation} (hl : Lineage e known)
    (hsteps : ∀ agenda ∈ e.agendas, Foremost Action.isStep agenda) (huntold : tellings k es = 0) :
    ∃ (task : TaskId) (a : Action) (rest : List Action), e.agendas[task]? = some (a :: rest) ∧ a.isStep = true := by
  have hcard := congrArg Multiset.card h.routes
  simp only [Multiset.card_add, Multiset.coe_card, List.length_map] at hcard
  have htelling := h.telling
  have hpending := h.pending
  by_cases hzero : f.pending = 0
  · rw [if_pos hzero] at htelling
    obtain ⟨agenda, hagenda, a, ha, hpos⟩ := exists_of_tally_pos (e := e) (w := Engine.telling k) (by omega)
    refine Engine.exists_first_step hsteps hagenda ha ?_
    cases a <;> first | rfl | cases hpos
  · have hdue : 0 < tally (due k) e := by omega
    obtain ⟨agenda, hagenda, a, ha, hpos⟩ := exists_of_tally_pos hdue
    refine Engine.exists_first_step hsteps hagenda ha ?_
    cases a with
    | arrive => rfl
    | attempt g j d =>
      -- A route that is still to be tried has not answered.
      obtain ⟨known', hknows⟩ := (hl.rooted agenda hagenda).knows ha
      have hle := Multiset.card_le_card (le_tally (w := trying k) hagenda ha)
      have hj : j = k := by
        by_contra hne
        simp [due, hne] at hpos
      have hroute : (trying k (.attempt g j d)).card = 1 := by
        rw [hj, trying, if_pos rfl, routeName, List.getElem?_eq_getElem hknows.2]
        rfl
      omega
    | _ => cases hpos

theorem Awaiting.tellings_le (h : Awaiting k names callback base es e f) : tellings k es ≤ 1 := by
  have htelling := h.telling
  split at htelling <;> omega

theorem Awaiting.replies_le (h : Awaiting k names callback base es e f) : (replies k es).length ≤ names.card := by
  have hcard := congrArg Multiset.card h.routes
  simp only [Multiset.card_add, Multiset.coe_card, List.length_map] at hcard
  omega

/-- Once every route has answered, the tasks that are at it tell the callback, whoever else does nothing. -/
theorem Awaiting.exists_telling {setup : Setup} {files : File.Store} {config : Config} {es₀ : List Event}
    (hr₀ : Run (start setup files config) es₀ e) (h : Awaiting k names callback base es e f)
    (hall : (replies k es).length = names.card) :
    ∃ es' e', Run e es' e' ∧ (∀ ev ∈ es', ∃ task, ev.op = .advance task) ∧ tellings k (es ++ es') = 1 := by
  -- The induction is on what is left to do for answers that have come, of whatever call.
  induction hn : tally toTake e using Nat.strong_induction_on generalizing e es f es₀ with
  | _ n ih =>
    have hle := h.tellings_le
    by_cases htold : tellings k es = 0
    · have ho := (Orderly.start setup files config).run hr₀
      have hl := (Lineage.start setup files config).run (Orderly.start setup files config) hr₀
      obtain ⟨task, a, rest, hagenda, hstep⟩ := h.exists_first_step hall hl (steps_foremost hr₀) htold
      obtain ⟨e₁, fx, hs, hless⟩ := exists_step hagenda hstep
      obtain ⟨f₁, hb⟩ := exists_balance hl h hs
      have h₁ := h.step hs hb
      have hall₁ : (replies k (es ++ [⟨e, .advance task, e₁, fx⟩])).length = names.card := by
        have := h₁.replies_le
        rw [replies_snoc, List.length_append] at this ⊢
        omega
      obtain ⟨es', e', hr', hadvance, honce⟩ := ih _ (hn ▸ hless) (hr₀.step hs) h₁ hall₁ rfl
      refine ⟨_ :: es', e', (Run.single hs).trans hr', fun ev hev => ?_, ?_⟩
      · rcases List.mem_cons.mp hev with rfl | hev
        · exact ⟨task, rfl⟩
        · exact hadvance ev hev
      · rwa [List.append_assoc] at honce
    · refine ⟨[], e, .refl, fun ev hev => absurd hev List.not_mem_nil, ?_⟩
      rw [List.append_nil]
      omega

/-- What the callback is told of the errors that were recorded. -/
inductive Verdict : List LogError → Except LogError Unit → Prop
  | none : Verdict [] (.ok ())
  | one (error : LogError) : Verdict [error] (.error error)
  | many (errors : List LogError) : 2 ≤ errors.length → Verdict errors (.error (.multiple errors))

theorem verdict_collapse (errors : List LogError) : Verdict errors (LogError.collapse errors) := by
  match errors with
  | [] => exact .none
  | [error] => exact .one error
  | e₁ :: e₂ :: es => exact .many _ (Nat.le_add_left 2 es.length)

/-- What is so when the callback of a call is told: all its routes have answered, their results are counted, their
    errors are recorded, and the callback is told of them. -/
structure Told (k : FanOutId) (g : Generation) (deliveries : List Delivery) (callback : Option CallbackId)
    (base : Metrics) (es : List Event) (ev : Event) : Prop where
  all : (replies k es).length = deliveries.length
  routes : ((replies k es).map Reply.route).Perm (routeNames g deliveries)
  errors : (recorded k es).Perm ((replies k es).filterMap Reply.error?)
  verdict : ∃ result, Verdict (recorded k es) result ∧
    ev.effects = callback.toList.map fun c => .complete ⟨c, result⟩
  delivered : base.delivered + (replies k es).countP (·.result.isOk) ≤ ev.before.metrics.delivered
  failed : base.failed + (replies k es).countP (!·.result.isOk) ≤ ev.before.metrics.failed

theorem length_routeNames {g : Generation} {deliveries : List Delivery} (h : ∀ d ∈ deliveries, d.route < g.routes.length) :
    (routeNames g deliveries).length = deliveries.length := by
  induction deliveries with
  | nil => rfl
  | cons d ds ih =>
    have hd := h d List.mem_cons_self
    rw [routeNames, List.flatMap_cons, List.length_append, ← routeNames, ih fun x hx => h x (List.mem_cons_of_mem d hx),
      List.getElem?_eq_getElem hd]
    simp [Nat.add_comm]

theorem told_of_awaiting {g : Generation} {deliveries : List Delivery} (ho : Orderly e)
    (hvalid : ∀ d ∈ deliveries, d.route < g.routes.length)
    (h : Awaiting k (routeNames g deliveries) callback base es e f) (hs : e.step? op = some (e', fx))
    (htells : Event.tells k ⟨e, op, e', fx⟩ = true) : Told k g deliveries callback base es ⟨e, op, e', fx⟩ := by
  obtain ⟨task, rest, m, hagenda, hdoes, rfl⟩ : ∃ task rest m, e.agendas[task]? = some (.tell k :: rest) ∧
      Does (e.setAgenda task rest) task (.tell k) m ∧ fx = m.effects := by
    rcases step_cases hs with ⟨request, rfl, -, -⟩ | ⟨task, a, rest, m, htask, hagenda, hdoes, rfl, rfl⟩
    · cases htells
    · rw [Event.tells, action?_of_task htask hagenda] at htells
      cases a with
      | tell j =>
        obtain rfl := beq_iff_eq.mp htells
        exact ⟨task, rest, m, hagenda, hdoes, rfl⟩
      | _ => cases htells
  obtain ⟨-, hroutes, hcounted, hrecorded, herrors, hcallback⟩ := h.at_telling ho hagenda
  have hperm := Multiset.coe_eq_coe.mp hroutes
  have hcount : ∀ p : Except LogError Unit → Bool,
      (counted k es).countP p = (replies k es).countP fun r => p r.result := fun p => by
    rw [hcounted.countP_eq, List.countP_map]
    rfl
  refine ⟨?_, hperm, hrecorded, ⟨_, verdict_collapse _, ?_⟩, ?_, ?_⟩
  · rw [← length_routeNames hvalid, ← hperm.length_eq, List.length_map]
  · rw [does_tell (e := e.setAgenda task rest) h.fanOut hdoes]
    simp only [FanOut.completion?, herrors, hcallback]
    cases callback <;> rfl
  · rw [← hcount Except.isOk]
    exact h.delivered
  · rw [← hcount fun result => !result.isOk]
    exact h.failed

/-- The callback that waits for some deliveries is told once, after each of them has been answered, and as soon as
    whoever took the answers goes on. -/
structure Collects (k : FanOutId) (g : Generation) (deliveries : List Delivery) (callback : Option CallbackId)
    (base : Metrics) (es : List Event) (e : Engine) : Prop where
  unique : ((replies k es).map Reply.ack).Nodup
  bounded : (replies k es).length ≤ deliveries.length
  once : tellings k es ≤ 1
  told : ∀ before ev after, es = before ++ ev :: after → ev.tells k = true → Told k g deliveries callback base before ev
  soon : (replies k es).length = deliveries.length →
    ∃ es' e', Run e es' e' ∧ (∀ ev ∈ es', ∃ task, ev.op = .advance task) ∧ tellings k (es ++ es') = 1

/-- A call that starts to wait collects the answers of its deliveries. -/
theorem Run.collects {setup : Setup} {files : File.Store} {config : Config} {es₁ : List Event} {e₁ e₂ : Engine}
    {g : Generation} {deliveries : List Delivery} (hr₁ : Run (start setup files config) es₁ e₁)
    (hagenda : e₁.agendas[task]? = some (.fan g deliveries callback :: rest))
    (hs : e₁.step? (.advance task) = some (e₂, fx)) (hr : Run e₂ es e) :
    Collects e₁.fanOuts.length g deliveries callback e₂.metrics es e := by
  have ho₁ := (Orderly.start setup files config).run hr₁
  have hl₁ := (Lineage.start setup files config).run (Orderly.start setup files config) hr₁
  have hn₁ := (Numbered.start setup files config).run hr₁
  have hvalid := (hl₁.rooted _ (List.mem_of_getElem? hagenda)).1.2
  have hr₂ := hr₁.step hs
  have ho₂ := ho₁.step hs
  have hl₂ := hl₁.step ho₁ hs
  have hfirst := Awaiting.fan hn₁ hagenda hs
  obtain ⟨f, h⟩ := hfirst.run ho₂ hl₂ hr
  have hcard : (routeNames g deliveries : Multiset String).card = deliveries.length := length_routeNames hvalid
  refine ⟨h.unique, hcard ▸ h.replies_le, h.tellings_le, fun before ev after heq htells => ?_, fun hall => ?_⟩
  · obtain ⟨hbefore, hev, -⟩ := (heq ▸ hr).split
    obtain ⟨f', h'⟩ := hfirst.run ho₂ hl₂ hbefore
    exact told_of_awaiting (ho₂.run hbefore) hvalid h' hev htells
  · exact h.exists_telling (hr₂.trans hr) (hall.trans hcard.symm)

end progress

end Engine

end LogDispatch
