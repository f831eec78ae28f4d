import LogDispatch.Proofs.Fallbacks
import LogDispatch.Proofs.Fate
import LogDispatch.Proofs.Reloading
import Mathlib.Algebra.BigOperators.Group.Finset.Piecewise

/-! The counters of an engine add up to what calls, reloads and routes did. Each counter counts deeds of one kind
    (`Run.counted`). Which deeds of that kind a task does is read off its way, or off a balance with those that are
    still on agendas. -/

namespace LogDispatch

def Action.isCountUnrouted : Action → Bool
  | .countUnrouted => true
  | _ => false

def Action.isCount : Action → Bool
  | .count .. => true
  | _ => false

/-- The counters are those of an engine that did these actions. -/
structure Counted (as : List Action) (m : Metrics) : Prop where
  accepted : m.accepted = as.countP (Action.takes Turn.isAccepted)
  rejected : m.rejected = as.countP (Action.takes Turn.isRejected)
  unrouted : m.unrouted = as.countP Action.isCountUnrouted
  answers : m.delivered + m.failed = as.countP Action.isCount
  reloads : m.reloads = as.countP (Action.takes Turn.isReloaded)

theorem Counted.concat {as : List Action} {m : Metrics} (h : Counted as m) (a : Action) :
    Counted (as ++ [a]) (a.metered m) := by
  obtain ⟨haccepted, hrejected, hunrouted, hanswers, hreloads⟩ := h
  cases a with
  | count k result =>
    cases result <;> constructor <;>
      simp [Action.metered, Metrics.countDelivered, Metrics.countFailed, Action.takes, Action.turn?,
        Action.isCountUnrouted, Action.isCount, *] <;> omega
  | _ =>
    constructor <;>
      simp [Action.metered, Metrics.countAccepted, Metrics.countRejected, Metrics.countUnrouted, Metrics.countReload,
        Action.takes, Action.turn?, Turn.isAccepted, Turn.isRejected, Turn.isReloaded, Action.isCountUnrouted,
        Action.isCount, *]

def Request.isCall : Request → Bool
  | .call _ => true
  | _ => false

def Request.isReload : Request → Bool
  | .reload _ => true
  | _ => false

/-- How many tasks that began with such a request took such a turn. -/
def taskCount (kind : Request → Bool) (turn : Turn → Bool) (es : List Event) : Nat :=
  ((Finset.range ((requests es).length + 1)).filter fun t =>
    (request? es t).any kind = true ∧ (turns t es).any turn = true).card

namespace Engine
variable {e e' : Engine} {task : TaskId} {a : Action} {m : Move} {op : Op} {fx : List Effect} {es : List Event}
  {rest next agenda : List Action} {call : Call} {g : Generation}

/-- How many actions of a kind are still to be done. -/
def pending (p : Action → Bool) (e : Engine) : Nat := e.agendas.flatten.countP p

theorem weigh_countP (p : Action → Bool) (xs : List Action) :
    weigh (fun a => if p a then 1 else 0) xs = xs.countP p := by
  induction xs with
  | nil => rfl
  | cons x xs ih => rw [weigh_cons, ih, List.countP_cons, Nat.add_comm]

theorem pending_eq_tally (p : Action → Bool) (e : Engine) : pending p e = tally (fun a => if p a then 1 else 0) e := by
  rw [pending, List.countP_flatten, tally, weigh]
  congr 1
  exact List.map_congr_left fun xs _ => (weigh_countP p xs).symm

/-- How many actions of a kind were done or are still to be done. -/
def promised (p : Action → Bool) (es : List Event) (e : Engine) : Nat := (allDeeds es).countP p + pending p e

theorem promised_begin (p : Action → Bool) {request : Request} {opening : List Action}
    (h : e'.agendas = e.agendas ++ [opening]) :
    promised p (es ++ [⟨e, .begin request, e', fx⟩]) e' = promised p es e + opening.countP p := by
  simp [promised, pending, allDeeds, Event.action?, Op.task?, h, Nat.add_assoc]

theorem promised_does (p : Action → Bool) (htask : op.task? = some task) (hagenda : e.agendas[task]? = some (a :: rest))
    (hdoes : Does (e.setAgenda task rest) task a m) {e' : Engine}
    (he' : e' = m.engine.setAgenda task (m.next ++ rest)) :
    promised p (es ++ [⟨e, op, e', fx⟩]) e' = promised p es e + m.next.countP p := by
  subst he'
  have htally := tally_does (fun a => if p a then 1 else 0) hagenda hdoes
  have haction : Event.action? ⟨e, op, m.engine.setAgenda task (m.next ++ rest), fx⟩ = some a :=
    action?_of_task htask hagenda
  have hone : [a].countP p = if p a then 1 else 0 := List.countP_singleton
  rw [← pending_eq_tally, ← pending_eq_tally, weigh_countP, ← hone] at htally
  simp only [promised, allDeeds, List.filterMap_append, List.filterMap_cons, List.filterMap_nil, haction,
    List.countP_append]
  omega

section
variable {setup : Setup} {files : File.Store} {config : Config}

/-- Each counter counts deeds of one kind. -/
theorem Run.counted (h : Run (start setup files config) es e) : Counted (allDeeds es) e.metrics := by
  induction h with
  | refl => exact ⟨rfl, rfl, rfl, rfl, rfl⟩
  | @step es e₁ e₂ op fx _ hs ih =>
    rw [allDeeds_append]
    rcases step_cases hs with ⟨request, rfl, hb, -⟩ | ⟨task, a, rest, m, htask, hagenda, hdoes, rfl, -⟩
    · obtain ⟨-, -, -, hcalm⟩ := begin_cases hb
      have hnone : allDeeds [⟨e₁, .begin request, e₂, fx⟩] = [] := rfl
      rw [hnone, List.append_nil, hcalm.metrics]
      exact ih
    · have haction : Event.action? ⟨e₁, op, m.engine.setAgenda task (m.next ++ rest), fx⟩ = some a :=
        action?_of_task htask hagenda
      have hone : allDeeds [⟨e₁, op, m.engine.setAgenda task (m.next ++ rest), fx⟩] = [a] := by
        simp [allDeeds, haction]
      have hmetrics := hdoes.metered
      rw [hone, metrics_setAgenda, hmetrics]
      exact ih.concat a

end

/-! ### Balances -/

/-- An action that is no step of a call brings none of them. -/
theorem Next.countP_of_call {p : Action → Bool} (hp : ∀ a, p a = true → a.isOfCall = true) (hn : Next e a next)
    (ha : a.isOfCall = false) : next.countP p = 0 := by
  refine List.countP_eq_zero.mpr fun b hb hpb => ?_
  exact absurd (hp b hpb) (List.any_eq_false.mp (hn.isOfCall ha) b hb)

/-- Calls without a route are counted on the way. -/
theorem Next.countP_countUnrouted (hn : Next e a next) :
    next.countP Action.isCountUnrouted = [a].countP (Action.takes Turn.isUnrouted) := by
  have hof : ∀ a, Action.isCountUnrouted a = true → a.isOfCall = true := by
    intro a ha
    cases a <;> first | rfl | cases ha
  cases hcall : a.isOfCall with
  | false =>
    have hnone : a.takes Turn.isUnrouted = false := by cases a <;> first | rfl | cases hcall
    rw [hn.countP_of_call hof hcall, List.countP_singleton, hnone]
    rfl
  | true =>
    cases hn with
    | nothing hend => cases a <;> first | rfl | cases hend
    | screen hadmission => rcases admission_cases hadmission with ⟨_, _, _, rfl⟩ | ⟨_, rfl⟩ <;> rfl
    | @accept g deliveries callback hne =>
      cases deliveries with
      | nil => exact absurd rfl hne
      | cons => rfl
    | fan => simp [Action.isCountUnrouted, Action.takes, Action.turn?, Function.comp_def]
    | forbidden | load | reject | noChannel | select | stale | unrouted | alone | dropped | answered | awaitOut
    | send => rfl
    | _ => cases hcall

/-- Only an answer that comes is to be counted. -/
theorem Next.countP_count (hn : Next e a next) (ha : ∀ ack answer, a ≠ .answer ack answer) :
    next.countP Action.isCount = 0 := by
  have outside : ∀ b : Action, b.fanOut? = none → b.isCount = false := by
    intro b hb
    cases b <;> first | rfl | cases hb
  rcases hn.kinds with h | ⟨g, deliveries, callback, rfl, rfl⟩ | ⟨g, callback, rfl, rfl⟩ | ⟨k, rfl, rfl⟩ |
    ⟨ack, answer, _, rfl, -⟩
  · refine List.countP_eq_zero.mpr fun b hb => ?_
    simp [outside b (fanOut?_of_outside h hb)]
  · simp [Action.isCount]
  · rfl
  · rfl
  · exact absurd rfl (ha ack answer)

/-- An attempt asks for an answer, and the answer is to be counted. -/
theorem Does.answers (h : Does e task a m) (hroute : ∀ g k d, a = .attempt g k d → (g.routes[d.route]?).isSome) :
    m.next.countP Action.isCount + m.engine.acks.countP (!·.answered) =
      e.acks.countP (!·.answered) + [a].countP (·.attempt?.isSome) := by
  cases a
  case attempt g k d =>
    obtain ⟨r, hr⟩ := Option.isSome_iff_exists.mp (hroute g k d rfl)
    have hnone : m.next.countP Action.isCount = 0 := h.next.countP_count fun _ _ ha => by cases ha
    rw [hnone, does_attempt hr h, List.countP_append, Nat.zero_add]
    rfl
  case answer ack answer =>
    cases h with
    | perform h =>
      obtain rfl := Option.some.inj h
      rcases answer_cases e ack answer with ⟨heq, -⟩ | ⟨x, hx, hopen, heq⟩ <;> rw [heq]
      · simp [Action.attempt?]
      · have hcount := countP_set (fun y : Ack => !y.answered) (y := { x with answered := true }) hx
        have hone : (answerSteps x.fanOut (answer.result x.route)).countP Action.isCount = 1 := by
          cases answer.result x.route <;> rfl
        simp [hopen, Action.attempt?] at hcount ⊢
        omega
  all_goals
    rw [h.next.countP_count fun _ _ ha => by cases ha]
    rcases h.acks with heq | ⟨_, _, _, _, ha, -⟩ | ⟨_, _, _, ha, -⟩
    · rw [heq, Nat.zero_add]
      rfl
    · cases ha
    · cases ha

section
variable {setup : Setup} {files : File.Store} {config : Config}

theorem Run.unrouted (h : Run (start setup files config) es e) :
    promised Action.isCountUnrouted es e = (allDeeds es).countP (Action.takes Turn.isUnrouted) := by
  induction h with
  | refl => rfl
  | @step es e₁ e₂ op fx _ hs ih =>
    rcases step_cases hs with ⟨request, rfl, hb, -⟩ | ⟨task, a, rest, m, htask, hagenda, hdoes, he₂, -⟩
    · obtain ⟨opening, hopen, hagendas, -⟩ := begin_cases hb
      have hnone : opening.countP Action.isCountUnrouted = 0 := by cases hopen <;> rfl
      rw [promised_begin _ hagendas, ih, hnone, allDeeds_append, List.countP_append]
      rfl
    · have haction : Event.action? ⟨e₁, op, e₂, fx⟩ = some a := action?_of_task htask hagenda
      rw [promised_does _ htask hagenda hdoes he₂, ih, hdoes.next.countP_countUnrouted, allDeeds_append,
        List.countP_append]
      simp [allDeeds, haction]

/-- Every attempt is counted when it is answered. -/
theorem Run.answered (h : Run (start setup files config) es e) :
    promised Action.isCount es e + e.acks.countP (!·.answered) = (allDeeds es).countP (·.attempt?.isSome) := by
  induction h with
  | refl => rfl
  | @step es e₁ e₂ op fx hr hs ih =>
    rcases step_cases hs with ⟨request, rfl, hb, -⟩ | ⟨task, a, rest, m, htask, hagenda, hdoes, he₂, -⟩
    · obtain ⟨opening, hopen, hagendas, hcalm⟩ := begin_cases hb
      have hnone : opening.countP Action.isCount = 0 := by cases hopen <;> rfl
      rw [promised_begin _ hagendas, hnone, hcalm.acks, allDeeds_append, List.countP_append, Nat.add_zero, ih]
      rfl
    · have haction : Event.action? ⟨e₁, op, e₂, fx⟩ = some a := action?_of_task htask hagenda
      have hone : (allDeeds [⟨e₁, op, e₂, fx⟩]).countP (·.attempt?.isSome) = [a].countP (·.attempt?.isSome) := by
        simp [allDeeds, haction]
      have hacks : e₂.acks = m.engine.acks := by rw [he₂, acks_setAgenda]
      rw [promised_does _ htask hagenda hdoes he₂, allDeeds_append, List.countP_append, ← ih, hone, hacks]
      have hbalance := hdoes.answers fun g k d ha => by
        subst ha
        obtain ⟨-, -, r, hr, -⟩ := (hr.step hs).attempt_chosen (List.mem_append_right _ List.mem_cons_self) haction
        rw [hr]
        rfl
      rw [acks_setAgenda] at hbalance
      omega

end

/-! ### Tasks one by one -/

theorem countP_eq_ite_any {α : Type} {p : α → Bool} {xs : List α} (h : xs.countP p ≤ 1) :
    xs.countP p = if xs.any p then 1 else 0 := by
  split
  · rename_i hany
    obtain ⟨x, hx, hp⟩ := List.any_eq_true.mp hany
    have := List.countP_pos_iff.mpr ⟨x, hx, hp⟩
    omega
  · rename_i hnone
    exact List.countP_eq_zero.mpr fun x hx hp => hnone (List.any_eq_true.mpr ⟨x, hx, hp⟩)

section
variable {setup : Setup} {files : File.Store} {config : Config}

/-- The turns of a kind are counted task by task when only tasks of one kind take them, and once at most. -/
theorem Run.sum_countP_turns (h : Run (start setup files config) es e) {kind : Request → Bool} {turn : Turn → Bool}
    (honce : ∀ t agenda, e.agendas[t]? = some agenda → (request? es t).any kind = true → (turns t es).countP turn ≤ 1)
    (hnone : ∀ t agenda, e.agendas[t]? = some agenda → (request? es t).any kind = false →
      (turns t es).countP turn = 0) :
    (allDeeds es).countP (Action.takes turn) = taskCount kind turn es := by
  have hlength : e.agendas.length = (requests es).length + 1 := by
    rw [h.length_agendas, Nat.add_comm]
    rfl
  rw [h.countP_allDeeds _ (Nat.le_of_eq hlength), taskCount, Finset.card_filter]
  refine Finset.sum_congr rfl fun t ht => ?_
  have hlt : t < e.agendas.length := by
    rw [hlength]
    exact Finset.mem_range.mp ht
  have hagenda : e.agendas[t]? = some e.agendas[t] := List.getElem?_eq_getElem hlt
  have hdeeds : (deeds t es).countP (Action.takes turn) = (turns t es).countP turn := by
    rw [turns, List.countP_filterMap]
    refine List.countP_congr fun a _ => ?_
    unfold Action.takes
    cases a.turn? <;> rfl
  rw [hdeeds]
  cases hkind : (request? es t).any kind with
  | false => simp [hnone t _ hagenda hkind]
  | true => simpa using countP_eq_ite_any (honce t _ hagenda hkind)

theorem Run.fate (h : Run (start setup files config) es e) (ht : request? es task = some (.call call))
    (hover : e.agendas[task]? = some []) : Fate setup task call es (turns task es) (attempts task es) := by
  obtain ⟨agenda, hagenda, hfated⟩ := h.fated ht
  obtain rfl := Option.some.inj (hover.symm.trans hagenda)
  cases hfated with
  | undecided _ _ hne => exact absurd rfl hne
  | decided hfate hts hds =>
    rw [List.flatMap_nil, List.append_nil] at hts hds
    rwa [hts, hds]

theorem Run.countP_decisions_le (h : Run (start setup files config) es e) (ht : request? es task = some (.call call)) :
    (turns task es).countP Turn.isDecision ≤ 1 := by
  obtain ⟨agenda, -, hfated⟩ := h.fated ht
  cases hfated with
  | undecided hnone => simp [hnone]
  | @decided ts _ hfate hts =>
    have hle : (turns task es).countP Turn.isDecision ≤ ts.countP Turn.isDecision := by
      rw [← hts, List.countP_append]
      exact Nat.le_add_right _ _
    refine Nat.le_trans hle ?_
    cases hfate with
    | forbidden => exact Nat.zero_le 1
    | rejected | accepted => exact Nat.le_refl 1

/-- Only calls are decided, and each once. -/
theorem Run.countP_decisions (h : Run (start setup files config) es e) {turn : Turn → Bool}
    (hturn : ∀ τ, turn τ = true → τ.isDecision = true) :
    (allDeeds es).countP (Action.takes turn) = taskCount Request.isCall turn es := by
  refine h.sum_countP_turns (fun t agenda hagenda hcall => ?_) fun t agenda hagenda hother => ?_
  · obtain ⟨request, ht, hrequest⟩ := (Option.any_eq_true ..).mp hcall
    cases request with
    | call call => exact Nat.le_trans (List.countP_mono_left fun τ _ hτ => hturn τ hτ) (h.countP_decisions_le ht)
    | _ => cases hrequest
  · have hno : ∀ call, request? es t ≠ some (.call call) := by
      intro call ht
      rw [ht] at hother
      cases hother
    refine List.countP_eq_zero.mpr fun τ hτ hp => ?_
    obtain ⟨a, ha, heq⟩ := List.mem_filterMap.mp hτ
    have hforeign := List.any_eq_false.mp (h.foreign hagenda hno).2 a ha
    have hdecision := hturn τ hp
    cases a with
    | accept | reject => exact hforeign rfl
    | countReload | finish =>
      obtain rfl := Option.some.inj heq
      cases hdecision
    | _ => cases heq

end

end Engine

/-! ### The books -/

/-- What the counters say at any time. What is not yet counted is on its way: a call without a route that has been
    accepted just now, an answer that has come or that is still waited for. -/
structure Balanced (es : List Event) (e : Engine) : Prop where
  accepted : e.metrics.accepted = taskCount Request.isCall Turn.isAccepted es
  rejected : e.metrics.rejected = taskCount Request.isCall Turn.isRejected es
  decided : e.metrics.accepted + e.metrics.rejected = taskCount Request.isCall Turn.isDecision es
  unrouted : e.metrics.unrouted + e.pending Action.isCountUnrouted = taskCount Request.isCall Turn.isUnrouted es
  reloads : e.metrics.reloads = taskCount Request.isReload Turn.isReloaded es
  deliveries : e.metrics.delivered + e.metrics.failed + e.pending Action.isCount + e.acks.countP (!·.answered) =
    ∑ t ∈ Finset.range ((requests es).length + 1), (attempts t es).length

namespace Engine
variable {e : Engine} {es : List Event}

theorem countP_decisions (as : List Action) : as.countP (Action.takes Turn.isAccepted) +
    as.countP (Action.takes Turn.isRejected) = as.countP (Action.takes Turn.isDecision) := by
  induction as with
  | nil => rfl
  | cons a as ih =>
    simp only [List.countP_cons, ← ih]
    have hone : (if a.takes Turn.isAccepted then 1 else 0) + (if a.takes Turn.isRejected then 1 else 0) =
        if a.takes Turn.isDecision then 1 else 0 := by cases a <;> rfl
    omega

section
variable {setup : Setup} {files : File.Store} {config : Config}

theorem Run.balanced (h : Run (start setup files config) es e) : Balanced es e := by
  have hcounted := h.counted
  have haccepted : (allDeeds es).countP (Action.takes Turn.isAccepted) = taskCount Request.isCall Turn.isAccepted es :=
    h.countP_decisions fun τ hτ => by
      cases τ with
      | decided => rfl
      | _ => cases hτ
  have hrejected : (allDeeds es).countP (Action.takes Turn.isRejected) = taskCount Request.isCall Turn.isRejected es :=
    h.countP_decisions fun τ hτ => by
      cases τ with
      | decided => rfl
      | _ => cases hτ
  have hunrouted : (allDeeds es).countP (Action.takes Turn.isUnrouted) = taskCount Request.isCall Turn.isUnrouted es :=
    h.countP_decisions fun τ hτ => by
      cases τ with
      | decided => rfl
      | _ => cases hτ
  refine ⟨?_, ?_, ?_, ?_, ?_, ?_⟩
  · rw [hcounted.accepted, haccepted]
  · rw [hcounted.rejected, hrejected]
  · rw [hcounted.accepted, hcounted.rejected, Engine.countP_decisions, h.countP_decisions fun _ hτ => hτ]
  · rw [hcounted.unrouted, ← hunrouted, ← h.unrouted, promised]
  · rw [hcounted.reloads]
    refine h.sum_countP_turns (fun t agenda hagenda hreload => ?_) fun t agenda hagenda hother => ?_
    · obtain ⟨request, ht, hrequest⟩ := (Option.any_eq_true ..).mp hreload
      cases request with
      | reload newer => exact (h.reloaded ht hagenda).1
      | _ => cases hrequest
    · refine h.countP_reloaded_other hagenda fun newer ht => ?_
      rw [ht] at hother
      cases hother
  · have hlength : e.agendas.length = (requests es).length + 1 := by
      rw [h.length_agendas, Nat.add_comm]
      rfl
    rw [hcounted.answers, ← promised, h.answered, h.countP_allDeeds _ (Nat.le_of_eq hlength)]
    exact Finset.sum_congr rfl fun t _ => List.length_filterMap_eq_countP.symm

theorem taskCount_congr {kind : Request → Bool} {turn turn' : Turn → Bool}
    (h : ∀ t request, request? es t = some request → kind request = true →
      (turns t es).any turn = (turns t es).any turn') : taskCount kind turn es = taskCount kind turn' es := by
  refine congrArg Finset.card (Finset.filter_congr fun t _ => and_congr_right fun hkind => ?_)
  obtain ⟨request, ht, hrequest⟩ := (Option.any_eq_true ..).mp hkind
  rw [h t request ht hrequest]

theorem pending_eq_zero {p : Action → Bool} (h : ∀ agenda ∈ e.agendas, ∀ a ∈ agenda, p a = false) :
    e.pending p = 0 := by
  refine List.countP_eq_zero.mpr fun a ha => ?_
  obtain ⟨agenda, hagenda, ha⟩ := List.mem_flatten.mp ha
  simp [h agenda hagenda a ha]

def CallsOver (es : List Event) (e : Engine) : Prop :=
  ∀ task call, request? es task = some (.call call) → e.agendas[task]? = some []

theorem Run.pending_unrouted (h : Run (start setup files config) es e) (hover : CallsOver es e) :
    e.pending Action.isCountUnrouted = 0 := by
  refine pending_eq_zero fun agenda hagenda a ha => ?_
  cases a with
  | countUnrouted =>
    obtain ⟨task, htask⟩ := List.mem_iff_getElem?.mp hagenda
    obtain ⟨call, ht⟩ := h.request_of_mem htask ha rfl
    obtain rfl := Option.some.inj (htask.symm.trans (hover task call ht))
    cases ha
  | _ => rfl

theorem Run.any_return (h : Run (start setup files config) es e) (hover : CallsOver es e) {task : TaskId} {call : Call}
    (ht : request? es task = some (.call call)) :
    (turns task es).any Turn.isDecision = (turns task es).any Turn.isReturn := by
  have hfate := h.fate ht (hover task call ht)
  generalize turns task es = ts at hfate
  generalize attempts task es = ds at hfate
  cases hfate <;> rfl

/-- The counters of an engine add up at any time. A call that is over has panicked, was rejected because of its level,
    its message or a shutdown before it, or was accepted and has attempted its deliveries. A rejected call reaches no
    transport, counts nothing else, and tells its callback of the error once. When all calls are over, as many were
    accepted or rejected as have returned, and those that went nowhere were counted; when all reloads are over, as many
    were counted as have returned without an error. Once every attempt has been answered, and the answers counted,
    deliveries and failures are as many as the attempts. -/
theorem counters_add_up (h : Run (start setup files config) es e) :
    Balanced es e ∧
    (∀ task call, request? es task = some (.call call) →
      (e.agendas[task]? = some [] → Fate setup task call es (turns task es) (attempts task es)) ∧
      ∀ error, .decided (.rejected error) ∈ turns task es → Dismissed task call error es) ∧
    (CallsOver es e →
      e.metrics.accepted + e.metrics.rejected = taskCount Request.isCall Turn.isReturn es ∧
      e.metrics.unrouted = taskCount Request.isCall Turn.isUnrouted es) ∧
    ((∀ task newer, request? es task = some (.reload newer) → e.agendas[task]? = some []) →
      e.metrics.reloads = taskCount Request.isReload Turn.isReturn es) ∧
    ((∀ x ∈ e.acks, x.answered = true) → (∀ agenda ∈ e.agendas, ∀ k result, .count k result ∉ agenda) →
      e.metrics.delivered + e.metrics.failed =
        ∑ t ∈ Finset.range ((requests es).length + 1), (attempts t es).length) := by
  have hbalanced := h.balanced
  refine ⟨hbalanced, fun task call ht => ⟨h.fate ht, fun error => h.dismissed ht⟩, fun hover => ⟨?_, ?_⟩,
    fun hover => ?_, fun hanswered hcounted => ?_⟩
  · rw [hbalanced.decided]
    refine taskCount_congr fun t request ht hcall => ?_
    cases request with
    | call call => exact h.any_return hover ht
    | _ => cases hcall
  · have hunrouted := hbalanced.unrouted
    rwa [h.pending_unrouted hover, Nat.add_zero] at hunrouted
  · rw [hbalanced.reloads]
    refine taskCount_congr fun t request ht hreload => ?_
    cases request with
    | reload newer =>
      have hsame := (h.reloaded ht (hover t newer ht)).2 rfl
      rw [Bool.eq_iff_iff, List.any_eq_true, List.any_eq_true]
      simp only [← List.countP_pos_iff, hsame]
    | _ => cases hreload
  · have hdeliveries := hbalanced.deliveries
    have hnone : e.acks.countP (!·.answered) = 0 := List.countP_eq_zero.mpr fun x hx => by simp [hanswered x hx]
    have hpending : e.pending Action.isCount = 0 := by
      refine pending_eq_zero fun agenda hagenda a ha => ?_
      cases a with
      | count k result => exact absurd ha (hcounted agenda hagenda k result)
      | _ => rfl
    rwa [hnone, hpending, Nat.add_zero, Nat.add_zero] at hdeliveries

end

/-- A log call without arguments. -/
def emptyCall : Call := { subject := .log (.name "info") (.format []), callback := some 8 }

/-- After both routes were tried, one writes and one lets go; then a call is rejected, a reload is refused, and
    another one comes through. -/
def busyHours : List Op :=
  untilFan ++
    [.advance 1, .advance 1, .returned 1 false, .advance 1, .returned 1 false, .advance 1, .advance 1, .advance 1,
      .begin (.answer 0 .written)] ++ List.replicate 4 (.advance 2) ++
    [.begin (.answer 1 .dropped)] ++ List.replicate 6 (.advance 3) ++
    [.begin (.call emptyCall)] ++ List.replicate 6 (.advance 4) ++
    [.begin (.reload { twins with modules := true })] ++ List.replicate 5 (.advance 5) ++
    [.begin (.reload twins)] ++ List.replicate 4 (.advance 6) ++
    [.created 6 (.ok (.ok "host")), .advance 6, .created 6 (.ok (.ok "host"))] ++ List.replicate 4 (.advance 6) ++
    [.returned 6 false, .advance 6, .returned 6 false] ++ List.replicate 7 (.advance 6)

/-- The events of the busy hours. -/
def busyEvents : List Event := (plain false ["host"] twins).history busyHours

def wound : Engine := (plain false ["host"] twins).after busyHours

theorem busy_hours_counted :
    wound.metrics = { accepted := 1, rejected := 1, delivered := 1, failed := 1, reloads := 1 } ∧
    taskCount Request.isCall Turn.isReturn busyEvents = 2 ∧
    taskCount Request.isReload Turn.isReturn busyEvents = 1 ∧
    ∑ t ∈ Finset.range ((requests busyEvents).length + 1), (attempts t busyEvents).length = 2 ∧
    ∃ error, told 8 busyEvents = [.error error] := by
  have hstate : ((plain false ["host"] twins).run? busyHours).isSome = true ∧
      wound.metrics = { accepted := 1, rejected := 1, delivered := 1, failed := 1, reloads := 1 } ∧
      wound.agendas.map List.length = [0, 0, 0, 0, 0, 0, 0] ∧
      wound.acks.all (·.answered) = true ∧ (turns 4 busyEvents).any Turn.isRejected = true := by
    decide +kernel
  obtain ⟨hsome, hmetrics, hagendas, hacks, hrejected⟩ := hstate
  have hrun : Run (plain false ["host"] twins) busyEvents wound := run_history _ _ hsome
  obtain ⟨-, hcalls, hreturned, hreloads, hdeliveries⟩ := counters_add_up hrun
  have hidle : ∀ agenda ∈ wound.agendas, agenda = [] := by
    intro agenda hagenda
    have hlength := hagendas ▸ List.mem_map_of_mem hagenda
    exact List.length_eq_zero_iff.mp (by simpa using hlength)
  have hover : ∀ task request, request? busyEvents task = some request → wound.agendas[task]? = some [] := by
    intro task request ht
    cases task with
    | zero => cases ht
    | succ t =>
      have hlt := (List.getElem?_eq_some_iff.mp ht).1
      have hlength : wound.agendas.length = 1 + (requests busyEvents).length := hrun.length_agendas
      rw [List.getElem?_eq_getElem (by omega), hidle _ (List.getElem_mem _)]
  have hrequests : requests busyEvents = busyHours.filterMap Op.request? := by
    rw [← map_op_history (plain false ["host"] twins) busyHours hsome, List.filterMap_map]
    rfl
  have hfourth : request? busyEvents 4 = some (.call emptyCall) := by
    rw [request?, hrequests]
    rfl
  obtain ⟨τ, hτ, hreject⟩ := List.any_eq_true.mp hrejected
  obtain ⟨error, rfl⟩ : ∃ error, τ = .decided (.rejected error) := by
    unfold Turn.isRejected at hreject
    split at hreject
    · exact ⟨_, rfl⟩
    · cases hreject
  obtain ⟨hdecided, -⟩ := hreturned fun task call ht => hover task _ ht
  have hreloaded := hreloads fun task newer ht => hover task _ ht
  have hanswered := hdeliveries (fun x hx => List.all_eq_true.mp hacks x hx)
    fun agenda hagenda k result ha => by rw [hidle agenda hagenda] at ha; cases ha
  rw [hmetrics] at hdecided hreloaded hanswered
  refine ⟨hmetrics, hdecided.symm, hreloaded.symm, hanswered.symm, error, ?_⟩
  refine ((hcalls 4 emptyCall hfourth).2 error hτ).told 8 rfl fun task call ht hcallback => ?_
  -- Of the requests only the first and the fourth one are calls, and the first one has another callback.
  cases task with
  | zero => cases ht
  | succ t =>
    rw [request?, hrequests] at ht
    have hlt : t < 6 := (List.getElem?_eq_some_iff.mp ht).1
    rcases t with _ | _ | _ | _ | _ | _ | t
    · obtain ⟨⟩ := Option.some.inj ht
      cases hcallback
    · cases Option.some.inj ht
    · cases Option.some.inj ht
    · rfl
    · cases Option.some.inj ht
    · cases Option.some.inj ht
    · omega

end Engine

end LogDispatch
