import LogDispatch.Proofs.Deeds

/-! The way of a call. Only calls take the steps of calls (`Run.foreign`). A call takes up a generation, is screened
    (`Run.calling`), and then turned away or brought to the routes it has chosen (`Decides.run`), for which it waits
    for no other task (`exists_end`). -/

namespace LogDispatch

/-- The action is a step of a call on its way to the routes. -/
def Action.isOfCall : Action → Bool
  | .load _ | .screen .. | .select .. | .refresh .. | .accept .. | .countUnrouted | .fan .. | .attempt ..
  | .reject .. => true
  | _ => false

/-- How far what comes of an action of a call can go on; for other actions a bound that none of a call has. -/
def Action.depth : Action → Nat
  | .count .. | .record .. | .tell _ | .refresh .. | .countUnrouted | .reject .. | .awaitOut _ | .send .. | .awaitFree _
  | .complain _ | .finish _ => 0
  | .arrive _ | .free .. => 1
  | .answer .. | .letGo _ => 2
  | .attempt .. | .leave => 3
  | .fan .. => 4
  | .accept .. => 5
  | .select .. => 6
  | .screen .. => 7
  | .load _ => 8
  | _ => 9

def Action.isWithin (bound : Nat) (a : Action) : Bool := a.depth < bound

/-- A log call without a channel where channels are in use. -/
def Call.Forbidden (call : Call) (setup : Setup) : Prop :=
  setup.modules = true ∧ call.channel = none ∧ ∃ level message, call.subject = .log level message

/-- What a call came to when it was screened. -/
inductive Decision where
  | accepted (deliveries : List Delivery)
  | rejected (error : LogError)

def Decision.deliveries : Decision → List Delivery
  | .accepted deliveries => deliveries
  | .rejected _ => []

/-- A turn in what becomes of a task. -/
inductive Turn where
  | decided (d : Decision)
  /-- A reload has put its generation in place, and is counted. -/
  | reloaded
  | ended (outcome : Outcome)

namespace Turn

def isDecision : Turn → Bool
  | .decided _ => true
  | _ => false

def isAccepted : Turn → Bool
  | .decided (.accepted _) => true
  | _ => false

def isRejected : Turn → Bool
  | .decided (.rejected _) => true
  | _ => false

def isReloaded : Turn → Bool
  | .reloaded => true
  | _ => false

/-- A call is accepted that goes to no route. -/
def isUnrouted : Turn → Bool
  | .decided (.accepted []) => true
  | _ => false

/-- The task returns, and nothing went wrong. -/
def isReturn : Turn → Bool
  | .ended .done => true
  | _ => false

end Turn

def Action.turn? : Action → Option Turn
  | .accept _ deliveries _ => some (.decided (.accepted deliveries))
  | .reject error _ => some (.decided (.rejected error))
  | .countReload => some .reloaded
  | .finish outcome => some (.ended outcome)
  | _ => none

def Action.takes (turn : Turn → Bool) (a : Action) : Bool := a.turn?.any turn

/-- The turns that a task has taken, in order. -/
def turns (task : TaskId) (es : List Event) : List Turn := (deeds task es).filterMap Action.turn?

def Action.attempt? : Action → Option Delivery
  | .attempt _ _ d => some d
  | _ => none

/-- The deliveries that a task has attempted, in order. -/
def attempts (task : TaskId) (es : List Event) : List Delivery := (deeds task es).filterMap Action.attempt?

/-- The deliveries that an action leads to once the routes of its call are chosen. -/
def Action.deliveries : Action → List Delivery
  | .accept _ deliveries _ | .fan _ deliveries _ => deliveries
  | .attempt _ _ d => [d]
  | _ => []

namespace Engine
variable {e e' : Engine} {task : TaskId} {a : Action} {m : Move} {op : Op} {fx : List Effect} {es : List Event}
  {rest next agenda : List Action} {call : Call}

/-! ### The steps of calls -/

theorem depth_admission {g : Generation} (h : e.admission call g = .ok a) : a.depth < 7 := by
  rcases admission_cases h with ⟨_, _, _, rfl⟩ | ⟨_, rfl⟩ <;> simp [Action.depth]

/-- What comes of an action of a call goes on for less than the action does. -/
theorem Next.depth_lt (hn : Next e a next) (ha : a.depth < 9) : ∀ b ∈ next, b.depth < a.depth := by
  intro b hb
  cases hn with
  | nothing => cases hb
  | screen hadm =>
    rw [List.mem_singleton.mp hb]
    exact depth_admission hadm
  | fan =>
    obtain ⟨d, -, rfl⟩ := List.mem_map.mp hb
    exact Nat.lt_succ_self 3
  | @answer ack answer x =>
    cases hresult : answer.result x.route <;> rw [hresult] at hb <;> simp [answerSteps] at hb
    · rcases hb with rfl | rfl | rfl <;> simp [Action.depth]
    · rcases hb with rfl | rfl <;> simp [Action.depth]
  | letGo | close =>
    obtain ⟨r, -, rfl⟩ := List.mem_map.mp hb
    simp [Action.depth] at ha ⊢
  | forbidden | load | reject | noChannel | select | stale | accept | unrouted | alone | dropped | answered
  | awaitOut | send | tell | leave | awaitFree =>
    simp [leaving, logged] at hb
    rcases hb with rfl | rfl | rfl | rfl <;> simp [Action.depth]
  | _ => simp [Action.depth] at ha

theorem closed_isWithin {bound : Nat} (hbound : bound ≤ 9) : Closed (Action.isWithin bound) := by
  intro e a next hn ha
  have ha : a.depth < bound := by simpa [Action.isWithin] using ha
  refine List.all_eq_true.mpr fun b hb => ?_
  have hb := hn.depth_lt (Nat.lt_of_lt_of_le ha hbound) b hb
  simpa [Action.isWithin] using Nat.lt_trans hb ha

theorem all_within_mono {bound bound' : Nat} (hle : bound ≤ bound') (h : agenda.all (Action.isWithin bound) = true) :
    agenda.all (Action.isWithin bound') = true := by
  refine List.all_eq_true.mpr fun a ha => ?_
  have hdepth : a.depth < bound := by simpa [Action.isWithin] using List.all_eq_true.mp h a ha
  simpa [Action.isWithin] using Nat.lt_of_lt_of_le hdepth hle

theorem within_leaving (g : Generation) (outcome : Outcome) : (leaving g outcome).all (Action.isWithin 4) = true := rfl

theorem isForbidden_iff {g : Generation} {setup : Setup} (hmode : g.channelMode = setup.modules) :
    isForbidden call g = true ↔ call.Forbidden setup := by
  unfold isForbidden Call.Forbidden
  rw [← hmode]
  cases call.subject <;> simp

theorem Next.isOfCall (hn : Next e a next) (ha : a.isOfCall = false) : next.any Action.isOfCall = false := by
  have hfrees : ∀ routes : List Route, (frees routes).any Action.isOfCall = false := fun routes =>
    List.any_eq_false.mpr (by simp [frees, Action.isOfCall])
  have hbuilding : ∀ isReload outcome, (building isReload outcome).any Action.isOfCall = false := by
    intro isReload outcome
    cases isReload <;> rfl
  cases hn with
  | @answer ack answer x => cases answer.result x.route <;> rfl
  | letGo | close => exact hfrees _
  | refused | faulty => exact hbuilding _ _
  | @publish d isReload => cases isReload <;> rfl
  | abandon | notCreated =>
    rw [Engine.abandon, List.any_append, hbuilding, Bool.or_false]
    exact hfrees _
  | recalcAll =>
    rw [List.any_append]
    simp [Action.isOfCall]
  | write => simp [Action.isOfCall]
  | nothing | tell | leave | awaitFree | check | draft | awaitCreate | attach | created | install | disabled
  | register => rfl
  | _ => cases ha

theorem closed_foreign : Closed fun a => !a.isOfCall := by
  intro e a next hn ha
  rw [← List.not_any_eq_all_not, hn.isOfCall (by simpa using ha)]
  rfl

section
variable {setup : Setup} {files : File.Store} {config : Config}

/-- A task that began with no call takes no step of one. -/
theorem Run.foreign (h : Run (start setup files config) es e) (hagenda : e.agendas[task]? = some agenda)
    (hno : ∀ call, request? es task ≠ some (.call call)) :
    agenda.any Action.isOfCall = false ∧ (deeds task es).any Action.isOfCall = false := by
  have hclosed : Closed fun a => !a.isOfCall := closed_foreign
  have hforeign := hclosed.of_begins h hagenda rfl fun hrequest hbegins => by
    cases hbegins with
    | call call => exact absurd hrequest (hno call)
    | _ => rfl
  simpa using hforeign

/-- A task with a step of a call before it began with a call. -/
theorem Run.request_of_mem (h : Run (start setup files config) es e) (hagenda : e.agendas[task]? = some agenda)
    (ha : a ∈ agenda) (hcall : a.isOfCall = true) : ∃ call, request? es task = some (.call call) := by
  by_contra hno
  push Not at hno
  exact absurd hcall (List.any_eq_false.mp (h.foreign hagenda hno).1 a ha)

theorem Run.call_of_deed (h : Run (start setup files config) es e) (ha : a ∈ deeds task es)
    (hcall : a.isOfCall = true) : ∃ call, request? es task = some (.call call) := by
  by_contra hno
  push Not at hno
  have hlt : task < e.agendas.length := by
    by_contra hge
    rw [h.deeds_eq_nil (Nat.le_of_not_lt hge)] at ha
    cases ha
  exact absurd hcall (List.any_eq_false.mp (h.foreign (List.getElem?_eq_getElem hlt) hno).2 a ha)

theorem does_load (h : Does e task (.load call) m) : ∃ g, e.live = some g ∧
    m.next = if isForbidden call g then leaving g (.panicked noChannel) else .screen call g :: leaving g .done := by
  cases h with
  | perform h =>
    obtain ⟨g, hg, rfl⟩ := Option.map_eq_some_iff.mp h
    refine ⟨g, hg, ?_⟩
    split <;> rfl

theorem does_screen {g : Generation} {a : Action} (h : Does e task (.screen call g) m)
    (hadmission : e.admission call g = .ok a) : m.next = [a] := by
  cases h with
  | perform h =>
    obtain rfl := Option.some.inj h
    simp only [Engine.screen, hadmission]

/-- How far a call has come: what it has done, and what is on its agenda or was when it got there. -/
inductive Calling (setup : Setup) (files : File.Store) (config : Config) (task : TaskId) (call : Call)
    (es : List Event) (e : Engine) : Prop
  | waiting : e.agendas[task]? = some [.load call] → deeds task es = [] → Calling setup files config task call es e
  | forbidden {g : Generation} {later : List Event} {e₁ : Engine} : call.Forbidden setup → Run e₁ later e →
      e₁.agendas[task]? = some (leaving g (.panicked noChannel)) →
      deeds task es = .load call :: deeds task later → Calling setup files config task call es e
  | loaded {g : Generation} : ¬call.Forbidden setup → e.agendas[task]? = some (.screen call g :: leaving g .done) →
      deeds task es = [.load call] → Calling setup files config task call es e
  | screened {g : Generation} {before after : List Event} {ev : Event} {m : Move} : ¬call.Forbidden setup →
      es = before ++ ev :: after → Run (start setup files config) before ev.before →
      Deed task (.screen call g) (leaving g .done) m ev → Run ev.after after e →
      deeds task es = .load call :: .screen call g :: deeds task after → Calling setup files config task call es e

theorem Run.calling (h : Run (start setup files config) es e) (ht : request? es task = some (.call call)) :
    Calling setup files config task call es e := by
  obtain ⟨earlier, later, e₁, _, rfl, hearlier, hlater, hidle, ⟨⟩, hopening⟩ := h.begun ht
  have hdeeds : deeds task (earlier ++ later) = deeds task later := by simp [hidle]
  rcases hlater.first_deed hopening with ⟨hnone, hsame⟩ | ⟨waiting, ev, after, m, rfl, hnone, hr, hs, hload, hafter⟩
  · exact .waiting hsame (hdeeds.trans hnone)
  · have hdone : deeds task (waiting ++ ev :: after) = .load call :: deeds task after := by
      rw [deeds_append, hnone, deeds_cons, hload.deeds]
      rfl
    obtain ⟨g, hlive, hnext⟩ := does_load hload.does
    have hl : Lineage ev.before ([] ++ installs (earlier ++ waiting)) :=
      (Lineage.start setup files config).run (.start setup files config) (hearlier.trans hr)
    have hmode : g.channelMode = setup.modules := by
      rw [(hl.sound g (hl.live g hlive)).channelMode, (hearlier.trans hr).setup]
      rfl
    have hnow := hload.agenda_after
    rw [hnext, List.append_nil] at hnow
    by_cases hforbidden : isForbidden call g = true
    · rw [if_pos hforbidden] at hnow
      exact .forbidden ((isForbidden_iff hmode).mp hforbidden) hafter hnow (hdeeds.trans hdone)
    · have hallowed : ¬call.Forbidden setup := fun hf => hforbidden ((isForbidden_iff hmode).mpr hf)
      rw [if_neg hforbidden] at hnow
      rcases hafter.first_deed hnow with ⟨hnone, hsame⟩ | ⟨idle, ev', rest, m', rfl, hnone', hr', -, hscreen, hrest⟩
      · exact .loaded hallowed hsame (by rw [hdeeds, hdone, hnone])
      · have hbefore := ((hearlier.trans hr).step hs).trans hr'
        refine .screened hallowed ?_ hbefore hscreen hrest ?_
        · simp
        · rw [hdeeds, hdone, deeds_append, hnone', deeds_cons, hscreen.deeds]
          rfl

/-- A call that is still to be screened has done nothing but take up its generation. -/
theorem Run.unscreened {g : Generation} (h : Run (start setup files config) es e)
    (hagenda : e.agendas[task]? = some (.screen call g :: rest)) :
    request? es task = some (.call call) ∧ deeds task es = [.load call] := by
  -- What comes of the actions of `agenda` in `es` is not the screening again.
  have unscreened : ∀ {e₀ : Engine} {es₀ : List Event} {agenda : List Action}, Run e₀ es₀ e →
      e₀.agendas[task]? = some agenda → agenda.all (Action.isWithin 7) = true → False := by
    intro e₀ es₀ agenda hr hstart hwithin
    have hclosed : Closed (Action.isWithin 7) := closed_isWithin (by decide)
    obtain ⟨agenda', hagenda', hwithin', -⟩ := hclosed.run hr hstart hwithin
    obtain rfl := Option.some.inj (hagenda'.symm.trans hagenda)
    simp [Action.isWithin, Action.depth] at hwithin'
  obtain ⟨call', hrequest⟩ := h.request_of_mem hagenda List.mem_cons_self rfl
  cases h.calling hrequest with
  | waiting hload =>
    rw [hagenda] at hload
    cases hload
  | forbidden _ hr hnow => exact (unscreened hr hnow (all_within_mono (by decide) (within_leaving _ _))).elim
  | loaded _ hscreen hdeeds =>
    obtain ⟨hhead, -⟩ := List.cons.inj (Option.some.inj (hagenda.symm.trans hscreen))
    obtain ⟨rfl, -⟩ := Action.screen.inj hhead
    exact ⟨hrequest, hdeeds⟩
  | screened _ _ _ hdeed hr =>
    refine (unscreened hr hdeed.agenda_after ?_).elim
    rw [List.all_append, all_within_mono (by decide) (within_leaving _ _), Bool.and_true]
    refine List.all_eq_true.mpr fun b hb => ?_
    have hlt : b.depth < 7 := hdeed.does.next.depth_lt (by simp [Action.depth]) b hb
    simpa [Action.isWithin] using hlt

/-- Nothing is attempted up to the screening of a call. -/
theorem Run.attempts_after_screen {g : Generation} {before after : List Event} {ev : Event}
    (h : Run (start setup files config) before ev.before) (hdeed : Deed task (.screen call g) rest m ev) :
    attempts task (before ++ ev :: after) = attempts task after := by
  obtain ⟨-, hload⟩ := h.unscreened hdeed.agenda
  rw [attempts, deeds_append, hload, deeds_cons, hdeed.deeds]
  rfl

end

/-! ### Calls go on by themselves -/

/-- Once a call has taken up its generation, nothing it does waits for another task. -/
theorem exists_own_step (hagenda : e.agendas[task]? = some (a :: rest)) (ha : a.depth < 8) :
    ∃ op e' fx, op.task? = some task ∧ e.step? op = some (e', fx) := by
  have performs : (∃ m, (e.setAgenda task rest).perform? task a = some m) →
      ∃ op e' fx, op.task? = some task ∧ e.step? op = some (e', fx) := by
    rintro ⟨m, hm⟩
    refine ⟨.advance task, m.engine.setAgenda task (m.next ++ rest), m.effects, rfl, ?_⟩
    simp only [step?, advance?, hagenda, hm, Option.map_some, proceed]
  cases a with
  | awaitOut | awaitFree =>
    exact ⟨.returned task false, e.setAgenda task rest, [], rfl, by simp [step?, returned?, hagenda]⟩
  | screen | select | refresh | accept | countUnrouted | fan | attempt | send | reject | answer | count | record | arrive
  | tell | letGo | leave | free | complain | finish => exact performs ⟨_, rfl⟩
  | _ => simp [Action.depth] at ha

/-- A task can do what comes first on its agenda, with all that comes of it, when that is what calls do. -/
theorem exists_doing {bound : Nat} (hbound : bound ≤ 8) (first : List Action) (hfirst : ∀ a ∈ first, a.depth < bound) :
    ∀ (e : Engine) (rest : List Action), e.agendas[task]? = some (first ++ rest) →
      ∃ es e', Run e es e' ∧ (∀ ev ∈ es, ev.op.task? = some task) ∧ e'.agendas[task]? = some rest := by
  induction bound generalizing first with
  | zero =>
    cases first with
    | nil => exact fun e rest hagenda => ⟨[], e, .refl, List.forall_mem_nil _, hagenda⟩
    | cons a => exact absurd (hfirst a List.mem_cons_self) (Nat.not_lt_zero _)
  | succ bound ih =>
    induction first with
    | nil => exact fun e rest hagenda => ⟨[], e, .refl, List.forall_mem_nil _, hagenda⟩
    | cons a first ihfirst =>
      intro e rest hagenda
      have ha : a.depth < bound + 1 := hfirst a List.mem_cons_self
      obtain ⟨op, e₁, fx, hop, hs⟩ := exists_own_step hagenda (Nat.lt_of_lt_of_le ha hbound)
      rcases step_deed hs hagenda with ⟨hother, -⟩ | ⟨a', rest', m, heq, hdeed⟩
      · exact absurd hop hother
      · obtain ⟨rfl, rfl⟩ := List.cons.inj heq
        -- What comes of the action goes on for less, and the other actions come after that.
        have hnext : ∀ b ∈ m.next, b.depth < bound := fun b hb =>
          Nat.lt_of_lt_of_le (hdeed.does.next.depth_lt (by omega) b hb) (Nat.le_of_lt_succ ha)
        obtain ⟨es₁, e₂, hr₁, hown₁, hagenda₁⟩ := ih (Nat.le_of_succ_le hbound) m.next hnext e₁ _ hdeed.agenda_after
        obtain ⟨es₂, e₃, hr₂, hown₂, hagenda₂⟩ :=
          ihfirst (fun b hb => hfirst b (List.mem_cons_of_mem a hb)) e₂ rest hagenda₁
        refine ⟨⟨e, op, e₁, fx⟩ :: (es₁ ++ es₂), e₃, (Run.single hs).trans (hr₁.trans hr₂), ?_, hagenda₂⟩
        refine List.forall_mem_cons.mpr ⟨hop, fun ev hev => ?_⟩
        rcases List.mem_append.mp hev with hev | hev
        · exact hown₁ ev hev
        · exact hown₂ ev hev

/-- A call that has taken up its generation can always be brought to its end. -/
theorem exists_end (hagenda : e.agendas[task]? = some agenda) (hwithin : agenda.all (Action.isWithin 8) = true) :
    ∃ es e', Run e es e' ∧ (∀ ev ∈ es, ev.op.task? = some task) ∧ e'.agendas[task]? = some [] := by
  refine exists_doing (Nat.le_refl 8) agenda (fun a ha => ?_) e [] (by rw [List.append_nil, hagenda])
  simpa [Action.isWithin] using List.all_eq_true.mp hwithin a ha

/-! ### Decisions and attempts -/

theorem honours_deliveries : Honours (Action.isWithin 6) Action.deliveries Action.attempt? := by
  intro e a next hn ha
  cases hn with
  | nothing hend => cases a <;> first | rfl | cases hend
  | @fan g deliveries callback => simp [Action.deliveries, Action.attempt?, List.flatMap_map]
  | @answer ack answer x => cases answer.result x.route <;> rfl
  | @letGo g => simp [Action.deliveries, Action.attempt?, frees, List.flatMap_map]
  | close | recalcAll | write | refused | faulty | publish | abandon | notCreated | forbidden | load | screen | reject
  | noChannel | select | stale => simp [Action.isWithin, Action.depth] at ha
  | accept | unrouted => simp [Action.deliveries, Action.attempt?]
  | _ => rfl

def turned (a : Action) : List Turn := a.turn?.toList

theorem honours_turns : Honours (Action.isWithin 6) turned Action.turn? := by
  intro e a next hn ha
  suffices hnone : next.flatMap turned = [] by rw [hnone, List.append_nil, turned]
  cases hn with
  | @fan g deliveries callback => simp [turned, Action.turn?, List.flatMap_map]
  | @answer ack answer x => cases answer.result x.route <;> rfl
  | @letGo g => simp [turned, Action.turn?, frees, List.flatMap_map]
  | close | recalcAll | write | refused | faulty | publish | abandon | notCreated | forbidden | load | screen | reject
  | noChannel | select | stale | disabled | register => simp [Action.isWithin, Action.depth] at ha
  | _ => rfl

/-- The agenda of a call on which a decision is about to be made. -/
structure Decides (agenda : List Action) (d : Decision) : Prop where
  within : agenda.all (Action.isWithin 6) = true
  turns : agenda.flatMap turned = [.decided d, .ended .done]
  deliveries : agenda.flatMap Action.deliveries = d.deliveries

namespace Decides
variable {d : Decision} {g : Generation} {callback : Option CallbackId}

theorem accept {deliveries : List Delivery} :
    Decides (.accept g deliveries callback :: leaving g .done) (.accepted deliveries) :=
  ⟨rfl, rfl, List.append_nil _⟩

theorem reject {error : LogError} : Decides (.reject error callback :: leaving g .done) (.rejected error) :=
  ⟨rfl, rfl, rfl⟩

theorem refresh {channel : ChannelId} {table : RouteLevels} (h : Decides agenda d) :
    Decides (.refresh channel table :: agenda) d :=
  ⟨h.within, h.turns, h.deliveries⟩

/-- A call attempts what it is decided on, in order, and returns. -/
theorem run (h : Decides agenda d) (hr : Run e es e') (hagenda : e.agendas[task]? = some agenda) :
    ∃ agenda', e'.agendas[task]? = some agenda' ∧ agenda'.all (Action.isWithin 6) = true ∧
      LogDispatch.turns task es ++ agenda'.flatMap turned = [.decided d, .ended .done] ∧
      attempts task es ++ agenda'.flatMap Action.deliveries = d.deliveries := by
  have hclosed : Closed (Action.isWithin 6) := closed_isWithin (by decide)
  obtain ⟨agenda', hagenda', hwithin', -⟩ := hclosed.run hr hagenda h.within
  obtain ⟨agenda₁, hagenda₁, hturns⟩ := honours_turns.run hclosed hr hagenda h.within
  obtain ⟨agenda₂, hagenda₂, hattempts⟩ := honours_deliveries.run hclosed hr hagenda h.within
  obtain rfl := Option.some.inj (hagenda'.symm.trans hagenda₁)
  obtain rfl := Option.some.inj (hagenda'.symm.trans hagenda₂)
  refine ⟨agenda', hagenda', hwithin', ?_, ?_⟩
  · rw [LogDispatch.turns, hturns, h.turns]
  · rw [attempts, hattempts, h.deliveries]

end Decides

end Engine

end LogDispatch
