import LogDispatch.Proofs.Calls
import LogDispatch.Proofs.Completion
import LogDispatch.Proofs.Custody
import LogDispatch.Proofs.Fallbacks

/-! Calls whose routes are chosen. Such a call tries its deliveries in order, each once, and gives out their records
    and no others; the answers are waited for in one fan-out, and after the last of them the callback of the call is
    told (`Run.carriesOut`). -/

namespace LogDispatch

/-- A delivery that is tried, with the generation it was chosen from and the fan-out that waits for the answer. -/
def Action.trial? : Action → Option (Generation × FanOutId × Delivery)
  | .attempt g k d => some (g, k, d)
  | _ => none

/-- The deliveries that a task has tried, in order. -/
def trials (task : TaskId) (es : List Event) : List (Generation × FanOutId × Delivery) :=
  (deeds task es).filterMap Action.trial?

def Effect.out? : Effect → Option (TransportId × Record)
  | .out _ transport record _ => some (transport, record)
  | _ => none

/-- The records that a task has given to transports, in order. -/
def outs (task : TaskId) (es : List Event) : List (TransportId × Record) :=
  es.flatMap fun ev => if ev.op.task? = some task then ev.effects.filterMap Effect.out? else []

/-- The record of a delivery and the transport that gets it, unless rendering the record panics. -/
def Delivery.handed? (g : Generation) (d : Delivery) : Option (TransportId × Record) :=
  g.routes[d.route]?.bind fun r => d.text.toOption.map fun text => (r.transport, d.record g r text)

def Action.handed? : Action → Option (TransportId × Record)
  | .attempt g _ d => d.handed? g
  | _ => none

theorem handed_eq_trials {task : TaskId} {es : List Event} : (deeds task es).filterMap Action.handed? =
    (trials task es).filterMap fun t => t.2.2.handed? t.1 := by
  rw [trials, List.filterMap_filterMap]
  refine List.filterMap_congr fun a _ => ?_
  cases a <;> rfl

/-- A name bound in the frame of a call is read from there, whatever the other frames say. -/
theorem Generation.resolve?_scopeFor {g : Generation} {channel : Option Frame} {caller : List Frame} {frame : Frame}
    {name : String} {value : Value} (h : frame.get? name = some value) :
    (g.scopeFor channel caller frame).resolve? name = some value := by
  simp [Generation.scopeFor, Scope.resolve?, h]

section lists
variable {task : TaskId} {es es' : List Event}

@[simp] theorem trials_append : trials task (es ++ es') = trials task es ++ trials task es' := by simp [trials]

theorem trials_cons (ev : Event) : trials task (ev :: es) = trials task [ev] ++ trials task es := by
  rw [← trials_append, List.singleton_append]

theorem attempts_eq_map_trials : attempts task es = (trials task es).map (·.2.2) := by
  rw [attempts, trials, List.map_filterMap]
  refine List.filterMap_congr fun a _ => ?_
  cases a <;> rfl

@[simp] theorem outs_append : outs task (es ++ es') = outs task es ++ outs task es' := List.flatMap_append

end lists

/-- The deliveries of a call are still ahead, or wait for their answers in one fan-out. -/
inductive Joined (task : TaskId) (g : Generation) (deliveries : List Delivery) (callback : Option CallbackId)
    (es : List Event) (e : Engine) : Prop
  | ahead : trials task es = [] → e.agendas[task]? ≠ some [] → Joined task g deliveries callback es e
  | begun {before after : List Event} {ev : Event} : es = before ++ ev :: after → ev.op.task? = some task →
      ev.action? = some (.fan g deliveries callback) →
      trials task es <+: deliveries.map (g, ev.before.fanOuts.length, ·) →
      Engine.Collects ev.before.fanOuts.length g deliveries callback ev.after.metrics after e →
      Joined task g deliveries callback es e

theorem Joined.generation {task : TaskId} {g : Generation} {deliveries : List Delivery} {callback : Option CallbackId}
    {es : List Event} {e : Engine} (h : Joined task g deliveries callback es e)
    {t : Generation × FanOutId × Delivery} (ht : t ∈ trials task es) : t.1 = g := by
  cases h with
  | ahead hnone =>
    rw [hnone] at ht
    cases ht
  | begun _ _ _ htrials =>
    obtain ⟨d, -, rfl⟩ := List.mem_map.mp (htrials.subset ht)
    rfl

/-- What a task has come to that carries out the deliveries of a call. They are tried in order, all of them by the time
    the call is over, and it can always be brought to its end; the records given out are those of the deliveries that
    were tried, and their answers are waited for together. -/
structure CarriesOut (task : TaskId) (g : Generation) (deliveries : List Delivery) (callback : Option CallbackId)
    (es : List Event) (e : Engine) : Prop where
  ordered : attempts task es <+: deliveries
  complete : e.agendas[task]? = some [] → attempts task es = deliveries
  ends : ∃ es' e', Engine.Run e es' e' ∧ (∀ ev ∈ es', ev.op.task? = some task) ∧ e'.agendas[task]? = some []
  records : outs task es = (attempts task es).filterMap (Delivery.handed? g)
  joined : Joined task g deliveries callback es e

theorem CarriesOut.all_tried {task : TaskId} {g : Generation} {deliveries : List Delivery}
    {callback : Option CallbackId} {es : List Event} {e : Engine} (h : CarriesOut task g deliveries callback es e)
    (hend : e.agendas[task]?.map List.length = some 0) : attempts task es = deliveries := by
  obtain ⟨agenda, hagenda, hlength⟩ := Option.map_eq_some_iff.mp hend
  rw [List.length_eq_zero_iff.mp hlength] at hagenda
  exact h.complete hagenda

/-- A record was given out for a delivery to its route. -/
theorem CarriesOut.delivery_of_out {task : TaskId} {g : Generation} {deliveries : List Delivery}
    {callback : Option CallbackId} {es : List Event} {e : Engine} (h : CarriesOut task g deliveries callback es e)
    {out : TransportId × Record} (hout : out ∈ outs task es) : ∃ d ∈ deliveries, ∃ r text,
      g.routes[d.route]? = some r ∧ d.text = .ok text ∧ out = (r.transport, d.record g r text) := by
  rw [h.records] at hout
  obtain ⟨d, hd, hhanded⟩ := List.mem_filterMap.mp hout
  obtain ⟨r, hr, hhanded⟩ := Option.bind_eq_some_iff.mp hhanded
  obtain ⟨text, htext, rfl⟩ := Option.map_eq_some_iff.mp hhanded
  exact ⟨d, h.ordered.subset hd, r, text, hr, eq_ok_of_toOption htext, rfl⟩

namespace Engine
variable {e e' : Engine} {task : TaskId} {a : Action} {m : Move} {es : List Event} {rest agenda : List Action}
  {call : Call} {g : Generation} {deliveries : List Delivery} {callback : Option CallbackId} {k : FanOutId}

/-! ### What is given out -/

theorem out?_of_deliver {transport : TransportId} {record : Record} {ack : AckId} {complaint : String} :
    (e.deliver task transport record ack complaint).effects.filterMap Effect.out? = [(transport, record)] := by
  unfold deliver
  split
  · rfl
  · rfl
  · split <;> rfl
  · rfl

/-- Only attempts give records out, each that of its delivery. -/
theorem Does.outs (h : Does e task a m) : m.effects.filterMap Effect.out? = a.handed?.toList := by
  cases a with
  | attempt g k d =>
    cases h with
    | perform h =>
      obtain rfl := Option.some.inj h
      cases hr : g.routes[d.route]? with
      | none => simp [Engine.attempt, Action.handed?, Delivery.handed?, hr]
      | some r =>
        cases htext : d.text with
        | error panic => simp [Engine.attempt, Action.handed?, Delivery.handed?, hr, htext, Except.toOption]
        | ok text =>
          simp [Engine.attempt, Action.handed?, Delivery.handed?, hr, htext, Except.toOption, out?_of_deliver]
  | _ =>
    refine List.filterMap_eq_nil_iff.mpr fun fx hfx => ?_
    cases fx with
    | out =>
      obtain ⟨_, _, _, _, heq, -⟩ := h.isOf hfx
      cases heq
    | _ => rfl

/-- What a task gives out are the records of what it attempts. -/
theorem Run.outs (h : Run e es e') : LogDispatch.outs task es = (deeds task es).filterMap Action.handed? := by
  induction h with
  | refl => rfl
  | @step es e₁ e₂ op fx _ hs ih =>
    rw [outs_append, ih, deeds_append, List.filterMap_append]
    congr 1
    by_cases htask : op.task? = some task
    · rcases step_cases hs with ⟨request, rfl, -⟩ | ⟨t, a, rest, m, ht, hagenda, hdoes, hafter, hfx⟩
      · cases htask
      · obtain rfl := Option.some.inj (ht.symm.trans htask)
        have hdeed : Deed t a rest m ⟨e₁, op, e₂, fx⟩ := ⟨htask, hagenda, hdoes, hafter, hfx⟩
        rw [hdeed.deeds, LogDispatch.outs, List.flatMap_singleton, if_pos htask, hfx, hdoes.outs]
        cases hhanded : a.handed? <;> simp [hhanded]
    · rw [deeds_of_other htask, LogDispatch.outs, List.flatMap_singleton, if_neg htask]
      rfl

/-! ### The way to the fan-out -/

theorem Deed.trials {ev : Event} (h : Deed task a rest m ev) : LogDispatch.trials task [ev] = a.trial?.toList := by
  rw [LogDispatch.trials, h.deeds]
  cases htrial : a.trial? <;> simp [htrial]

theorem trials_of_other {ev : Event} (h : ev.op.task? ≠ some task) : trials task [ev] = [] := by
  rw [trials, deeds_of_other h]
  rfl

/-- What is on the agenda of a call until its deliveries begin to wait. -/
inductive BeforeFan (g : Generation) (deliveries : List Delivery) (callback : Option CallbackId) :
    List Action → Prop
  | accept : BeforeFan g deliveries callback [.accept g deliveries callback]
  | unrouted : BeforeFan g deliveries callback [.countUnrouted, .fan g deliveries callback]
  | fan : BeforeFan g deliveries callback [.fan g deliveries callback]

/-- The step of a call before its fan-out leaves it on the way there. -/
theorem BeforeFan.next {next : List Action} (h : BeforeFan g deliveries callback (a :: agenda))
    (ha : a ≠ .fan g deliveries callback) (hn : Next e a next) :
    BeforeFan g deliveries callback (next ++ agenda) ∧ a.trial? = none := by
  cases h with
  | accept =>
    cases hn with
    | nothing hend => cases hend
    | accept => exact ⟨.fan, rfl⟩
    | unrouted => exact ⟨.unrouted, rfl⟩
  | unrouted =>
    cases hn with
    | nothing => exact ⟨.fan, rfl⟩
  | fan => exact absurd rfl ha

/-- A call on the way to its fan-out has tried nothing, or there is the event at which it began to wait. -/
theorem Run.until_fan {first : List Action} (hr : Run e es e') (hagenda : e.agendas[task]? = some (first ++ rest))
    (hfirst : BeforeFan g deliveries callback first) :
    (trials task es = [] ∧ ∃ first', BeforeFan g deliveries callback first' ∧
      e'.agendas[task]? = some (first' ++ rest)) ∨
    ∃ before ev after m, es = before ++ ev :: after ∧ trials task before = [] ∧ Run e before ev.before ∧
      ev.before.step? ev.op = some (ev.after, ev.effects) ∧ Deed task (.fan g deliveries callback) rest m ev ∧
      Run ev.after after e' := by
  induction hr with
  | refl => exact .inl ⟨rfl, first, hfirst, hagenda⟩
  | @step es e₁ e₂ op fx hr hs ih =>
    rcases ih with ⟨hnone, first', hfirst', hnow⟩ | ⟨before, ev, after, m, rfl, hnone, hr₁, hs₁, hdeed, hr₂⟩
    · rcases step_deed hs hnow with ⟨hother, hsame⟩ | ⟨a, rest', m, heq, hdeed⟩
      · exact .inl ⟨by rw [trials_append, hnone, trials_of_other hother]; rfl, first', hfirst', hsame⟩
      · obtain ⟨agenda, rfl, rfl⟩ : ∃ agenda, first' = a :: agenda ∧ rest' = agenda ++ rest := by
          cases hfirst' <;> exact ⟨_, by rw [(List.cons.inj heq).1], (List.cons.inj heq).2.symm⟩
        by_cases ha : a = .fan g deliveries callback
        · obtain rfl : agenda = [] := by
            subst ha
            cases hfirst'
            rfl
          exact .inr ⟨es, _, [], m, rfl, hnone, hr, hs, ha ▸ hdeed, .refl⟩
        · obtain ⟨hnext, htrial⟩ := hfirst'.next ha hdeed.does.next
          refine .inl ⟨by rw [trials_append, hnone, hdeed.trials, htrial]; rfl, _, hnext, ?_⟩
          rw [List.append_assoc]
          exact hdeed.agenda_after
    · exact .inr ⟨before, ev, after ++ [⟨e₁, op, e₂, fx⟩], m, by simp, hnone, hr₁, hs₁, hdeed, hr₂.step hs⟩

/-! ### The fan-out -/

theorem honours_trials : Honours (Action.isWithin 4) (fun a => a.trial?.toList) Action.trial? := by
  intro e a next hn ha
  suffices hnone : next.flatMap (fun a => a.trial?.toList) = [] by rw [hnone, List.append_nil]
  cases hn with
  | @answer ack answer x => cases answer.result x.route <;> rfl
  | @letGo g => simp [Action.trial?, frees, List.flatMap_map]
  | close | recalcAll | write | refused | faulty | publish | abandon | notCreated | forbidden | load | screen | reject
  | noChannel | select | stale | accept | unrouted | fan | alone => simp [Action.isWithin, Action.depth] at ha
  | _ => rfl

/-- What a call does once it waits are the trials of its deliveries, in order. -/
theorem trials_waiting {ev : Event} (hdeed : Deed task (.fan g deliveries callback) (leaving g .done) m ev)
    (hr : Run ev.after es e') : trials task es <+: deliveries.map (g, ev.before.fanOuts.length, ·) := by
  have hnow := hdeed.agenda_after
  have hnext : m.next = if deliveries.isEmpty then [.tell ev.before.fanOuts.length]
      else deliveries.map (.attempt g ev.before.fanOuts.length) := by
    rw [does_fan hdeed.does]
    rfl
  have hwithin : (m.next ++ leaving g .done).all (Action.isWithin 4) = true := by
    rw [List.all_append, within_leaving, Bool.and_true, hnext]
    split
    · rfl
    · simp [Action.isWithin, Action.depth]
  obtain ⟨agenda, -, htrials⟩ := honours_trials.run (closed_isWithin (by decide)) hr hnow hwithin
  have hall : (m.next ++ leaving g .done).flatMap (fun a => a.trial?.toList) =
      deliveries.map (g, ev.before.fanOuts.length, ·) := by
    rw [List.flatMap_append, hnext]
    cases deliveries with
    | nil => rfl
    | cons d ds =>
      simp [leaving, Action.trial?, List.flatMap_map]
      exact List.map_eq_flatMap.symm
  rw [← hall, ← htrials]
  exact List.prefix_append _ _

section
variable {setup : Setup} {files : File.Store} {config : Config}

/-- A call goes on to its fan-out without the host. -/
theorem Deed.op_of_fan {ev : Event} (hs : ev.before.step? ev.op = some (ev.after, ev.effects))
    (hdeed : Deed task (.fan g deliveries callback) rest m ev) : ev.op = .advance task := by
  obtain ⟨before, op, after, effects⟩ := ev
  have hown : op.task? = some task := hdeed.own
  have hagenda : before.agendas[task]? = some (.fan g deliveries callback :: rest) := hdeed.agenda
  cases op with
  | begin => cases hown
  | advance => exact congrArg Op.advance (Option.some.inj hown)
  | created =>
    obtain rfl := Option.some.inj hown
    simp [step?, created?, hagenda] at hs
  | returned =>
    obtain rfl := Option.some.inj hown
    simp [step?, returned?, hagenda] at hs

/-- A call whose routes are chosen carries out its deliveries. -/
theorem Run.carriesOut {before after : List Event} {ev : Event}
    (h : Run (start setup files config) (before ++ ev :: after) e) (htask : ev.op.task? = some task)
    (haction : ev.action? = some (.screen call g))
    (hadmission : ev.before.admission call g = .ok (.accept g deliveries callback)) :
    g ∈ installs (before ++ ev :: after) ∧ CarriesOut task g deliveries callback (before ++ ev :: after) e := by
  obtain ⟨hbefore, hs, hafter⟩ := h.split
  obtain ⟨rest, m, hdeed⟩ := deed_of_action? hs htask haction
  have hmem := List.mem_of_getElem? hdeed.agenda
  have hg : g ∈ installs before := (hbefore.lineage.rooted _ hmem).1.1
  obtain rfl : rest = leaving g .done := (((Orderly.start setup files config).run hbefore).arranged _ hmem).fits
  have hnow : ev.after.agendas[task]? = some ([.accept g deliveries callback] ++ leaving g .done) := by
    rw [hdeed.agenda_after, does_screen hdeed.does hadmission]
  obtain ⟨-, hload⟩ := hbefore.unscreened hdeed.agenda
  obtain ⟨agenda, hagenda, hwithin, -, hattempts⟩ := Decides.accept.run hafter hnow
  have hearlier : attempts task (before ++ ev :: after) = attempts task after := hbefore.attempts_after_screen hdeed
  have hunscreened : trials task (before ++ [ev]) = [] := by
    rw [trials_append, trials, hload, hdeed.trials]
    rfl
  have hsplit : before ++ ev :: after = before ++ [ev] ++ after := by simp
  have hjoined : Joined task g deliveries callback (before ++ ev :: after) e := by
    rcases hafter.until_fan hnow .accept with ⟨hnone, first, hfirst, hagenda'⟩ |
      ⟨before', ev', after', m', rfl, hnone, hr, hs', hdeed', hr'⟩
    · refine .ahead (by rw [hsplit, trials_append, hunscreened, hnone]; rfl) fun hend => ?_
      rw [hend] at hagenda'
      cases hfirst <;> cases hagenda'
    · have hlate : trials task (before ++ ev :: (before' ++ ev' :: after')) = trials task after' := by
        rw [hsplit, trials_append, hunscreened, trials_append, hnone, trials_cons ev', hdeed'.trials]
        rfl
      have hplace : before ++ ev :: (before' ++ ev' :: after') = (before ++ ev :: before') ++ ev' :: after' := by simp
      refine .begun hplace hdeed'.own hdeed'.action? ?_ ?_
      · rw [hlate]
        exact trials_waiting hdeed' hr'
      · have hs'' := hs'
        rw [Deed.op_of_fan hs' hdeed'] at hs''
        exact ((hbefore.step hs).trans hr).collects hdeed'.agenda hs'' hr'
  refine ⟨?_, ⟨?_, fun hend => ?_, exists_end hagenda (all_within_mono (by decide) hwithin), ?_, hjoined⟩⟩
  · rw [installs_append]
    exact List.mem_append_left _ hg
  · rw [hearlier]
    exact ⟨_, hattempts⟩
  · obtain rfl := Option.some.inj (hagenda.symm.trans hend)
    rw [hearlier]
    simpa [Decision.deliveries] using hattempts
  · rw [h.outs, attempts_eq_map_trials, List.filterMap_map, handed_eq_trials]
    refine List.filterMap_congr fun t ht => ?_
    rw [hjoined.generation ht]
    rfl

/-- A call that can be taken up is screened by its second step. -/
theorem history_screens {ops : List Op} (call : Call) (es : List Event) (hagenda : e.agendas[task]? = some [.load call])
    (hlive : e.live = some g) (hallowed : isForbidden call g = false)
    (hrun : (e.run? (.advance task :: .advance task :: ops)).isSome = true) :
    ∃ before ev after, es ++ e.history (.advance task :: .advance task :: ops) = before ++ ev :: after ∧
      ev.op.task? = some task ∧ ev.action? = some (.screen call g) ∧ ev.before = e.after [.advance task] := by
  obtain ⟨fx₁, hs₁, hrest, hfirst, -⟩ := history_cons hrun
  obtain ⟨fx₂, -, -, hsecond, -⟩ := history_cons hrest
  have hscreen : (e.after [.advance task]).agendas[task]? = some (.screen call g :: leaving g .done) := by
    rcases step_deed hs₁ hagenda with ⟨hother, -⟩ | ⟨a, rest, m, heq, hdeed⟩
    · exact absurd rfl hother
    · obtain ⟨rfl, rfl⟩ := List.cons.inj heq
      obtain ⟨g', hg', hnext⟩ := does_load hdeed.does
      obtain rfl : g' = g := Option.some.inj (hg'.symm.trans hlive)
      have hnow := hdeed.agenda_after
      rw [hnext, hallowed, List.append_nil] at hnow
      exact hnow
  have hes : es ++ e.history (.advance task :: .advance task :: ops) = es ++
      [⟨e, .advance task, e.after [.advance task], fx₁⟩] ++ ⟨e.after [.advance task], .advance task,
        (e.after [.advance task]).after [.advance task], fx₂⟩ ::
          ((e.after [.advance task]).after [.advance task]).history ops := by
    rw [hfirst, hsecond, List.append_cons]
  exact ⟨_, _, _, hes, rfl, action?_of_task rfl hscreen, rfl⟩

end

end Engine

end LogDispatch
