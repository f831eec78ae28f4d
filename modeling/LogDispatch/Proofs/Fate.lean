import LogDispatch.Proofs.Calls
import LogDispatch.Proofs.Custody
import LogDispatch.Proofs.FanOut

/-! What becomes of a call. It panics, is turned away, or is accepted and attempts its deliveries (`Run.fate`). One
    that is turned away reaches no transport, and its callback is told of the error by the rejection and by nothing
    else (`Run.dismissed`). -/

namespace LogDispatch

/-- No route can be chosen for the call: it is for a level that the generation does not have, or its message is a list
    of no arguments. -/
def Call.Faulty (call : Call) (g : Generation) : Prop :=
  match call.subject with
  | .log level message => (∀ rank, g.levels.resolve level ≠ .ok rank) ∨ message = .format []
  | .tags _ message => message = .format []
  | .event _ => False

/-- The call is one to turn away: it comes after the engine was shut down, or is faulty. -/
def Call.Refused (call : Call) (g : Generation) (earlier : List Event) : Prop :=
  (∃ ev ∈ earlier, ev.action? = some .close) ∨ call.Faulty g

/-- The action is a step of a call that was turned away. -/
def Action.isParting : Action → Bool
  | .reject .. | .letGo _ | .leave | .free .. | .awaitFree _ | .finish _ => true
  | _ => false

/-- What becomes of a call, turn by turn, and the deliveries it attempts on the way. -/
inductive Fate (setup : Setup) (task : TaskId) (call : Call) (es : List Event) : List Turn → List Delivery → Prop
  | forbidden : call.Forbidden setup → Fate setup task call es [.ended (.panicked Engine.noChannel)] []
  | rejected {earlier later : List Event} {ev : Event} {g : Generation} {error : LogError} {parting : List Action} :
      ¬call.Forbidden setup → es = earlier ++ ev :: later → ev.op.task? = some task →
      ev.action? = some (.screen call g) → call.Refused g earlier →
      deeds task es = .load call :: .screen call g :: parting → parting.all Action.isParting = true →
      Fate setup task call es [.decided (.rejected error), .ended .done] []
  | accepted {earlier later : List Event} {ev : Event} {g : Generation} {deliveries : List Delivery} :
      ¬call.Forbidden setup → es = earlier ++ ev :: later → ev.op.task? = some task →
      ev.action? = some (.screen call g) → ¬call.Refused g earlier →
      Fate setup task call es [.decided (.accepted deliveries), .ended .done] deliveries

/-- What an action counts. -/
def Action.metered (a : Action) (m : Metrics) : Metrics :=
  match a with
  | .accept .. => m.countAccepted
  | .reject .. => m.countRejected
  | .countUnrouted => m.countUnrouted
  | .count _ (.ok _) => m.countDelivered
  | .count _ (.error _) => m.countFailed
  | .countReload => m.countReload
  | _ => m

/-- What callbacks of this number were told, in order. -/
def told (c : CallbackId) (es : List Event) : List (Except LogError Unit) :=
  (es.flatMap (·.effects)).filterMap fun
    | .complete completion => if completion.callback = c then some completion.result else none
    | _ => none

theorem told_cons (c : CallbackId) (ev : Event) (es : List Event) : told c (ev :: es) = told c [ev] ++ told c es := by
  simp [told]

theorem told_singleton (c : CallbackId) (ev : Event) : told c [ev] = ev.effects.filterMap fun
    | .complete completion => if completion.callback = c then some completion.result else none
    | _ => none := by
  simp [told]

theorem told_eq_nil {c : CallbackId} {ev : Event} (h : ∀ x, .complete x ∈ ev.effects → x.callback ≠ c) :
    told c [ev] = [] := by
  refine List.filterMap_eq_nil_iff.mpr fun fx hfx => ?_
  have hfx : fx ∈ ev.effects := by simpa using hfx
  cases fx with
  | complete x => exact if_neg (h x hfx)
  | _ => rfl

/-- The callback that an action of a call may tell in the end is this one. -/
def Action.isFor (callback : Option CallbackId) : Action → Bool
  | .load call | .screen call _ | .select call .. => call.callback == callback
  | .accept _ _ callback' | .fan _ _ callback' | .reject _ callback' => callback' == callback
  | _ => true

/-- What a turn of a call tells the callback at once. -/
def Turn.refusal : Turn → List (Except LogError Unit)
  | .decided (.rejected error) => [.error error]
  | _ => []

theorem told_eq_of_each {c : CallbackId} {task : TaskId} {es : List Event}
    (h : ∀ ev ∈ es, told c [ev] = (turns task [ev]).flatMap Turn.refusal) :
    told c es = (turns task es).flatMap Turn.refusal := by
  induction es with
  | nil => rfl
  | cons ev es ih =>
    rw [told_cons, h ev List.mem_cons_self, ih fun ev' hev' => h ev' (List.mem_cons_of_mem ev hev'),
      ← List.flatMap_append, turns, turns, turns, ← List.filterMap_append, ← deeds_cons]

/-- What is true of a call that was turned away with an error. Its steps give nothing to a transport and count nothing
    but the rejection; a callback that no other call has is told of the error, once. -/
structure Dismissed (task : TaskId) (call : Call) (error : LogError) (es : List Event) : Prop where
  silent : ∀ ev ∈ es, ev.op.task? = some task → ∀ t transport record ack, .out t transport record ack ∉ ev.effects
  metrics : ∀ ev ∈ es, ev.op.task? = some task →
    ev.after.metrics = ev.before.metrics ∨ ev.after.metrics = ev.before.metrics.countRejected
  told : ∀ c, call.callback = some c →
    (∀ task' call', request? es task' = some (.call call') → call'.callback = some c → task' = task) →
    told c es = [.error error]

/-- What a call that was turned away has done: it took up its generation, was screened, rejected and let go. -/
structure Parted (task : TaskId) (call : Call) (error : LogError) (es : List Event) : Prop where
  deeds : ∀ a ∈ LogDispatch.deeds task es, a = .load call ∨ (∃ g, a = .screen call g) ∨ a.isParting = true
  refusal : (turns task es).flatMap Turn.refusal = [.error error]

namespace Engine
variable {e e' : Engine} {task : TaskId} {a : Action} {m : Move} {op : Op} {fx : List Effect} {es : List Event}
  {rest next agenda : List Action} {call : Call} {g : Generation} {error : LogError}

/-! ### The screening -/

theorem render_eq_error_iff {message : Message} : (∃ fault, message.render = .error fault) ↔ message = .format [] := by
  cases message with
  | format args => cases args <;> simp [Message.render]
  | _ => simp [Message.render]

/-- A call is let through unless the engine is shut down or the call is faulty. -/
theorem admission_eq_error_iff :
    (∃ error, e.admission call g = .error error) ↔ e.isClosed = true ∨ call.Faulty g := by
  unfold admission Call.Faulty
  cases e.isClosed with
  | true => simp
  | false =>
    simp only [Bool.false_eq_true, if_false, false_or]
    cases call.subject with
    | event name => simp
    | tags tags message =>
      dsimp only
      rw [← render_eq_error_iff]
      cases message.render <;> simp
    | log level message =>
      dsimp only
      rw [← render_eq_error_iff]
      cases g.levels.resolve level with
      | error => simp
      | ok rank =>
        cases message.render with
        | error => simp
        | ok text =>
          dsimp only
          split <;> simp

theorem Does.isClosed_eq (h : Does e task a m) (ha : a ≠ .close) : m.engine.isClosed = e.isClosed := by
  have hf := h.frame
  cases a
  case close => exact absurd rfl ha
  all_goals
    dsimp only [Action.Changes] at hf
    exact (congrArg Engine.isClosed hf :)

section
variable {setup : Setup} {files : File.Store} {config : Config}

/-- An engine is closed once it has been shut down. -/
theorem Run.isClosed_iff (h : Run (start setup files config) es e) :
    e.isClosed = true ↔ ∃ ev ∈ es, ev.action? = some .close := by
  induction h with
  | refl => simp [start]
  | @step es e₁ e₂ op fx _ hs ih =>
    simp only [List.mem_append, List.mem_singleton, or_and_right, exists_or, exists_eq_left]
    rw [← ih]
    rcases step_cases hs with ⟨request, rfl, hb, -⟩ | ⟨task, a, rest, m, htask, hagenda, hdoes, rfl, -⟩
    · obtain ⟨-, -, -, hcalm⟩ := begin_cases hb
      simp [hcalm.isClosed, Event.action?, Op.task?]
    · rw [action?_of_task htask hagenda, isClosed_setAgenda]
      by_cases ha : a = .close
      · subst ha
        simp [(does_close hdoes).1]
      · simp [hdoes.isClosed_eq ha, ha]

end

theorem does_screen_cases (h : Does e task (.screen call g) m) :
    (∃ error, e.admission call g = .error error ∧ m.next = [.reject error call.callback]) ∨
      ∃ a, e.admission call g = .ok a ∧ m.next = [a] := by
  cases h with
  | perform h =>
    obtain rfl := Option.some.inj h
    unfold Engine.screen
    split
    · rename_i a hadmission
      exact .inr ⟨a, hadmission, rfl⟩
    · rename_i error hadmission
      exact .inl ⟨error, hadmission, rfl⟩

theorem Next.decides {channel : ChannelId} {rank : Nat} {text : String}
    (hn : Next e (.select call g channel rank text) next) :
    ∃ deliveries, Decides (next ++ leaving g .done) (.accepted deliveries) := by
  cases hn with
  | nothing hend => cases hend
  | noChannel | select => exact ⟨_, .accept⟩
  | stale => exact ⟨_, .refresh .accept⟩

/-! ### The fate of a call -/

theorem closed_isParting : Closed Action.isParting := by
  intro e a next hn ha
  cases hn with
  | nothing => rfl
  | letGo => simp [frees, Action.isParting]
  | leave | awaitFree => rfl
  | _ => cases ha

section
variable {setup : Setup} {files : File.Store} {config : Config}

/-- What comes of a call is open yet, or what its agenda still holds makes it complete. -/
inductive Fated (setup : Setup) (task : TaskId) (call : Call) (es : List Event) (agenda : List Action) : Prop
  | undecided : turns task es = [] → attempts task es = [] → agenda ≠ [] → Fated setup task call es agenda
  | decided {ts : List Turn} {ds : List Delivery} : Fate setup task call es ts ds →
      turns task es ++ agenda.flatMap turned = ts → attempts task es ++ agenda.flatMap Action.deliveries = ds →
      Fated setup task call es agenda

/-- A call that is let through waits for its routes to be chosen, or what its agenda still holds makes it complete. -/
theorem Run.accepts (h : Run e es e') (hnow : e.agendas[task]? = some (a :: leaving g .done))
    (hadmission : ∃ e₀ : Engine, e₀.admission call g = .ok a) :
    ∃ agenda, e'.agendas[task]? = some agenda ∧
      ((turns task es = [] ∧ attempts task es = [] ∧ agenda ≠ []) ∨
        ∃ ds, turns task es ++ agenda.flatMap turned = [.decided (.accepted ds), .ended .done] ∧
          attempts task es ++ agenda.flatMap Action.deliveries = ds) := by
  obtain ⟨e₀, hadmission⟩ := hadmission
  rcases admission_cases hadmission with ⟨channel, rank, text, rfl⟩ | ⟨deliveries, rfl⟩
  -- A log call through a channel chooses its routes in a step of its own; other calls have chosen them already.
  · rcases h.first_deed hnow with ⟨hnone, hsame⟩ | ⟨idle, ev, rest, m, rfl, hnone, -, -, hselect, hrest⟩
    · refine ⟨_, hsame, .inl ⟨?_, ?_, List.cons_ne_nil _ _⟩⟩
      · simp [turns, hnone]
      · simp [attempts, hnone]
    · obtain ⟨deliveries, hdecides⟩ := hselect.does.next.decides
      obtain ⟨agenda, hagenda, -, hts, hds⟩ := hdecides.run hrest hselect.agenda_after
      have hdone : deeds task (idle ++ ev :: rest) = .select call g channel rank text :: deeds task rest := by
        rw [deeds_append, hnone, deeds_cons, hselect.deeds]
        rfl
      refine ⟨agenda, hagenda, .inr ⟨deliveries, ?_, ?_⟩⟩
      · rw [turns, hdone]
        exact hts
      · rw [attempts, hdone]
        exact hds
  · obtain ⟨agenda, hagenda, -, hts, hds⟩ := Decides.accept.run h hnow
    exact ⟨agenda, hagenda, .inr ⟨deliveries, hts, hds⟩⟩

/-- Each call comes to its fate. -/
theorem Run.fated (h : Run (start setup files config) es e) (ht : request? es task = some (.call call)) :
    ∃ agenda, e.agendas[task]? = some agenda ∧ Fated setup task call es agenda := by
  cases h.calling ht with
  | waiting hagenda hdeeds =>
    refine ⟨_, hagenda, .undecided ?_ ?_ (List.cons_ne_nil _ _)⟩
    · simp [turns, hdeeds]
    · simp [attempts, hdeeds]
  | loaded _ hagenda hdeeds =>
    refine ⟨_, hagenda, .undecided ?_ ?_ (List.cons_ne_nil _ _)⟩
    · simp [turns, hdeeds, Action.turn?]
    · simp [attempts, hdeeds, Action.attempt?]
  | @forbidden g later e₁ hforbidden hlater hstart hdeeds =>
    have hclosed : Closed (Action.isWithin 6) := closed_isWithin (by decide)
    have hwithin := all_within_mono (by decide : 4 ≤ 6) (within_leaving g (.panicked noChannel))
    obtain ⟨agenda, hagenda, hturns⟩ := honours_turns.run hclosed hlater hstart hwithin
    obtain ⟨agenda', hagenda', hattempts⟩ := honours_deliveries.run hclosed hlater hstart hwithin
    obtain rfl := Option.some.inj (hagenda'.symm.trans hagenda)
    refine ⟨agenda', hagenda', .decided (.forbidden hforbidden) ?_ ?_⟩
    · rw [turns, hdeeds]
      exact hturns
    · rw [attempts, hdeeds]
      exact hattempts
  | @screened g before after ev m hallowed hes hbefore hdeed hafter hdeeds =>
    have hturns : turns task es = turns task after := by
      rw [turns, hdeeds]
      rfl
    have hattempts : attempts task es = attempts task after := by
      rw [attempts, hdeeds]
      rfl
    have hrefused : (∃ error, (ev.before.setAgenda task (leaving g .done)).admission call g = .error error) ↔
        call.Refused g before := by
      rw [admission_eq_error_iff, isClosed_setAgenda, hbefore.isClosed_iff]
      rfl
    have hnow := hdeed.agenda_after
    rcases does_screen_cases hdeed.does with ⟨error, hadmission, hnext⟩ | ⟨a, hadmission, hnext⟩ <;> rw [hnext] at hnow
    · obtain ⟨agenda, hagenda, -, hts, hds⟩ := Decides.reject.run hafter hnow
      obtain ⟨-, -, -, hparting⟩ := closed_isParting.run hafter hnow rfl
      have hfate : Fate setup task call es [.decided (.rejected error), .ended .done] [] :=
        .rejected hallowed hes hdeed.own hdeed.action? (hrefused.mp ⟨error, hadmission⟩) hdeeds hparting
      exact ⟨agenda, hagenda, .decided hfate (hturns ▸ hts) (hattempts ▸ hds)⟩
    · have haccepted : ¬call.Refused g before := fun hr => by
        obtain ⟨error, herror⟩ := hrefused.mpr hr
        rw [hadmission] at herror
        cases herror
      obtain ⟨agenda, hagenda, ⟨hts, hds, hne⟩ | ⟨ds, hts, hds⟩⟩ := hafter.accepts hnow ⟨_, hadmission⟩
      · exact ⟨agenda, hagenda, .undecided (hturns.trans hts) (hattempts.trans hds) hne⟩
      · have hfate : Fate setup task call es [.decided (.accepted ds), .ended .done] ds :=
          .accepted hallowed hes hdeed.own hdeed.action? haccepted
        exact ⟨agenda, hagenda, .decided hfate (hturns ▸ hts) (hattempts ▸ hds)⟩

end

/-! ### Calls that are turned away -/

theorem Does.metered (h : Does e task a m) : m.engine.metrics = a.metered e.metrics := by
  have hf := h.frame
  cases a
  case accept | countUnrouted | reject | countReload =>
    cases h with
    | perform h =>
      obtain rfl := Option.some.inj h
      rfl
  case count k result =>
    rw [does_count h]
    cases result <;> rfl
  all_goals
    dsimp only [Action.Changes] at hf
    exact (congrArg Engine.metrics hf :)

theorem does_reject {callback : Option CallbackId} (h : Does e task (.reject error callback) m) :
    m = e.reject error callback := by
  cases h with
  | perform h => exact (Option.some.inj h).symm

/-- A callback is told by the rejection of its call, or at the end of its fan-out. -/
theorem Does.tells (h : Does e task a m) {x : Completion} (hx : .complete x ∈ m.effects) :
    (∃ error, a = .reject error (some x.callback)) ∨
      ∃ k f, a = .tell k ∧ e.fanOuts[k]? = some f ∧ f.callback = some x.callback := by
  rcases h.isOf hx with ⟨error, callback, rfl⟩ | ⟨k, rfl⟩
  · rw [does_reject h] at hx
    obtain ⟨c, hc, heq⟩ := List.mem_map.mp hx
    obtain rfl := Effect.complete.inj heq
    exact .inl ⟨error, by rw [Option.mem_toList.mp hc]⟩
  · cases hf : e.fanOuts[k]? with
    | none =>
      cases h with
      | perform h =>
        obtain rfl := Option.some.inj h
        simp [Engine.tell, hf] at hx
    | some f =>
      rw [does_tell hf h] at hx
      obtain ⟨c, hc, heq⟩ := List.mem_map.mp hx
      obtain rfl := Effect.complete.inj heq
      obtain ⟨c', hc', rfl⟩ := Option.map_eq_some_iff.mp (Option.mem_toList.mp hc)
      exact .inr ⟨k, f, rfl, hf, hc'⟩

/-- A fan-out has the callback that its call had. -/
theorem Does.callbacks (h : Does e task a m) {f : FanOut} {c : CallbackId} (hf : f ∈ m.engine.fanOuts)
    (hc : f.callback = some c) :
    (∃ f₀ ∈ e.fanOuts, f₀.callback = some c) ∨ ∃ g deliveries, a = .fan g deliveries (some c) := by
  rcases h.fanOuts with heq | ⟨g, deliveries, callback, rfl, heq⟩ | ⟨j, f₀, f', -, hj, heq, hkeep⟩ <;> rw [heq] at hf
  · exact .inl ⟨f, hf, hc⟩
  · rcases List.mem_append.mp hf with hf | hf
    · exact .inl ⟨f, hf, hc⟩
    · obtain rfl := List.mem_singleton.mp hf
      obtain rfl := hc
      exact .inr ⟨g, deliveries, rfl⟩
  · rcases List.mem_or_eq_of_mem_set hf with hf | rfl
    · exact .inl ⟨f, hf, hc⟩
    · exact .inl ⟨f₀, List.mem_of_getElem? hj, hkeep c hc⟩

theorem isFor_of_not_isOfCall {callback : Option CallbackId} (h : a.isOfCall = false) : a.isFor callback = true := by
  cases a <;> first | rfl | cases h

theorem closed_isFor (callback : Option CallbackId) : Closed (Action.isFor callback) := by
  intro e a next hn ha
  cases hcall : a.isOfCall with
  | false =>
    have hnone := List.any_eq_false.mp (hn.isOfCall hcall)
    exact List.all_eq_true.mpr fun b hb => isFor_of_not_isOfCall (by simpa using hnone b hb)
  | true =>
    cases hn with
    | nothing => rfl
    | screen hadmission =>
      rcases admission_cases hadmission with ⟨_, _, _, rfl⟩ | ⟨_, rfl⟩ <;> simpa [Action.isFor] using ha
    | fan | forbidden | alone | dropped | answered | awaitOut | send => simp [Action.isFor, leaving]
    | load | reject | noChannel | select | stale | accept | unrouted =>
      simpa [Action.isFor, leaving, logged] using ha
    | _ => cases hcall

section
variable {setup : Setup} {files : File.Store} {config : Config}

/-- What a task does for a callback it does for a call that has the callback. -/
theorem Run.isFor_of_mem (h : Run (start setup files config) es e) (ht : request? es task = some (.call call))
    (ha : a ∈ deeds task es) : a.isFor call.callback = true := by
  obtain ⟨earlier, later, e₁, _, rfl, -, hlater, hidle, ⟨⟩, hopening⟩ := h.begun ht
  have hclosed : Closed (Action.isFor call.callback) := closed_isFor call.callback
  obtain ⟨-, -, -, hdone⟩ := hclosed.run hlater hopening (by simp [Action.isFor])
  rw [deeds_append, hidle] at ha
  exact List.all_eq_true.mp hdone a ha

/-- A fan-out waits on behalf of a call. -/
theorem Run.fanOut_callback (h : Run (start setup files config) es e) {c : CallbackId} :
    ∀ f ∈ e.fanOuts, f.callback = some c → ∃ task g deliveries, .fan g deliveries (some c) ∈ deeds task es := by
  induction h with
  | refl => simp [start]
  | @step es e₁ e₂ op fx hr hs ih =>
    intro f hf hc
    have hold : (∃ f₀ ∈ e₁.fanOuts, f₀.callback = some c) →
        ∃ task g deliveries, .fan g deliveries (some c) ∈ deeds task (es ++ [⟨e₁, op, e₂, fx⟩]) := by
      rintro ⟨f₀, hf₀, hc₀⟩
      obtain ⟨task, g, deliveries, hmem⟩ := ih f₀ hf₀ hc₀
      exact ⟨task, g, deliveries, by rw [deeds_append]; exact List.mem_append_left _ hmem⟩
    rcases step_cases hs with ⟨request, rfl, hb, -⟩ | ⟨task, a, rest, m, htask, hagenda, hdoes, rfl, -⟩
    · obtain ⟨-, -, -, hcalm⟩ := begin_cases hb
      rw [hcalm.fanOuts] at hf
      exact hold ⟨f, hf, hc⟩
    · rcases hdoes.callbacks hf hc with hbefore | ⟨g, deliveries, rfl⟩
      · exact hold hbefore
      · refine ⟨task, g, deliveries, mem_deeds (List.mem_append_right _ (List.mem_singleton_self _)) htask ?_⟩
        exact action?_of_task htask hagenda

/-- A callback is told on behalf of a call that has it: by the rejection of the call, or after its fan-out began. -/
theorem Run.teller (h : Run (start setup files config) es e) {ev : Event} (hev : ev ∈ es) {x : Completion}
    (hx : .complete x ∈ ev.effects) :
    ∃ task call, request? es task = some (.call call) ∧ call.callback = some x.callback ∧
      ((ev.op.task? = some task ∧ ∃ error, ev.action? = some (.reject error (some x.callback))) ∨
        ∃ g deliveries, .fan g deliveries (some x.callback) ∈ deeds task es) := by
  have behalf : ∀ {task a}, a ∈ deeds task es → a.isOfCall = true →
      (∀ callback, a.isFor callback = true → some x.callback = callback) →
      ∃ call, request? es task = some (.call call) ∧ call.callback = some x.callback := by
    intro task a ha hcall hfor
    obtain ⟨call, ht⟩ := h.call_of_deed ha hcall
    exact ⟨call, ht, (hfor _ (h.isFor_of_mem ht ha)).symm⟩
  obtain ⟨before, after, rfl⟩ := List.append_of_mem hev
  obtain ⟨hbefore, hs, -⟩ := h.split
  rcases step_cases hs with ⟨request, -, -, hfx⟩ | ⟨task, a, rest, m, htask, hagenda, hdoes, -, hfx⟩
  · rw [hfx] at hx
    cases hx
  · rw [hfx] at hx
    have haction : ev.action? = some a := action?_of_task htask hagenda
    rcases hdoes.tells hx with ⟨error, rfl⟩ | ⟨k, f, rfl, hf, hcallback⟩
    · obtain ⟨call, ht, hc⟩ := behalf (mem_deeds hev htask haction) rfl fun _ => by simp [Action.isFor]
      exact ⟨task, call, ht, hc, .inl ⟨htask, error, haction⟩⟩
    · obtain ⟨task', g, deliveries, hmem⟩ := hbefore.fanOut_callback f (List.mem_of_getElem? hf) hcallback
      have hmem : .fan g deliveries (some x.callback) ∈ deeds task' (before ++ ev :: after) := by
        rw [deeds_append]
        exact List.mem_append_left _ hmem
      obtain ⟨call, ht, hc⟩ := behalf hmem rfl fun _ => by simp [Action.isFor]
      exact ⟨task', call, ht, hc, .inr ⟨g, deliveries, hmem⟩⟩

theorem Run.parted (h : Run (start setup files config) es e) (ht : request? es task = some (.call call))
    (hrejected : .decided (.rejected error) ∈ turns task es) : Parted task call error es := by
  obtain ⟨agenda, -, hfated⟩ := h.fated ht
  cases hfated with
  | undecided hnone =>
    rw [hnone] at hrejected
    cases hrejected
  | decided hfate hts =>
    have hmem := List.mem_append_left (agenda.flatMap turned) hrejected
    rw [hts] at hmem
    cases hfate with
    | forbidden => simp at hmem
    | accepted => simp at hmem
    | @rejected _ _ _ g error' parting _ _ _ _ _ hdeeds hparting =>
      obtain rfl : error = error' := by simpa using hmem
      constructor
      · intro a ha
        rw [hdeeds] at ha
        rcases List.mem_cons.mp ha with rfl | ha
        · exact .inl rfl
        · rcases List.mem_cons.mp ha with rfl | ha
          · exact .inr (.inl ⟨g, rfl⟩)
          · exact .inr (.inr (List.all_eq_true.mp hparting a ha))
      · -- The rejection has been taken, so it is not among the turns to come.
        have hall := congrArg (List.flatMap Turn.refusal) hts
        rw [List.flatMap_append] at hall
        rcases List.append_eq_singleton_iff.mp hall with ⟨hnone, -⟩ | ⟨hone, -⟩
        · have hsome := List.flatMap_eq_nil_iff.mp hnone _ hrejected
          cases hsome
        · exact hone

theorem Run.told_by (h : Run (start setup files config) es e) (hparted : Parted task call error es) {c : CallbackId}
    (hunique : ∀ task' call', request? es task' = some (.call call') → call'.callback = some c → task' = task)
    {ev : Event} (hev : ev ∈ es) {x : Completion} (hx : .complete x ∈ ev.effects) (hc : x.callback = c) :
    ev.op.task? = some task ∧ ∃ error', ev.action? = some (.reject error' (some c)) := by
  obtain rfl := hc
  obtain ⟨task', call', ht', hc', hwho⟩ := h.teller hev hx
  obtain rfl := hunique task' call' ht' hc'
  rcases hwho with hown | ⟨g, deliveries, hfan⟩
  · exact hown
  -- A call that was turned away has begun no fan-out.
  · rcases hparted.deeds _ hfan with heq | ⟨_, heq⟩ | heq <;> cases heq

/-- An event tells the callback of a call that was turned away of its rejection, if it is that, and else of nothing. -/
theorem Run.told_event (h : Run (start setup files config) es e) (ht : request? es task = some (.call call))
    (hparted : Parted task call error es) {c : CallbackId} (hc : call.callback = some c)
    (hunique : ∀ task' call', request? es task' = some (.call call') → call'.callback = some c → task' = task)
    {ev : Event} (hev : ev ∈ es) : told c [ev] = (turns task [ev]).flatMap Turn.refusal := by
  by_cases htask : ev.op.task? = some task
  · obtain ⟨a, rest, m, ha, hdeed⟩ := h.deed_of_own hev htask
    have hturn : turns task [ev] = a.turn?.toList := by
      rw [turns, hdeed.deeds]
      cases hturn : a.turn? <;> simp [hturn]
    rw [hturn]
    by_cases hreject : ∃ error' callback, a = .reject error' callback
    · obtain ⟨error', callback, rfl⟩ := hreject
      have hcallback : callback = some c := by
        have hfor := h.isFor_of_mem ht ha
        rw [hc] at hfor
        simpa [Action.isFor] using hfor
      rw [told_singleton, hdeed.effects, does_reject hdeed.does, hcallback]
      simp [Engine.reject, Action.turn?, Turn.refusal]
    · have hsilent : told c [ev] = [] := told_eq_nil fun x hx heq => by
        obtain ⟨-, error', herror⟩ := h.told_by hparted hunique hev hx heq
        exact hreject ⟨error', some c, Option.some.inj (hdeed.action?.symm.trans herror)⟩
      rw [hsilent]
      rcases hparted.deeds _ ha with rfl | ⟨g, rfl⟩ | hparting
      · rfl
      · rfl
      · cases a with
        | reject error' callback => exact absurd ⟨error', callback, rfl⟩ hreject
        | letGo | leave | free | awaitFree | finish => rfl
        | _ => cases hparting
  · rw [turns, deeds_of_other htask, told_eq_nil fun x hx heq => htask (h.told_by hparted hunique hev hx heq).1]
    rfl

/-- A call that was turned away did nothing else. -/
theorem Run.dismissed (h : Run (start setup files config) es e) (ht : request? es task = some (.call call))
    (hrejected : .decided (.rejected error) ∈ turns task es) : Dismissed task call error es := by
  have hparted : Parted task call error es := h.parted ht hrejected
  refine ⟨fun ev hev htask t transport record ack hout => ?_, fun ev hev htask => ?_, fun c hc hunique => ?_⟩
  · obtain ⟨a, rest, m, ha, hdeed⟩ := h.deed_of_own hev htask
    rw [hdeed.effects] at hout
    obtain ⟨_, _, _, _, rfl, -⟩ := hdeed.does.isOf hout
    rcases hparted.deeds _ ha with heq | ⟨_, heq⟩ | heq <;> cases heq
  · obtain ⟨a, rest, m, ha, hdeed⟩ := h.deed_of_own hev htask
    rw [hdeed.after, metrics_setAgenda, hdeed.does.metered, metrics_setAgenda]
    rcases hparted.deeds _ ha with rfl | ⟨g, rfl⟩ | hparting
    · exact .inl rfl
    · exact .inl rfl
    · cases a with
      | reject => exact .inr rfl
      | letGo | leave | free | awaitFree | finish => exact .inl rfl
      | _ => cases hparting
  · rw [← hparted.refusal]
    exact told_eq_of_each fun ev hev => h.told_event ht hparted hc hunique hev

end

end Engine

end LogDispatch
