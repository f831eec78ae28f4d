import LogDispatch.Proofs.Lineage
import Mathlib.Algebra.BigOperators.Group.Finset.Basic

/-! What single tasks do. The actions that a task has done (`deeds`) bring forth, together with those on its agenda,
    what its agenda promised before (`Honours.run`), whatever other tasks do meanwhile. Each task but the first began
    with a request (`Run.begun`). -/

namespace LogDispatch

/-- The actions that a task has done, in order. -/
def deeds (task : TaskId) (es : List Event) : List Action :=
  es.filterMap fun ev => if ev.op.task? = some task then ev.action? else none

/-- The actions that were done, of all tasks. -/
def allDeeds (es : List Event) : List Action := es.filterMap Event.action?

def Op.request? : Op → Option Request
  | .begin request => some request
  | _ => none

theorem request?_of_task {op : Op} {task : TaskId} (h : op.task? = some task) : op.request? = none := by
  cases op <;> first | rfl | cases h

def requests (es : List Event) : List Request := es.filterMap (·.op.request?)

/-- The request that a task began with. The first task builds the engine. -/
def request? (es : List Event) : TaskId → Option Request
  | 0 => none
  | task + 1 => (requests es)[task]?

section lists
variable {task : TaskId} {es es' : List Event}

@[simp] theorem deeds_nil : deeds task [] = [] := rfl

@[simp] theorem deeds_append : deeds task (es ++ es') = deeds task es ++ deeds task es' := List.filterMap_append

theorem deeds_cons (ev : Event) : deeds task (ev :: es) = deeds task [ev] ++ deeds task es := by
  rw [← deeds_append, List.singleton_append]

theorem mem_deeds {ev : Event} {a : Action} (hev : ev ∈ es) (htask : ev.op.task? = some task)
    (ha : ev.action? = some a) : a ∈ deeds task es :=
  List.mem_filterMap.mpr ⟨ev, hev, by rw [if_pos htask, ha]⟩

@[simp] theorem allDeeds_append : allDeeds (es ++ es') = allDeeds es ++ allDeeds es' := List.filterMap_append

@[simp] theorem requests_append : requests (es ++ es') = requests es ++ requests es' := List.filterMap_append

theorem request?_append {request : Request} (h : request? es task = some request) :
    request? (es ++ es') task = some request := by
  cases task with
  | zero => cases h
  | succ task =>
    rw [request?, requests_append, List.getElem?_append_left (List.getElem?_eq_some_iff.mp h).1]
    exact h

end lists

namespace Engine
variable {e e' : Engine} {task : TaskId} {a : Action} {m : Move} {op : Op} {fx : List Effect} {es : List Event}
  {rest agenda : List Action}

/-! ### One event -/

/-- An event by which a task does the first action on its agenda. -/
structure Deed (task : TaskId) (a : Action) (rest : List Action) (m : Move) (ev : Event) : Prop where
  own : ev.op.task? = some task
  agenda : ev.before.agendas[task]? = some (a :: rest)
  does : Does (ev.before.setAgenda task rest) task a m
  after : ev.after = m.engine.setAgenda task (m.next ++ rest)
  effects : ev.effects = m.effects

namespace Deed
variable {ev : Event}

theorem action? (h : Deed task a rest m ev) : ev.action? = some a := by
  simp [Event.action?, h.own, h.agenda]

theorem deeds (h : Deed task a rest m ev) : LogDispatch.deeds task [ev] = [a] := by
  simp [LogDispatch.deeds, h.own, h.action?]

theorem agenda_after (h : Deed task a rest m ev) : ev.after.agendas[task]? = some (m.next ++ rest) := by
  have hlt := (List.getElem?_eq_some_iff.mp h.agenda).1
  rw [h.after, agendas_setAgenda, h.does.agendas, agendas_setAgenda, List.set_set, List.getElem?_set_self hlt]

end Deed

/-- Seen from one task, an event leaves its agenda alone, or is a deed of it. -/
theorem step_deed (hs : e.step? op = some (e', fx)) (hagenda : e.agendas[task]? = some agenda) :
    (op.task? ≠ some task ∧ e'.agendas[task]? = some agenda) ∨
      ∃ a rest m, agenda = a :: rest ∧ Deed task a rest m ⟨e, op, e', fx⟩ := by
  rcases step_agenda hs hagenda with h | ⟨a, rest, m, htask, rfl, hdoes, hafter, hfx, -⟩
  · exact .inl h
  · exact .inr ⟨a, rest, m, rfl, htask, hagenda, hdoes, hafter, hfx⟩

theorem deed_of_action? {ev : Event} (hs : ev.before.step? ev.op = some (ev.after, ev.effects))
    (htask : ev.op.task? = some task) (ha : ev.action? = some a) : ∃ rest m, Deed task a rest m ev := by
  simp only [Event.action?, htask, Option.bind_some] at ha
  obtain ⟨agenda, hagenda, hhead⟩ := Option.bind_eq_some_iff.mp ha
  rcases step_deed hs hagenda with ⟨hother, -⟩ | ⟨a', rest, m, rfl, hdeed⟩
  · exact absurd htask hother
  · obtain rfl := Option.some.inj hhead
    exact ⟨rest, m, hdeed⟩

theorem Run.deed_of_own (h : Run e es e') {ev : Event} (hev : ev ∈ es) (htask : ev.op.task? = some task) :
    ∃ a rest m, a ∈ LogDispatch.deeds task es ∧ Deed task a rest m ev := by
  obtain ⟨before, after, rfl⟩ := List.append_of_mem hev
  obtain ⟨-, hs, -⟩ := h.split
  rcases step_cases hs with ⟨request, hop, -⟩ | ⟨_, a, rest, m, htask', hagenda, hdoes, hafter, hfx⟩
  · rw [hop] at htask
    cases htask
  · obtain rfl := Option.some.inj (htask'.symm.trans htask)
    have hdeed : Deed _ a rest m ev := ⟨htask, hagenda, hdoes, hafter, hfx⟩
    exact ⟨a, rest, m, mem_deeds hev htask hdeed.action?, hdeed⟩

@[simp] theorem deeds_begin {request : Request} : deeds task [⟨e, .begin request, e', fx⟩] = [] := rfl

theorem deeds_of_other (h : op.task? ≠ some task) : deeds task [⟨e, op, e', fx⟩] = [] := by
  simp [deeds, h]

/-- The first thing that a task does in a run, if it does anything. -/
theorem Run.first_deed (h : Run e es e') (hagenda : e.agendas[task]? = some (a :: rest)) :
    (deeds task es = [] ∧ e'.agendas[task]? = some (a :: rest)) ∨
      ∃ before ev after m, es = before ++ ev :: after ∧ deeds task before = [] ∧ Run e before ev.before ∧
        ev.before.step? ev.op = some (ev.after, ev.effects) ∧ Deed task a rest m ev ∧ Run ev.after after e' := by
  induction h with
  | refl => exact .inl ⟨rfl, hagenda⟩
  | @step es e₁ e₂ op fx hr hs ih =>
    rcases ih with ⟨hnone, hsame⟩ | ⟨before, ev, after, m, rfl, hbefore, hr₁, hs₁, hdeed, hr₂⟩
    · rcases step_deed hs hsame with ⟨hother, hsame'⟩ | ⟨a', rest', m, heq, hdeed⟩
      · exact .inl ⟨by rw [deeds_append, hnone, deeds_of_other hother]; rfl, hsame'⟩
      · obtain ⟨rfl, rfl⟩ := List.cons.inj heq
        exact .inr ⟨es, _, [], m, rfl, hnone, hr, hs, hdeed, .refl⟩
    · exact .inr ⟨before, ev, after ++ [⟨e₁, op, e₂, fx⟩], m, by simp, hbefore, hr₁, hs₁, hdeed, hr₂.step hs⟩

/-- The way of one task, seen by what it has done and what is on its agenda. Other tasks change neither. -/
theorem Run.task_induction {P : List Action → List Action → Prop} (hr : Run e es e')
    (hagenda : e.agendas[task]? = some agenda) (hstart : P [] agenda)
    (hstep : ∀ {e : Engine} {a : Action} {next rest done : List Action}, Next e a next → P done (a :: rest) →
      P (done ++ [a]) (next ++ rest)) :
    ∃ agenda', e'.agendas[task]? = some agenda' ∧ P (deeds task es) agenda' := by
  induction hr with
  | refl => exact ⟨agenda, hagenda, hstart⟩
  | @step es e₁ e₂ op fx _ hs ih =>
    obtain ⟨agenda₁, hagenda₁, hdone⟩ := ih
    rw [deeds_append]
    rcases step_deed hs hagenda₁ with ⟨hother, hsame⟩ | ⟨a, rest, m, rfl, hdeed⟩
    · rw [deeds_of_other hother, List.append_nil]
      exact ⟨agenda₁, hsame, hdone⟩
    · rw [hdeed.deeds]
      exact ⟨_, hdeed.agenda_after, hstep hdeed.does.next hdone⟩

/-! ### What an agenda promises -/

/-- What comes of actions of a kind is of the kind again. -/
def Closed (kind : Action → Bool) : Prop :=
  ∀ {e : Engine} {a : Action} {next : List Action}, Next e a next → kind a = true → next.all kind = true

/-- A task that has only actions of a closed kind on its agenda does no others. -/
theorem Closed.run {kind : Action → Bool} (h : Closed kind) (hr : Run e es e')
    (hagenda : e.agendas[task]? = some agenda) (hkind : agenda.all kind = true) :
    ∃ agenda', e'.agendas[task]? = some agenda' ∧ agenda'.all kind = true ∧ (deeds task es).all kind = true := by
  refine hr.task_induction (P := fun done left => left.all kind = true ∧ done.all kind = true) hagenda ⟨hkind, rfl⟩ ?_
  rintro e a next rest done hn ⟨hleft, hdone⟩
  rw [List.all_cons, Bool.and_eq_true] at hleft
  constructor
  · rw [List.all_append, h hn hleft.1, hleft.2]
    rfl
  · rw [List.all_append, hdone]
    simpa using hleft.1

/-- What an action of a kind promises is what it brings, and after it what the actions promise that come next. -/
def Honours {β : Type} (kind : Action → Bool) (promise : Action → List β) (bring : Action → Option β) : Prop :=
  ∀ {e : Engine} {a : Action} {next : List Action}, Next e a next → kind a = true →
    promise a = (bring a).toList ++ next.flatMap promise

/-- What a task has brought, and after it what its agenda promises still, is what it promised. -/
theorem Honours.run {β : Type} {kind : Action → Bool} {promise : Action → List β} {bring : Action → Option β}
    (h : Honours kind promise bring) (hc : Closed kind) (hr : Run e es e')
    (hagenda : e.agendas[task]? = some agenda) (hkind : agenda.all kind = true) :
    ∃ agenda', e'.agendas[task]? = some agenda' ∧
      (deeds task es).filterMap bring ++ agenda'.flatMap promise = agenda.flatMap promise := by
  refine (hr.task_induction (P := fun done left => left.all kind = true ∧
    done.filterMap bring ++ left.flatMap promise = agenda.flatMap promise) hagenda ⟨hkind, rfl⟩ ?_).imp
    fun agenda' hend => ⟨hend.1, hend.2.2⟩
  rintro e a next rest done hn ⟨hleft, hsum⟩
  rw [List.all_cons, Bool.and_eq_true] at hleft
  have hbrought : [a].filterMap bring = (bring a).toList := by cases hb : bring a <;> simp [hb]
  constructor
  · rw [List.all_append, hc hn hleft.1, hleft.2]
    rfl
  · rw [← hsum, List.filterMap_append, List.flatMap_append, List.flatMap_cons, h hn hleft.1, hbrought]
    simp

/-! ### How tasks begin -/

/-- What is on the agenda of a task that begins with a request. -/
inductive Begins : Request → List Action → Prop
  | call (call : Call) : Begins (.call call) [.load call]
  | reload (config : Config) : Begins (.reload config) [.lockReload, .checkReload config]
  | shutdown : Begins .shutdown [.lockReload, .close, .unlockReload, .leave, .finish .done]
  | openChannel (module : String) (shownAs : Option String) :
      Begins (.openChannel module shownAs) [.register module shownAs]
  | closeChannel (channel : ChannelId) : Begins (.closeChannel channel) [.leave, .finish .done]
  | leave : Begins .leave [.leave, .finish .done]
  | keep (g : Generation) : Begins .keep [.letGo g, .finish .done]
  | answer (ack : AckId) (answer : Answer) : Begins (.answer ack answer) [.answer ack answer, .finish .done]
  | serve (writer : WriterId) (lines : Nat) (batch : List File.Job) :
      Begins (.serve writer lines) [.write writer batch, .rest writer, .finish .done]

theorem begins_of_begin {request : Request} {opening : List Action} (hb : e.begin? request = some e')
    (hagendas : e'.agendas = e.agendas ++ [opening]) : Begins request opening := by
  have begins : ∀ {opening'}, e'.agendas = e.agendas ++ [opening'] → Begins request opening' →
      Begins request opening := by
    intro opening' hagendas' h
    obtain rfl : opening' = opening := by simpa [hagendas'] using hagendas
    exact h
  cases request <;>
    simp only [begin?, Option.ite_none_right_eq_some, Option.map_eq_some_iff, Option.some.injEq] at hb
  case answer ack answer =>
    split at hb
    · split at hb
      · cases hb
      · obtain rfl := Option.some.inj hb
        exact begins rfl (.answer ack answer)
    · cases hb
  case closeChannel channel =>
    obtain ⟨c, -, rfl⟩ := hb
    exact begins rfl (.closeChannel channel)
  case keep =>
    obtain ⟨-, g, -, rfl⟩ := hb
    exact begins rfl (.keep g)
  case serve writer lines =>
    obtain ⟨⟨files, batch⟩, -, rfl⟩ := hb
    exact begins rfl (.serve writer lines batch)
  all_goals
    obtain ⟨-, rfl⟩ := hb
    exact begins rfl (by constructor)

theorem Run.length_agendas (h : Run e es e') : e'.agendas.length = e.agendas.length + (requests es).length := by
  induction h with
  | refl => rfl
  | @step es e₁ e₂ op fx _ hs ih =>
    rcases step_cases hs with ⟨request, rfl, hb, -⟩ | ⟨task, a, rest, m, htask, -, hdoes, rfl, -⟩
    · obtain ⟨agenda, -, hagendas, -⟩ := begin_cases hb
      simp [hagendas, ih, requests, Op.request?, Nat.add_assoc]
    · simp [hdoes.agendas, ih, requests, request?_of_task htask]

theorem Run.deeds_eq_nil (h : Run e es e') (ht : e'.agendas.length ≤ task) : deeds task es = [] := by
  induction h with
  | refl => rfl
  | @step es e₁ e₂ op fx _ hs ih =>
    rcases step_cases hs with ⟨request, rfl, hb, -⟩ | ⟨t, a, rest, m, htask, hagenda, hdoes, rfl, -⟩
    · obtain ⟨agenda, -, hagendas, -⟩ := begin_cases hb
      rw [hagendas, List.length_append, List.length_singleton] at ht
      rw [deeds_append, ih (by omega), deeds_begin]
      rfl
    · have hlength : e₁.agendas.length ≤ task := by simpa [hdoes.agendas] using ht
      have hlt := (List.getElem?_eq_some_iff.mp hagenda).1
      have hne : t ≠ task := Nat.ne_of_lt (Nat.lt_of_lt_of_le hlt hlength)
      rw [deeds_append, ih hlength, deeds_of_other]
      · rfl
      · rw [htask]
        exact fun heq => hne (Option.some.inj heq)

/-- The ways of all tasks, by what they have done and what is on their agendas. -/
theorem Run.ways {setup : Setup} {files : File.Store} {config : Config} {P : List Action → List Action → Prop}
    (h : Run (start setup files config) es e)
    (hstart : P [] [.build config false]) (hopen : ∀ {e : Engine} {agenda : List Action}, Opening e agenda → P [] agenda)
    (hnext : ∀ {e : Engine} {a : Action} {next rest done : List Action}, Next e a next → P done (a :: rest) →
      P (done ++ [a]) (next ++ rest)) :
    ∀ task agenda, e.agendas[task]? = some agenda → P (deeds task es) agenda := by
  induction h with
  | refl =>
    intro task agenda hagenda
    obtain ⟨-, rfl⟩ := List.getElem?_eq_some_iff.mp hagenda
    simpa [start] using hstart
  | @step es e₁ e₂ op fx hr hs ih =>
    intro task agenda hagenda
    rw [deeds_append]
    cases hold : e₁.agendas[task]? with
    | some agenda₁ =>
      rcases step_deed hs hold with ⟨hother, hsame⟩ | ⟨a, rest, m, rfl, hdeed⟩
      · obtain rfl := Option.some.inj (hsame.symm.trans hagenda)
        rw [deeds_of_other hother, List.append_nil]
        exact ih task agenda₁ hold
      · obtain rfl := Option.some.inj (hdeed.agenda_after.symm.trans hagenda)
        rw [hdeed.deeds]
        exact hnext hdeed.does.next (ih task _ hold)
    | none =>
      -- The task begins with this event.
      rw [List.getElem?_eq_none_iff] at hold
      rcases step_cases hs with ⟨request, rfl, hb, -⟩ | ⟨_, a, rest, m, -, -, hdoes, rfl, -⟩
      · obtain ⟨opening, hopening, hagendas, -⟩ := begin_cases hb
        rw [hagendas, List.getElem?_append_right hold, List.getElem?_singleton] at hagenda
        split at hagenda
        · obtain rfl := Option.some.inj hagenda
          rw [hr.deeds_eq_nil hold, deeds_begin]
          exact hopen hopening
        · cases hagenda
      · rw [agendas_setAgenda, hdoes.agendas, agendas_setAgenda, List.set_set] at hagenda
        have hlt := (List.getElem?_eq_some_iff.mp hagenda).1
        rw [List.length_set] at hlt
        exact absurd hlt (Nat.not_lt_of_ge hold)

/-- A task that began with a request does so in the middle of the run, and has done nothing before. -/
theorem Run.begun {setup : Setup} {files : File.Store} {config : Config} {request : Request}
    (h : Run (start setup files config) es e) (ht : request? es task = some request) :
    ∃ earlier later e₁ opening, es = earlier ++ later ∧ Run (start setup files config) earlier e₁ ∧
      Run e₁ later e ∧ deeds task earlier = [] ∧ Begins request opening ∧ e₁.agendas[task]? = some opening := by
  induction h with
  | refl => cases task <;> cases ht
  | @step es e₁ e₂ op fx hr hs ih =>
    cases hold : request? es task with
    | some request' =>
      have heq : request' = request := Option.some.inj ((request?_append hold).symm.trans ht)
      subst heq
      obtain ⟨earlier, later, e₁', opening, rfl, hearlier, hlater, hbegun⟩ := ih hold
      exact ⟨earlier, later ++ [⟨e₁, op, e₂, fx⟩], e₁', opening, List.append_assoc .., hearlier, hlater.step hs,
        hbegun⟩
    | none =>
      cases task with
      | zero => cases ht
      | succ t =>
        rw [request?, requests_append] at ht
        rw [request?, List.getElem?_eq_none_iff] at hold
        rw [List.getElem?_append_right hold] at ht
        rcases step_cases hs with ⟨request', rfl, hb, -⟩ | ⟨_, _, _, _, htask, -⟩
        · obtain ⟨opening, -, hagendas, -⟩ := begin_cases hb
          have hnew : requests [⟨e₁, .begin request', e₂, fx⟩] = [request'] := rfl
          rw [hnew, List.getElem?_singleton] at ht
          split at ht
          · obtain rfl := Option.some.inj ht
            -- The task begins with this event, since its place is the next one.
            have hlength : e₁.agendas.length = 1 + (requests es).length := hr.length_agendas
            have hplace : t.succ = e₁.agendas.length := by omega
            have hbegins : Begins request' opening := begins_of_begin hb hagendas
            refine ⟨_, [], e₂, opening, (List.append_nil _).symm, hr.step hs, .refl, ?_, hbegins, ?_⟩
            · rw [deeds_append, deeds_begin, hr.deeds_eq_nil (Nat.le_of_eq hplace.symm)]
              rfl
            · rw [hagendas, hplace, List.getElem?_append_right (Nat.le_refl _)]
              simp
          · cases ht
        · simp [requests, request?_of_task htask] at ht

/-- A task does only actions of a closed kind when the building of the engine is of the kind, and what is on its
    agenda when it begins. -/
theorem Closed.of_begins {setup : Setup} {files : File.Store} {config : Config} {kind : Action → Bool}
    (hc : Closed kind) (h : Run (start setup files config) es e) (hagenda : e.agendas[task]? = some agenda)
    (hbuild : kind (.build config false) = true)
    (hbegins : ∀ {request opening}, request? es task = some request → Begins request opening →
      opening.all kind = true) :
    agenda.all kind = true ∧ (deeds task es).all kind = true := by
  have closed : ∀ {e₀ es₀ opening}, Run e₀ es₀ e → e₀.agendas[task]? = some opening → opening.all kind = true →
      agenda.all kind = true ∧ (deeds task es₀).all kind = true := by
    intro e₀ es₀ opening hr hopening hkind
    obtain ⟨agenda', hagenda', hleft, hdone⟩ := hc.run hr hopening hkind
    obtain rfl := Option.some.inj (hagenda'.symm.trans hagenda)
    exact ⟨hleft, hdone⟩
  cases task with
  | zero => exact closed h rfl (by simpa using hbuild)
  | succ t =>
    have hlt := (List.getElem?_eq_some_iff.mp hagenda).1
    have hlength : e.agendas.length = 1 + (requests es).length := h.length_agendas
    obtain ⟨request, hrequest⟩ : ∃ request, request? es (t + 1) = some request :=
      ⟨_, List.getElem?_eq_getElem (by omega)⟩
    obtain ⟨earlier, later, e₁, opening, rfl, -, hlater, hidle, hbegin, hopening⟩ := h.begun hrequest
    rw [deeds_append, hidle]
    exact closed hlater hopening (hbegins hrequest hbegin)

/-! ### All tasks together -/

/-- What is counted of all deeds is counted task by task. -/
theorem Run.countP_allDeeds (h : Run e es e') (p : Action → Bool) {n : Nat} (hn : e'.agendas.length ≤ n) :
    (allDeeds es).countP p = ∑ t ∈ Finset.range n, (deeds t es).countP p := by
  induction h with
  | refl => simp [allDeeds]
  | @step es e₁ e₂ op fx hr hs ih =>
    simp only [allDeeds_append, deeds_append, List.countP_append, Finset.sum_add_distrib]
    rcases step_cases hs with ⟨request, rfl, hb, -⟩ | ⟨t, a, rest, m, htask, hagenda, hdoes, rfl, -⟩
    · obtain ⟨agenda, -, hagendas, -⟩ := begin_cases hb
      rw [hagendas, List.length_append] at hn
      rw [ih (Nat.le_of_add_right_le hn)]
      simp [allDeeds, Event.action?, Op.task?]
    · have hlt := (List.getElem?_eq_some_iff.mp hagenda).1
      have hlength : e₁.agendas.length ≤ n := by simpa [hdoes.agendas] using hn
      have haction : Event.action? ⟨e₁, op, m.engine.setAgenda t (m.next ++ rest), fx⟩ = some a :=
        action?_of_task htask hagenda
      have hone : ∑ i ∈ Finset.range n,
          (deeds i [⟨e₁, op, m.engine.setAgenda t (m.next ++ rest), fx⟩]).countP p = [a].countP p := by
        rw [Finset.sum_eq_single t]
        · simp [deeds, htask, haction]
        · intro i _ hi
          rw [deeds_of_other]
          · rfl
          · rw [htask]
            exact fun heq => hi (Option.some.inj heq).symm
        · exact fun ht => absurd (Finset.mem_range.mpr (Nat.lt_of_lt_of_le hlt hlength)) ht
      rw [ih hlength, hone]
      simp [allDeeds, haction]

end Engine

end LogDispatch
