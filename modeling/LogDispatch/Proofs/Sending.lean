import LogDispatch.Proofs.Exposure
import LogDispatch.Proofs.FanOut

/-! How lines come to a writer. A delivery to a file takes a sender from the transport, with which the line is in flight
    (`inFlight`) until it is sent; the transport may be released in between. So a writer gets lines as long as somebody
    holds a sender to it or lines are in flight (`HasSender`), and when nobody holds one any more it gets the lines in
    flight and no others (`Exposed.queued_of_no_holder`). -/

namespace LogDispatch

/-! ### What is queued -/

/-- The lines that go to the end of the queue of a writer. -/
def Event.queued (w : WriterId) (ev : Event) : List File.Job :=
  (ev.after.files.queue w).drop (ev.before.files.queue w).length

/-- The lines that were queued to a writer, in order. -/
def queued (w : WriterId) (es : List Event) : List File.Job := es.flatMap (Event.queued w)

section queued
variable {w : WriterId} {es : List Event}

@[simp] theorem queued_concat (ev : Event) : queued w (es ++ [ev]) = queued w es ++ ev.queued w := by simp [queued]

theorem queued_append (es' : List Event) : queued w (es ++ es') = queued w es ++ queued w es' := List.flatMap_append

end queued

/-- The action uses a sender. -/
def Action.isSending : Action → Bool
  | .send .. => true
  | _ => false

/-- The line that an action sends to a writer. -/
def Action.sent (w : WriterId) : Action → Multiset File.Job
  | .send v job => if v = w then {job} else 0
  | _ => 0

namespace Engine

/-- The route that an acknowledgement is for. -/
def routeOf (e : Engine) (ack : AckId) : String := (e.acks[ack]?.map Ack.route).getD ""

/-- The lines for a writer that are in flight: a sender has been taken for them, and has yet to be used. -/
def inFlight (w : WriterId) (e : Engine) : Multiset File.Job := tally (Action.sent w) e

/-- Somebody holds a sender to the writer, or lines are in flight to it. -/
def HasSender (w : WriterId) (e : Engine) : Prop := HasHolder w e ∨ inFlight w e ≠ 0

section sending
variable {e e' : Engine} {task : TaskId} {a : Action} {m : Move} {rest next agenda : List Action} {op : Op}
  {fx : List Effect} {es : List Event} {w : WriterId} {job : File.Job}

/-- The routes of acknowledgements do not change. -/
theorem acks_step (hs : e.step? op = some (e', fx)) :
    e.acks.length ≤ e'.acks.length ∧ ∀ i < e.acks.length, e'.routeOf i = e.routeOf i := by
  rcases step_cases hs with ⟨request, -, hb, -⟩ | ⟨task, a, rest, m, -, -, hdoes, rfl, -⟩
  · obtain ⟨_, -, -, hcalm⟩ := begin_cases hb
    simp [routeOf, hcalm.acks]
  · have hacks : (m.engine.setAgenda task (m.next ++ rest)).acks = m.engine.acks := rfl
    have hbefore : (e.setAgenda task rest).acks = e.acks := rfl
    simp only [routeOf, hacks]
    rcases hdoes.acks with heq | ⟨_, _, _, _, -, -, heq⟩ | ⟨i, _, x, -, hx, -, heq⟩ <;> rw [heq, hbefore]
    · exact ⟨Nat.le_refl _, fun _ _ => rfl⟩
    · exact ⟨by simp, fun j hj => by rw [List.getElem?_append_left hj]⟩
    · refine ⟨by simp, fun j hj => ?_⟩
      rw [List.getElem?_set]
      split
      · rename_i hij
        subst hij
        rw [if_pos hj]
        rw [hbefore] at hx
        rw [hx]
        rfl
      · rfl

/-- What an event does to the queue of a writer: a batch is taken from its front, the writer rests after one, a line goes
    to its end, or it stays as it is. -/
inductive Station (w : WriterId) (ev : Event) : Prop
  | takes {n : Nat} : ev.op = .begin (.serve w n) → Station w ev
  | rests : ev.action? = some (.rest w) → ev.after.files.queue w = ev.before.files.queue w →
      ev.after.files.isServing w = false → Station w ev
  | sends {job : File.Job} : ev.action? = some (.send w job) →
      ev.after.files.queue w = ev.before.files.queue w ++ [job] →
      ev.after.files.isServing w = ev.before.files.isServing w → Station w ev
  | still : ev.after.files.queue w = ev.before.files.queue w →
      ev.after.files.isServing w = ev.before.files.isServing w → Station w ev

theorem station (hs : e.step? op = some (e', fx)) (w : WriterId) : Station w ⟨e, op, e', fx⟩ := by
  have still : e.files.Still e'.files → Station w ⟨e, op, e', fx⟩ := fun h => .still (h.queue w) (h.isServing w)
  cases traffic hs with
  | quiet _ _ hfiles =>
    dsimp only at hfiles
    exact still (hfiles ▸ .refl _)
  | @takes v n batch hserve htake _ =>
    obtain ⟨-, -, -, -, -, hafter⟩ := File.Store.take?_eq_some htake
    obtain ⟨hqueue, hserving⟩ := hafter w
    by_cases h : w = v
    · subst h
      exact .takes hserve
    · rw [if_neg h] at hqueue hserving
      exact .still hqueue hserving
  | @sends v job ha hfiles =>
    dsimp only at hfiles
    obtain ⟨hqueue, hserving⟩ := File.Store.queue_send (s := e.files) (w := v) (v := w) job
    rw [← hfiles] at hqueue hserving
    by_cases h : w = v ∧ v < e.files.writers.length
    · rw [if_pos h] at hqueue
      exact .sends (h.1 ▸ ha) hqueue hserving
    · rw [if_neg h, List.append_nil] at hqueue
      exact .still hqueue hserving
  | writes _ hfiles =>
    dsimp only at hfiles
    exact still (hfiles ▸ File.Store.still_write _ _)
  | @rests v ha hfiles =>
    dsimp only at hfiles
    obtain ⟨hqueue, hserving⟩ := File.Store.queue_rest (s := e.files) (w := v) (v := w)
    rw [← hfiles] at hqueue hserving
    by_cases h : w = v
    · subst h
      rw [if_pos rfl] at hserving
      exact .rests ha hqueue hserving
    · rw [if_neg h] at hserving
      exact .still hqueue hserving
  | makes _ _ hcrafts =>
    refine still ?_
    generalize e'.files = files' at hcrafts
    cases hcrafts with
    | console | custom => exact .refl _
    | file _ _ _ _ hcreate => exact File.Store.still_create hcreate
  | frees _ _ hfiles =>
    dsimp only at hfiles
    refine still ?_
    rw [hfiles]
    unfold File.Store.retire
    split
    · exact File.Store.still_release _
    · exact .refl _

theorem queued_eq_nil (h : e'.files.queue w = e.files.queue w) : Event.queued w ⟨e, op, e', fx⟩ = [] := by
  rw [Event.queued, h]
  exact List.drop_length

theorem queued_eq {job : File.Job} (h : e'.files.queue w = e.files.queue w ++ [job]) :
    Event.queued w ⟨e, op, e', fx⟩ = [job] := by
  rw [Event.queued, h]
  exact List.drop_left

/-- A worker takes up to as many lines as wait, when it has nothing else to do. -/
theorem serve_step {n : Nat} (hs : e.step? (.begin (.serve w n)) = some (e', fx)) :
    e.files.isServing w = false ∧ 0 < n ∧ n ≤ File.batchLimit ∧ n ≤ (e.files.queue w).length ∧
      e'.files.queue w = (e.files.queue w).drop n ∧ e'.files.isServing w = true ∧
      e'.agendas = e.agendas ++ [[.write w ((e.files.queue w).take n), .rest w, .finish .done]] := by
  cases traffic hs with
  | takes hserve htake hagendas =>
    obtain ⟨rfl, rfl⟩ := Request.serve.inj (Op.begin.inj hserve)
    obtain ⟨hidle, hpos, hlimit, hle, rfl, hafter⟩ := File.Store.take?_eq_some htake
    obtain ⟨hqueue, hserving⟩ := hafter w
    rw [if_pos rfl] at hqueue hserving
    exact ⟨hidle, hpos, hlimit, hle, hqueue, hserving, hagendas⟩
  | quiet hwork => cases hwork
  | sends ha | writes ha | rests ha | makes ha | frees ha => cases ha

/-- Only what is sent is queued. -/
theorem sent_of_queued (hs : e.step? op = some (e', fx)) (hjob : job ∈ Event.queued w ⟨e, op, e', fx⟩) :
    Event.action? ⟨e, op, e', fx⟩ = some (.send w job) := by
  cases station hs w with
  | takes hserve =>
    dsimp only at hserve
    subst hserve
    obtain ⟨-, -, -, -, hqueue, -⟩ := serve_step hs
    rw [Event.queued, hqueue, List.drop_eq_nil_of_le (by simp)] at hjob
    cases hjob
  | rests _ hqueue | still hqueue =>
    rw [queued_eq_nil hqueue] at hjob
    cases hjob
  | sends ha hqueue =>
    rw [queued_eq hqueue] at hjob
    rw [ha, List.mem_singleton.mp hjob]

/-! ### Lines in flight -/

theorem mem_weigh {α β : Type} {f : α → Multiset β} {xs : List α} {y : β} : y ∈ weigh f xs ↔ ∃ x ∈ xs, y ∈ f x := by
  induction xs with
  | nil => simp
  | cons x xs ih => simp [ih]

theorem mem_sent : job ∈ a.sent w ↔ a = .send w job := by
  cases a with
  | send v job' =>
    rw [Action.sent]
    split
    · rename_i hv
      rw [hv, Multiset.mem_singleton, Action.send.injEq, eq_self, true_and]
      exact eq_comm
    · rename_i hv
      exact ⟨fun h => absurd h (Multiset.notMem_zero job), fun h => absurd (Action.send.inj h).1 hv⟩
  | _ => exact ⟨fun h => absurd h (Multiset.notMem_zero job), nofun⟩

theorem mem_inFlight : job ∈ inFlight w e ↔ ∃ agenda ∈ e.agendas, .send w job ∈ agenda := by
  simp only [inFlight, tally, mem_weigh, mem_sent, exists_eq_right]

theorem sent_eq_zero {actions : List Action} (h : actions.any Action.isSending = false) :
    weigh (Action.sent w) actions = 0 := by
  refine Multiset.eq_zero_of_forall_notMem fun job hjob => ?_
  obtain ⟨a, ha, hsent⟩ := mem_weigh.mp hjob
  have hno := List.any_eq_false.mp h a ha
  rw [mem_sent.mp hsent] at hno
  exact hno rfl

/-- A sender is taken by an attempt at a delivery, for its line alone, from a transport that has not been released. -/
inductive Takes (e : Engine) (w : WriterId) (job : File.Job) : Action → List Action → Prop
  | attempt {g : Generation} {fanOut : FanOutId} {d : Delivery} {r : Route} {outlet : File.Outlet} :
      g.routes[d.route]? = some r → e.device? r.transport = some (.file outlet) → outlet.sender? = some w →
      d.text = .ok job.text → job.ack = e.acks.length → Takes e w job (.attempt g fanOut d) [.send w job]

theorem Next.sends (hn : Next e a next) : (∃ w job, Takes e w job a next) ∨ next.any Action.isSending = false := by
  cases hn with
  | send hr hdevice hsender htext => exact .inl ⟨_, _, .attempt hr hdevice hsender htext rfl⟩
  | screen hadm => rcases admission_cases hadm with ⟨_, _, _, rfl⟩ | ⟨_, rfl⟩ <;> exact .inr rfl
  | fan | recalcAll | write => exact .inr (by simp [Action.isSending])
  | @answer ack answer x => cases answer.result x.route <;> exact .inr rfl
  | letGo | close => exact .inr (by simp [frees, Action.isSending])
  | @faulty _ isReload _ => cases isReload <;> exact .inr rfl
  | abandon | notCreated =>
    rename_i isReload _ _
    rw [Engine.abandon, List.any_append]
    cases isReload <;> exact .inr (by simp [Engine.building, Action.isSending])
  | @publish d isReload => cases isReload <;> exact .inr rfl
  | _ => exact .inr rfl

theorem Begins.sends {request : Request} {opening : List Action} (h : Begins request opening) :
    opening.any Action.isSending = false := by
  cases h <;> rfl

theorem does_send (h : Does e task (.send w job) m) :
    m.next = [] ∧ m.engine.acks = e.acks ∧ m.engine.files = e.files.send w job := by
  cases h with
  | perform h =>
    obtain rfl := Option.some.inj h
    exact ⟨rfl, rfl, rfl⟩

/-- A line that is sent comes to the end of the queue, if there is the writer. -/
theorem queued_of_send (hs : e.step? op = some (e', fx)) (ha : Event.action? ⟨e, op, e', fx⟩ = some (.send w job)) :
    Event.queued w ⟨e, op, e', fx⟩ = if w < e.files.writers.length then [job] else [] := by
  rcases step_cases hs with ⟨request, rfl, -, -⟩ | ⟨task, a, rest, m, htask, hagenda, hdoes, rfl, -⟩
  · cases ha
  · obtain rfl := Option.some.inj ((action?_of_task htask hagenda).symm.trans ha)
    have hfiles : m.engine.files = e.files.send w job := (does_send hdoes).2.2
    have hqueue := (File.Store.queue_send (s := e.files) (w := w) (v := w) job).1
    show (m.engine.files.queue w).drop (e.files.queue w).length = _
    rw [hfiles, hqueue, List.drop_left]
    simp only [true_and]

/-- The event is an attempt at a delivery that takes a sender to the writer for a line, with a new acknowledgement. -/
inductive Taking (w : WriterId) (ev : Event) (job : File.Job) : Prop
  | attempt {g : Generation} {fanOut : FanOutId} {d : Delivery} {r : Route} {outlet : File.Outlet} :
      ev.action? = some (.attempt g fanOut d) → g.routes[d.route]? = some r →
      ev.before.device? r.transport = some (.file outlet) → outlet.sender? = some w → d.text = .ok job.text →
      job.ack = ev.before.acks.length → ev.after.acks = ev.before.acks ++ [⟨r.name, fanOut, false⟩] → Taking w ev job

/-- What an event does to the lines that are in flight to a writer: an attempt takes a sender for a new line, a line
    comes to the end of the queue, or neither happens. -/
inductive Flight (w : WriterId) (ev : Event) : Prop
  | takes {job : File.Job} : Taking w ev job → inFlight w ev.after = inFlight w ev.before + {job} → ev.queued w = [] →
      Flight w ev
  | lands {job : File.Job} : ev.action? = some (.send w job) → ev.after.acks = ev.before.acks →
      inFlight w ev.before = {job} + inFlight w ev.after →
      ev.queued w = (if w < ev.before.files.writers.length then [job] else []) → Flight w ev
  | keeps : inFlight w ev.after = inFlight w ev.before → ev.queued w = [] → Flight w ev

theorem flight (hs : e.step? op = some (e', fx)) (w : WriterId) : Flight w ⟨e, op, e', fx⟩ := by
  have quiet : (∀ job, Event.action? ⟨e, op, e', fx⟩ ≠ some (.send w job)) → Event.queued w ⟨e, op, e', fx⟩ = [] :=
    fun hno => List.eq_nil_iff_forall_not_mem.mpr fun job hjob => hno job (sent_of_queued hs hjob)
  rcases step_cases hs with ⟨request, rfl, hb, -⟩ | ⟨task, a, rest, m, htask, hagenda, hdoes, rfl, -⟩
  · obtain ⟨opening, -, hagendas, -⟩ := begin_cases hb
    have hnone : weigh (Action.sent w) opening = 0 := sent_eq_zero (begins_of_begin hb hagendas).sends
    refine .keeps ?_ (quiet fun _ h => by cases h)
    show tally (Action.sent w) e' = tally (Action.sent w) e
    rw [tally_begin _ hagendas, hnone, add_zero]
  · have haction : Event.action? ⟨e, op, m.engine.setAgenda task (m.next ++ rest), fx⟩ = some a :=
      action?_of_task htask hagenda
    have hflight := tally_does (Action.sent w) hagenda hdoes
    by_cases hsend : ∃ job, a = .send w job
    · obtain ⟨job, rfl⟩ := hsend
      obtain ⟨hnext, hacks, -⟩ := does_send hdoes
      refine .lands haction hacks ?_ (queued_of_send hs haction)
      have hnone : weigh (Action.sent w) m.next = 0 := by rw [hnext, weigh_nil]
      rw [hnone, add_zero, Action.sent, if_pos rfl, add_comm] at hflight
      exact hflight.symm
    · have hnone : a.sent w = 0 := Multiset.eq_zero_of_forall_notMem fun job h => hsend ⟨job, mem_sent.mp h⟩
      have hqueued := quiet fun job h => hsend ⟨job, Option.some.inj (haction.symm.trans h)⟩
      rw [hnone, add_zero] at hflight
      rcases hdoes.next.sends with ⟨v, job, htakes⟩ | hno
      · have hsent : weigh (Action.sent w) m.next = if v = w then {job} else 0 := by
          generalize m.next = next at htakes
          cases htakes
          rw [weigh_cons, weigh_nil, add_zero, Action.sent]
        rw [hsent] at hflight
        by_cases hv : v = w
        · subst hv
          rw [if_pos rfl] at hflight
          generalize m.next = next at htakes hflight hqueued haction ⊢
          cases htakes with
          | attempt hr hdevice hsender htext hack =>
            have hacks := does_attempt (e := e.setAgenda task rest) hr hdoes
            exact .takes (.attempt haction hr hdevice hsender htext hack hacks) hflight hqueued
        · rw [if_neg hv, add_zero] at hflight
          exact .keeps hflight hqueued
      · rw [sent_eq_zero hno, add_zero] at hflight
        exact .keeps hflight hqueued

/-! ### Lines without a holder -/

theorem Taking.hasHolder {ev : Event} (h : Taking w ev job) : HasHolder w ev.before := by
  cases h with
  | @attempt _ _ _ _ outlet _ _ hdevice hsender =>
    obtain ⟨t, ht, hfile⟩ := Option.map_eq_some_iff.mp hdevice
    obtain ⟨hopen, hwriter⟩ := File.Outlet.sender?_eq_some.mp hsender
    exact .inl ⟨t, List.mem_of_getElem? ht, outlet, by simp [Transport.outlet?, hfile], hwriter, hopen⟩

/-- When nobody holds a sender to a writer any more, it gets the lines that are in flight, and no others. -/
theorem Exposed.queued_of_no_holder (h : Exposed e es e') (hw : w < e.files.writers.length) (hno : ¬HasHolder w e) :
    inFlight w e = ↑(queued w es) + inFlight w e' := by
  induction h with
  | refl => exact (zero_add _).symm
  | step hr hs ih =>
    obtain ⟨hlt, hnone⟩ := hr.no_holder hw hno
    rw [ih, queued_concat, ← Multiset.coe_add, add_assoc]
    refine congrArg _ ?_
    cases flight hs w with
    | takes htaking => exact absurd htaking.hasHolder hnone
    | lands _ _ hflight hqueued =>
      rw [if_pos hlt] at hqueued
      rw [hqueued]
      exact hflight
    | keeps hflight hqueued =>
      rw [hqueued, Multiset.coe_nil, zero_add]
      exact hflight.symm
  | alter _ _ _ ih => exact ih

/-- A writer that has lost its senders gets no more lines. -/
theorem Exposed.no_sender (h : Exposed e es e') (hw : w < e.files.writers.length) (hno : ¬HasSender w e) :
    queued w es = [] ∧ ¬HasSender w e' := by
  obtain ⟨hholder, hflight⟩ := not_or.mp hno
  have hqueued := h.queued_of_no_holder hw hholder
  rw [not_not.mp hflight] at hqueued
  have hnothing : (queued w es : Multiset File.Job) = 0 := Multiset.le_zero.mp (hqueued ▸ Multiset.le_add_right _ _)
  have hnone : inFlight w e' = 0 := Multiset.le_zero.mp (hqueued ▸ Multiset.le_add_left _ _)
  exact ⟨(Multiset.coe_eq_zero _).mp hnothing, not_or.mpr ⟨(h.no_holder hw hholder).2, not_not.mpr hnone⟩⟩

/-! ### Senders are used -/

theorem exists_advance (hagenda : e.agendas[task]? = some (a :: rest))
    (ha : ∃ m, (e.setAgenda task rest).perform? task a = some m) : ∃ e' fx, e.step? (.advance task) = some (e', fx) := by
  obtain ⟨m, hm⟩ := ha
  refine ⟨m.engine.setAgenda task (m.next ++ rest), m.effects, ?_⟩
  simp only [step?, advance?, hagenda, hm, Option.map_some, proceed]

/-- Whoever has taken a sender uses it next. -/
theorem Exposed.sends_first {setup : Setup} {files : File.Store} {config : Config}
    (h : Exposed (start setup files config) es e) : ∀ agenda ∈ e.agendas, agenda.tail.any Action.isSending = false := by
  induction h with
  | refl =>
    intro agenda hmem
    rw [List.mem_singleton.mp hmem]
    rfl
  | step _ hs ih =>
    intro agenda hmem
    rcases step_cases hs with ⟨request, rfl, hb, -⟩ | ⟨task, a, rest, m, -, hagenda, hdoes, rfl, -⟩
    · obtain ⟨opening, -, hagendas, -⟩ := begin_cases hb
      rw [hagendas] at hmem
      rcases List.mem_append.mp hmem with hmem | hmem
      · exact ih agenda hmem
      · rw [List.mem_singleton.mp hmem]
        cases begins_of_begin hb hagendas <;> rfl
    · rw [agendas_setAgenda, hdoes.agendas, agendas_setAgenda, List.set_set] at hmem
      rcases List.mem_or_eq_of_mem_set hmem with hmem | rfl
      · exact ih agenda hmem
      · have hrest : rest.any Action.isSending = false := ih _ (List.mem_of_getElem? hagenda)
        rcases hdoes.next.sends with ⟨w, job, htakes⟩ | hno
        · generalize m.next = next at htakes
          cases htakes
          exact hrest
        · have hall : (m.next ++ rest).any Action.isSending = false := by rw [List.any_append, hno, hrest]; rfl
          rw [List.any_eq_false] at hall ⊢
          exact fun b hb => hall b (List.mem_of_mem_tail hb)
  | alter _ _ _ ih => exact ih

/-- A line that is in flight can be sent at any time. -/
theorem Exposed.exists_send {setup : Setup} {files : File.Store} {config : Config}
    (h : Exposed (start setup files config) es e) (hw : w < e.files.writers.length) (hjob : job ∈ inFlight w e) :
    ∃ task e' fx, e.step? (.advance task) = some (e', fx) ∧ Event.queued w ⟨e, .advance task, e', fx⟩ = [job] := by
  obtain ⟨agenda, hmem, hsend⟩ := mem_inFlight.mp hjob
  cases agenda with
  | nil => cases hsend
  | cons a rest =>
    have hfirst : a = .send w job := by
      rcases List.mem_cons.mp hsend with rfl | hlater
      · rfl
      · exact absurd rfl (List.any_eq_false.mp (h.sends_first _ hmem) _ hlater)
    subst hfirst
    obtain ⟨task, htask⟩ := List.mem_iff_getElem?.mp hmem
    obtain ⟨e', fx, hs⟩ := exists_advance htask ⟨_, rfl⟩
    refine ⟨task, e', fx, hs, ?_⟩
    rw [queued_of_send hs (action?_of_task rfl htask), if_pos hw]

/-! ### Acknowledgements of lines -/

/-- The lines for a writer, queued or in flight. -/
def lines (w : WriterId) (es : List Event) (e : Engine) : Multiset File.Job := ↑(queued w es) + inFlight w e

theorem mem_lines_of_queued (hjob : job ∈ queued w es) : job ∈ lines w es e := Multiset.mem_add.mpr (.inl hjob)

/-- The only new line is one for which a sender is taken. -/
theorem lines_step (hs : e.step? op = some (e', fx)) : lines w (es ++ [⟨e, op, e', fx⟩]) e' ≤ lines w es e ∨
    ∃ job, Taking w ⟨e, op, e', fx⟩ job ∧ lines w (es ++ [⟨e, op, e', fx⟩]) e' = lines w es e + {job} := by
  unfold lines
  rw [queued_concat, ← Multiset.coe_add]
  cases flight hs w with
  | @takes job htaking hflight hqueued =>
    dsimp only at hflight
    rw [hqueued, hflight, Multiset.coe_nil, add_zero, ← add_assoc]
    exact .inr ⟨job, htaking, rfl⟩
  | @lands job _ _ hflight hqueued =>
    dsimp only at hflight hqueued
    have hnew : (Event.queued w ⟨e, op, e', fx⟩ : Multiset File.Job) ≤ {job} := by
      rw [hqueued]
      split
      · exact le_refl _
      · exact Multiset.zero_le _
    rw [hflight, ← add_assoc]
    exact .inl (add_le_add_left (add_le_add_right hnew _) _)
  | keeps hflight hqueued =>
    dsimp only at hflight
    rw [hqueued, hflight, Multiset.coe_nil, add_zero]
    exact .inl (le_refl _)

theorem mem_lines_step (hs : e.step? op = some (e', fx)) (hjob : job ∈ lines w (es ++ [⟨e, op, e', fx⟩]) e') :
    job ∈ lines w es e ∨ Taking w ⟨e, op, e', fx⟩ job := by
  rcases lines_step hs with hle | ⟨new, htaking, heq⟩
  · exact .inl (Multiset.mem_of_le hle hjob)
  · rw [heq, Multiset.mem_add, Multiset.mem_singleton] at hjob
    exact hjob.imp_right (by rintro rfl; exact htaking)

/-- Every line has an acknowledgement of its own. -/
def Tracked (w : WriterId) (es : List Event) (e : Engine) : Prop :=
  (lines w es e).map File.Job.ack ≤ Multiset.range e.acks.length

theorem Tracked.step (h : Tracked w es e) (hs : e.step? op = some (e', fx)) : Tracked w (es ++ [⟨e, op, e', fx⟩]) e' := by
  unfold Tracked at h ⊢
  rcases lines_step hs with hle | ⟨job, htaking, heq⟩
  · exact (Multiset.map_le_map hle).trans (h.trans (Multiset.range_le.mpr (acks_step hs).1))
  · cases htaking with
    | attempt _ _ _ _ _ hack hacks =>
      dsimp only at hack hacks
      rw [heq, Multiset.map_add, Multiset.map_singleton, hack, hacks, List.length_append, List.length_singleton,
        Multiset.range_succ, ← Multiset.singleton_add, add_comm]
      exact add_le_add_right h _

theorem Tracked.lt_length (h : Tracked w es e) : ∀ job ∈ queued w es, job.ack < e.acks.length := by
  intro job hjob
  have hmem : job.ack ∈ (lines w es e).map File.Job.ack := Multiset.mem_map_of_mem _ (mem_lines_of_queued hjob)
  exact Multiset.mem_range.mp (Multiset.mem_of_le h hmem)

/-- No two lines have one acknowledgement. -/
theorem Tracked.nodup (h : Tracked w es e) : ((queued w es).map File.Job.ack).Nodup := by
  have hnodup := Multiset.nodup_of_le h (Multiset.nodup_range _)
  rw [lines, Multiset.map_add] at hnodup
  exact Multiset.coe_nodup.mp (Multiset.nodup_of_le (Multiset.le_add_right _ _) hnodup)

end sending

end Engine

end LogDispatch
