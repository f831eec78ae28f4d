import LogDispatch.Proofs.Deeds
import LogDispatch.Proofs.Sending

/-! How writers serve their queues. What was queued to a writer has been taken in batches, in order, or still waits
    (`Serves.taken`). A batch is written before the next one is taken, and its lines are answered for one after the other
    by what came of it (`Serves.replied`). -/

namespace LogDispatch

/-! ### What is taken, written and answered -/

/-- The action is for the worker of a writer. -/
def Action.worksFor (w : WriterId) : Action → Bool
  | .write v _ | .rest v => v == w
  | _ => false

/-- The agenda has something on it for the worker of a writer. -/
def isBusy (w : WriterId) (agenda : List Action) : Bool := agenda.any (Action.worksFor w)

/-- The action is a step by which a line is answered for. -/
def Action.isReplying : Action → Bool
  | .answer .. | .count .. | .record .. | .arrive _ | .tell _ => true
  | _ => false

def Action.answer? : Action → Option (AckId × Answer)
  | .answer ack reply => some (ack, reply)
  | _ => none

/-- How many steps an action of a worker takes at most, with those that come of it. -/
def Action.effort : Action → Nat
  | .write _ batch => 5 * batch.length + 1
  | .answer .. => 5
  | .arrive _ => 2
  | .count .. | .record .. | .tell _ | .rest _ => 1
  | _ => 0

/-- A batch and what came of writing it. -/
structure Written where
  batch : List File.Job
  result : Except File.Disk.Fault Unit

namespace Event

/-- The agenda of the task that goes on. -/
def agenda (ev : Event) : List Action := (ev.op.task?.bind (ev.before.agendas[·]?)).getD []

/-- The event is the work of a writer: it takes a batch, or goes on with one. -/
def isOf (w : WriterId) (ev : Event) : Bool :=
  (match ev.op with
    | .begin (.serve v _) => v == w
    | _ => false) || isBusy w ev.agenda

/-- The batch that a writer takes. -/
def taken? (w : WriterId) (ev : Event) : Option (List File.Job) :=
  match ev.op with
  | .begin (.serve v n) => if v = w then some ((ev.before.files.queue w).take n) else none
  | _ => none

/-- The batch that a writer writes. -/
def written? (w : WriterId) (ev : Event) : Option Written :=
  match ev.action? with
  | some (.write v batch) => if v = w then some ⟨batch, (ev.before.files.write w batch).2⟩ else none
  | _ => none

/-- The answer that a writer gives. -/
def served? (w : WriterId) (ev : Event) : Option (AckId × Answer) :=
  if isBusy w ev.agenda then ev.action?.bind Action.answer? else none

end Event

section logs
variable (w : WriterId) (es : List Event)

/-- The batches that a writer took. -/
def batches : List (List File.Job) := es.filterMap (Event.taken? w)

/-- The batches that a writer wrote or could not write. -/
def writings : List Written := es.filterMap (Event.written? w)

/-- The answers that a writer gave. -/
def served : List (AckId × Answer) := es.filterMap (Event.served? w)

variable {w es} (ev : Event)

theorem writings_append (es' : List Event) : writings w (es ++ es') = writings w es ++ writings w es' :=
  List.filterMap_append

@[simp] theorem batches_concat : batches w (es ++ [ev]) = batches w es ++ (ev.taken? w).toList := by
  cases h : ev.taken? w <;> simp [batches, h]

@[simp] theorem writings_concat : writings w (es ++ [ev]) = writings w es ++ (ev.written? w).toList := by
  cases h : ev.written? w <;> simp [writings, h]

@[simp] theorem served_concat : served w (es ++ [ev]) = served w es ++ (ev.served? w).toList := by
  cases h : ev.served? w <;> simp [served, h]

end logs

namespace Engine

/-- The answers that are due for a batch. -/
def answersDue (e : Engine) (x : Written) : List (AckId × Answer) :=
  x.batch.map fun job => (job.ack, File.answerFor (e.routeOf job.ack) x.result)

section steps
variable {e e' : Engine} {task : TaskId} {a : Action} {m : Move} {rest next agenda : List Action} {op : Op}
  {fx : List Effect} {es : List Event} {w : WriterId}

/-- Nothing that comes next is for a worker: it has all its work when it begins with a batch. -/
theorem Next.notBusy (hn : Next e a next) : isBusy w next = false := by
  unfold isBusy
  cases hn with
  | screen hadm => rcases admission_cases hadm with ⟨_, _, _, rfl⟩ | ⟨_, rfl⟩ <;> rfl
  | fan => simp [Action.worksFor]
  | @answer ack answer x => cases answer.result x.route <;> rfl
  | letGo | close => simp [frees, Action.worksFor]
  | @refused _ error => rfl
  | @faulty _ isReload _ => cases isReload <;> rfl
  | abandon | notCreated =>
    rename_i isReload _ _
    rw [Engine.abandon, List.any_append]
    cases isReload <;> simp [Engine.building, Action.worksFor]
  | @publish d isReload => cases isReload <;> rfl
  | recalcAll => simp [Action.worksFor]
  | write => simp [Action.worksFor]
  | _ => rfl

/-- The steps of an answer bring no other answer. -/
theorem Next.replying (hn : Next e a next) (ha : a.isReplying = true) :
    next.all Action.isReplying = true ∧ next.filterMap Action.answer? = [] ∧ weigh Action.effort next < a.effort := by
  cases hn with
  | nothing =>
    refine ⟨rfl, rfl, ?_⟩
    cases a <;> first | exact Nat.zero_lt_succ _ | cases ha
  | tell => exact ⟨rfl, rfl, Nat.lt_succ_self _⟩
  | @answer ack answer x =>
    cases answer.result x.route with
    | ok | error => exact ⟨rfl, rfl, by simp [answerSteps, Action.effort]⟩
  | _ => cases ha

/-- An event that is not the work of a writer only adds to its queue. -/
theorem queue_step (hs : e.step? op = some (e', fx)) (hop : ∀ n, op ≠ .begin (.serve w n))
    (ha : ∀ a, Event.action? ⟨e, op, e', fx⟩ = some a → a.worksFor w = false) :
    e'.files.queue w = e.files.queue w ++ Event.queued w ⟨e, op, e', fx⟩ ∧
      e'.files.isServing w = e.files.isServing w := by
  cases station hs w with
  | takes hserve => exact absurd hserve (hop _)
  | rests haction =>
    have hfor := ha _ haction
    simp [Action.worksFor] at hfor
  | sends _ hqueue hserving =>
    rw [queued_eq hqueue]
    exact ⟨hqueue, hserving⟩
  | still hqueue hserving =>
    rw [queued_eq_nil hqueue, List.append_nil]
    exact ⟨hqueue, hserving⟩

/-! ### How a writer serves its queue -/

/-- Where a writer is: it has nothing to do, is about to write a batch, or answers for one. Only one task is busy with
    its work, and it has these batches still to write, these answers still to give, and so many steps at most to do. -/
inductive Phase (w : WriterId) (e : Engine) : List (List File.Job) → List (AckId × Answer) → Nat → Prop
  | idle : e.files.isServing w = false →
      (∀ (t : TaskId) agenda, e.agendas[t]? = some agenda → isBusy w agenda = false) → Phase w e [] [] 0
  | writing {task : TaskId} {batch : List File.Job} : e.files.isServing w = true →
      e.agendas[task]? = some [.write w batch, .rest w, .finish .done] →
      (∀ (t : TaskId) agenda, e.agendas[t]? = some agenda → isBusy w agenda = true → t = task) →
      Phase w e [batch] [] (5 * batch.length + 2)
  | answering {task : TaskId} {left : List Action} : e.files.isServing w = true →
      e.agendas[task]? = some (left ++ [.rest w, .finish .done]) → left.all Action.isReplying = true →
      (∀ (t : TaskId) agenda, e.agendas[t]? = some agenda → isBusy w agenda = true → t = task) →
      Phase w e [] (left.filterMap Action.answer?) (weigh Action.effort left + 1)

/-- What a writer has done with the lines that were queued to it, when it has these batches still to write, these answers
    still to give, and so many steps at most to do for them. -/
structure Serves (w : WriterId) (es : List Event) (e : Engine) (unwritten : List (List File.Job))
    (owed : List (AckId × Answer)) (effort : Nat) : Prop where
  phase : Phase w e unwritten owed effort
  taken : (batches w es).flatten ++ e.files.queue w = queued w es
  sizes : ∀ batch ∈ batches w es, 0 < batch.length ∧ batch.length ≤ File.batchLimit
  written : batches w es = (writings w es).map Written.batch ++ unwritten
  replied : (writings w es).flatMap e.answersDue = served w es ++ owed
  tracked : Tracked w es e
  steps : es.countP (Event.isOf w) + 8 * (e.files.queue w).length + effort ≤ 8 * (queued w es).length

/-- The event is no work of the writer. -/
structure Passes (w : WriterId) (ev : Event) : Prop where
  other : ev.isOf w = false
  queue : ev.after.files.queue w = ev.before.files.queue w ++ ev.queued w
  isServing : ev.after.files.isServing w = ev.before.files.isServing w
  taken : ev.taken? w = none
  written : ev.written? w = none
  served : ev.served? w = none

variable {unwritten : List (List File.Job)} {owed : List (AckId × Answer)} {effort : Nat}

theorem isBusy_writing (w : WriterId) (batch : List File.Job) :
    isBusy w [.write w batch, .rest w, .finish .done] = true := by simp [isBusy, Action.worksFor]

theorem isBusy_answering (w : WriterId) (left : List Action) : isBusy w (left ++ [.rest w, .finish .done]) = true := by
  simp [isBusy, Action.worksFor]

/-- As long as the agendas with its work are as before, a writer is where it was. -/
theorem Phase.keep (h : Phase w e unwritten owed effort) (hserving : e'.files.isServing w = e.files.isServing w)
    (hsame : ∀ (t : TaskId) agenda, isBusy w agenda = true → (e'.agendas[t]? = some agenda ↔ e.agendas[t]? = some agenda)) :
    Phase w e' unwritten owed effort := by
  cases h with
  | idle hidle hnone =>
    refine .idle (hserving.trans hidle) fun t agenda hagenda => ?_
    rw [Bool.eq_false_iff]
    intro hbusy
    have hno := hnone t agenda ((hsame t agenda hbusy).mp hagenda)
    rw [hbusy] at hno
    cases hno
  | writing hbatch hagenda honly =>
    exact .writing (hserving.trans hbatch) ((hsame _ _ (isBusy_writing w _)).mpr hagenda)
      fun t agenda h hbusy => honly t agenda ((hsame t agenda hbusy).mp h) hbusy
  | answering hbatch hagenda hreplying honly =>
    exact .answering (hserving.trans hbatch) ((hsame _ _ (isBusy_answering w _)).mpr hagenda) hreplying
      fun t agenda h hbusy => honly t agenda ((hsame t agenda hbusy).mp h) hbusy

/-- An action is done from the front of an agenda. -/
theorem Event.exists_agenda {ev : Event} (ha : ev.action? = some a) :
    ∃ rest, ev.agenda = a :: rest ∧ a :: rest ∈ ev.before.agendas := by
  obtain ⟨task, htask, h⟩ := Option.bind_eq_some_iff.mp ha
  obtain ⟨agenda, hagenda, hhead⟩ := Option.bind_eq_some_iff.mp h
  obtain ⟨rest, rfl⟩ := List.head?_eq_some_iff.mp hhead
  refine ⟨rest, ?_, List.mem_of_getElem? hagenda⟩
  rw [Event.agenda, htask, Option.bind_some, hagenda]
  rfl

theorem Passes.of_step (hs : e.step? op = some (e', fx)) (hop : ∀ n, op ≠ .begin (.serve w n))
    (hbusy : isBusy w (Event.agenda ⟨e, op, e', fx⟩) = false) : Passes w ⟨e, op, e', fx⟩ := by
  have hfor : ∀ a, Event.action? ⟨e, op, e', fx⟩ = some a → a.worksFor w = false := by
    intro a ha
    obtain ⟨rest, hagenda, -⟩ := Event.exists_agenda ha
    rw [hagenda, isBusy, List.any_cons, Bool.or_eq_false_iff] at hbusy
    exact hbusy.1
  obtain ⟨hqueue, hserving⟩ := queue_step hs hop hfor
  refine ⟨?_, hqueue, hserving, ?_, ?_, ?_⟩
  · unfold Event.isOf
    rw [hbusy, Bool.or_false]
    split
    · rename_i v n heq
      rw [beq_eq_false_iff_ne]
      rintro rfl
      exact hop n heq
    · rfl
  · unfold Event.taken?
    split
    · rename_i v n heq
      split
      · rename_i hv
        subst hv
        exact absurd heq (hop n)
      · rfl
    · rfl
  · unfold Event.written?
    split
    · rename_i v batch ha
      have hno : (v == w) = false := hfor _ ha
      rw [if_neg (beq_eq_false_iff_ne.mp hno)]
    · rfl
  · rw [Event.served?, hbusy]
    rfl

theorem answersDue_eq {x : Written} (hsame : ∀ i < e.acks.length, e'.routeOf i = e.routeOf i)
    (hx : ∀ job ∈ x.batch, job.ack < e.acks.length) : e'.answersDue x = e.answersDue x := by
  refine List.map_congr_left fun job hjob => ?_
  rw [hsame _ (hx job hjob)]

theorem agenda_of_task (htask : op.task? = some task) (hagenda : e.agendas[task]? = some agenda) :
    Event.agenda ⟨e, op, e', fx⟩ = agenda := by
  simp [Event.agenda, htask, hagenda]

/-- The agendas with the work of a writer are as before when others go on. -/
theorem agendas_step (hs : e.step? op = some (e', fx)) (hop : ∀ n, op ≠ .begin (.serve w n))
    (hbusy : isBusy w (Event.agenda ⟨e, op, e', fx⟩) = false) (t : TaskId) (hagenda : isBusy w agenda = true) :
    e'.agendas[t]? = some agenda ↔ e.agendas[t]? = some agenda := by
  have hne : ∀ other, isBusy w other = false → other ≠ agenda := by
    rintro other hidle rfl
    rw [hagenda] at hidle
    cases hidle
  rcases step_cases hs with ⟨request, rfl, hb, -⟩ | ⟨task, a, rest, m, htask, ha, hdoes, rfl, -⟩
  · obtain ⟨opening, -, hagendas, -⟩ := begin_cases hb
    have hopening : isBusy w opening = false := by
      cases begins_of_begin hb hagendas with
      | serve v n batch =>
        have hv : v ≠ w := by
          rintro rfl
          exact hop n rfl
        simp [isBusy, Action.worksFor, hv]
      | _ => rfl
    rw [hagendas]
    rcases Nat.lt_trichotomy t e.agendas.length with hlt | rfl | hgt
    · rw [List.getElem?_append_left hlt]
    · rw [List.getElem?_concat_length, List.getElem?_eq_none (Nat.le_refl _)]
      exact ⟨fun h => absurd (Option.some.inj h) (hne _ hopening), nofun⟩
    · rw [List.getElem?_eq_none (Nat.le_of_lt hgt), List.getElem?_eq_none]
      rw [List.length_append]
      exact hgt
  · rw [agenda_of_task htask ha, isBusy, List.any_cons, Bool.or_eq_false_iff] at hbusy
    have hafter : isBusy w (m.next ++ rest) = false := by
      have hnext : isBusy w m.next = false := hdoes.next.notBusy
      rw [isBusy] at hnext ⊢
      rw [List.any_append, hnext, hbusy.2]
      rfl
    have hbefore : isBusy w (a :: rest) = false := by
      rw [isBusy, List.any_cons, hbusy.1, hbusy.2]
      rfl
    rw [agendas_setAgenda, hdoes.agendas, agendas_setAgenda, List.set_set]
    by_cases h : task = t
    · subst h
      rw [List.getElem?_set_self (List.getElem?_eq_some_iff.mp ha).1, ha]
      exact ⟨fun h => absurd (Option.some.inj h) (hne _ hafter), fun h => absurd (Option.some.inj h) (hne _ hbefore)⟩
    · rw [List.getElem?_set_ne h]

namespace Serves

theorem mem_queued (h : Serves w es e unwritten owed effort) {x : Written} (hx : x ∈ writings w es) {job : File.Job}
    (hjob : job ∈ x.batch) : job ∈ queued w es := by
  rw [← h.taken, h.written, List.flatten_append]
  exact List.mem_append_left _ (List.mem_append_left _ (List.mem_flatten.mpr ⟨_, List.mem_map_of_mem hx, hjob⟩))

theorem answersDue_step (h : Serves w es e unwritten owed effort) (hs : e.step? op = some (e', fx)) :
    (writings w es).flatMap e'.answersDue = (writings w es).flatMap e.answersDue := by
  rw [List.flatMap, List.flatMap]
  refine congrArg List.flatten (List.map_congr_left fun x hx => ?_)
  exact answersDue_eq (acks_step hs).2 fun job hjob => h.tracked.lt_length job (h.mem_queued hx hjob)

/-- What others do changes nothing but the queue. -/
theorem pass (h : Serves w es e unwritten owed effort) (hs : e.step? op = some (e', fx)) (hpass : Passes w ⟨e, op, e', fx⟩)
    (hphase : Phase w e' unwritten owed effort) : Serves w (es ++ [⟨e, op, e', fx⟩]) e' unwritten owed effort where
  phase := hphase
  taken := by
    have hqueue := hpass.queue
    dsimp only at hqueue
    rw [batches_concat, hpass.taken, queued_concat, hqueue, ← h.taken]
    simp
  sizes := by simpa [hpass.taken] using h.sizes
  written := by simpa [hpass.taken, hpass.written] using h.written
  replied := by simpa [hpass.written, hpass.served, h.answersDue_step hs] using h.replied
  tracked := h.tracked.step hs
  steps := by
    have hsteps := h.steps
    have hqueue := hpass.queue
    dsimp only at hqueue
    simp only [List.countP_append, List.countP_singleton, hpass.other, Bool.false_eq_true, if_false, queued_concat, hqueue,
      List.length_append]
    omega

theorem other (h : Serves w es e unwritten owed effort) (hs : e.step? op = some (e', fx))
    (hop : ∀ n, op ≠ .begin (.serve w n)) (hbusy : isBusy w (Event.agenda ⟨e, op, e', fx⟩) = false) :
    Serves w (es ++ [⟨e, op, e', fx⟩]) e' unwritten owed effort := by
  have hpass := Passes.of_step hs hop hbusy
  exact h.pass hs hpass (h.phase.keep hpass.isServing fun t agenda hagenda => agendas_step hs hop hbusy t hagenda)

theorem takes {n : Nat} (h : Serves w es e unwritten owed effort) (hs : e.step? (.begin (.serve w n)) = some (e', fx)) :
    Serves w (es ++ [⟨e, .begin (.serve w n), e', fx⟩]) e' [(e.files.queue w).take n] [] (5 * n + 2) := by
  obtain ⟨hidle, hpos, hlimit, hle, hqueue, hserving, hagendas⟩ := serve_step hs
  have htaken : Event.taken? w ⟨e, .begin (.serve w n), e', fx⟩ = some ((e.files.queue w).take n) := if_pos rfl
  have hqueued : Event.queued w ⟨e, .begin (.serve w n), e', fx⟩ = [] := by
    rw [Event.queued, hqueue]
    exact List.drop_eq_nil_of_le (by simp)
  have hwritten : Event.written? w ⟨e, .begin (.serve w n), e', fx⟩ = none := rfl
  have hserved : Event.served? w ⟨e, .begin (.serve w n), e', fx⟩ = none := rfl
  cases h.phase with
  | writing hbusy | answering hbusy =>
    rw [hbusy] at hidle
    cases hidle
  | idle _ hnone =>
    have hsize : ((e.files.queue w).take n).length = n := by rw [List.length_take, Nat.min_eq_left hle]
    refine ⟨?_, ?_, ?_, ?_, ?_, h.tracked.step hs, ?_⟩
    · have hnew : e'.agendas[e.agendas.length]? =
          some [.write w ((e.files.queue w).take n), .rest w, .finish .done] := by
        rw [hagendas]
        exact List.getElem?_concat_length
      have hphase : Phase w e' [(e.files.queue w).take n] [] (5 * ((e.files.queue w).take n).length + 2) := by
        refine .writing hserving hnew fun t agenda hagenda hbusy => ?_
        rw [hagendas] at hagenda
        rcases getElem?_concat_eq_some hagenda with ⟨rfl, -⟩ | hold
        · rfl
        · rw [hnone t agenda hold] at hbusy
          cases hbusy
      rwa [hsize] at hphase
    · rw [batches_concat, htaken, queued_concat, hqueued, hqueue, List.append_nil, ← h.taken]
      simp
    · intro batch hbatch
      rw [batches_concat, htaken] at hbatch
      rcases List.mem_append.mp hbatch with hbatch | hbatch
      · exact h.sizes batch hbatch
      · rw [List.mem_singleton.mp hbatch, hsize]
        exact ⟨hpos, hlimit⟩
    · rw [batches_concat, htaken, writings_concat, hwritten, h.written]
      simp
    · rw [writings_concat, hwritten, served_concat, hserved]
      simpa [h.answersDue_step hs] using h.replied
    · have hsteps := h.steps
      have hown : Event.isOf w ⟨e, .begin (.serve w n), e', fx⟩ = true := by simp [Event.isOf]
      rw [List.countP_append, List.countP_singleton, if_pos hown, queued_concat, hqueued, List.append_nil, hqueue,
        List.length_drop]
      omega

/-- After a deed of the busy task no other one is busy. -/
theorem only_step (hs : Deed task a rest m ⟨e, op, e', fx⟩)
    (honly : ∀ (t : TaskId) agenda, e.agendas[t]? = some agenda → isBusy w agenda = true → t = task) (t : TaskId)
    (agenda : List Action) (hagenda : e'.agendas[t]? = some agenda) (hbusy : isBusy w agenda = true) : t = task := by
  by_contra hne
  have hafter : e'.agendas = e.agendas.set task (m.next ++ rest) := by
    have h := hs.after
    dsimp only at h
    rw [h, agendas_setAgenda, hs.does.agendas, agendas_setAgenda, List.set_set]
  rw [hafter, List.getElem?_set_ne (Ne.symm hne)] at hagenda
  exact hne (honly t agenda hagenda hbusy)

theorem answer?_answersFor {batch : List File.Job} {result : Except File.Disk.Fault Unit}
    (hacks : ∀ job ∈ batch, job.ack < e.acks.length) :
    (e.answersFor batch result).filterMap Action.answer? = e.answersDue ⟨batch, result⟩ := by
  rw [answersFor, List.filterMap_filterMap, answersDue, ← List.filterMap_eq_map]
  refine List.filterMap_congr fun job hjob => ?_
  simp [routeOf, List.getElem?_eq_getElem (hacks job hjob), Action.answer?]

theorem replying_answersFor {batch : List File.Job} {result : Except File.Disk.Fault Unit} :
    (e.answersFor batch result).all Action.isReplying = true := by
  rw [List.all_eq_true]
  intro b hb
  obtain ⟨job, -, hanswer⟩ := List.mem_filterMap.mp hb
  obtain ⟨x, -, rfl⟩ := Option.map_eq_some_iff.mp hanswer
  rfl

theorem effort_answersFor {batch : List File.Job} {result : Except File.Disk.Fault Unit} :
    weigh Action.effort (e.answersFor batch result) ≤ 5 * batch.length := by
  induction batch with
  | nil => exact Nat.le_refl _
  | cons job batch ih =>
    unfold answersFor at ih ⊢
    rw [List.length_cons]
    cases hack : e.acks[job.ack]? with
    | none =>
      rw [List.filterMap_cons_none (by rw [hack, Option.map_none])]
      omega
    | some x =>
      rw [List.filterMap_cons_some (by rw [hack, Option.map_some]), weigh_cons]
      unfold Action.effort at ih ⊢
      dsimp only
      omega

theorem isOf_of_busy (htask : op.task? = some task) (hagenda : e.agendas[task]? = some agenda)
    (hbusy : isBusy w agenda = true) : Event.isOf w ⟨e, op, e', fx⟩ = true := by
  rw [Event.isOf, agenda_of_task htask hagenda, hbusy, Bool.or_true]

theorem taken?_of_task (htask : op.task? = some task) : Event.taken? w ⟨e, op, e', fx⟩ = none := by
  cases op <;> first | rfl | cases htask

/-- The batch is written, or cannot be, and the answers for it are due. -/
theorem writes {batch : List File.Job} (h : Serves w es e [batch] [] (5 * batch.length + 2))
    (hs : e.step? op = some (e', fx)) (hserving : e.files.isServing w = true)
    (honly : ∀ (t : TaskId) agenda, e.agendas[t]? = some agenda → isBusy w agenda = true → t = task)
    (hdeed : Deed task (.write w batch) [.rest w, .finish .done] m ⟨e, op, e', fx⟩) :
    ∃ owed effort, Serves w (es ++ [⟨e, op, e', fx⟩]) e' [] owed effort := by
  have hm : m = (e.setAgenda task [.rest w, .finish .done]).write w batch := by
    cases hdeed.does with
    | perform hp => exact (Option.some.inj hp).symm
  have hfiles : e'.files = (e.files.write w batch).1 := by
    have hafter := hdeed.after
    dsimp only at hafter
    rw [hafter, hm]
    rfl
  have hstill : e.files.Still e'.files := hfiles ▸ File.Store.still_write w batch
  have hagenda := hdeed.agenda_after
  have hnext : m.next = e.answersFor batch (e.files.write w batch).2 := by
    rw [hm]
    rfl
  rw [hnext] at hagenda
  have hwritten : Event.written? w ⟨e, op, e', fx⟩ = some ⟨batch, (e.files.write w batch).2⟩ := by
    simp [Event.written?, hdeed.action?]
  have hserved : Event.served? w ⟨e, op, e', fx⟩ = none := by
    simp [Event.served?, hdeed.action?, Action.answer?]
  have htaken : Event.taken? w ⟨e, op, e', fx⟩ = none := taken?_of_task hdeed.own
  have hqueued : Event.queued w ⟨e, op, e', fx⟩ = [] := queued_eq_nil (hstill.queue w)
  have hbatch : ∀ job ∈ batch, job.ack < e.acks.length := by
    intro job hjob
    refine h.tracked.lt_length job ?_
    rw [← h.taken, h.written]
    simp [hjob]
  refine ⟨_, _, .answering ((hstill.isServing w).trans hserving) hagenda replying_answersFor (only_step hdeed honly),
    ?_, ?_, ?_, ?_, h.tracked.step hs, ?_⟩
  · rw [batches_concat, htaken, queued_concat, hqueued, hstill.queue, ← h.taken]
    simp
  · simpa [htaken] using h.sizes
  · simpa [htaken, hwritten] using h.written
  · rw [answer?_answersFor hbatch]
    have hdue : e'.answersDue ⟨batch, (e.files.write w batch).2⟩ = e.answersDue ⟨batch, (e.files.write w batch).2⟩ :=
      answersDue_eq (acks_step hs).2 hbatch
    have hreplied := h.replied
    rw [List.append_nil] at hreplied
    simp [hwritten, hserved, h.answersDue_step hs, hdue, hreplied]
  · have hsteps := h.steps
    have hown : Event.isOf w ⟨e, op, e', fx⟩ = true := isOf_of_busy hdeed.own hdeed.agenda (isBusy_writing w batch)
    have heffort : weigh Action.effort (e.answersFor batch (e.files.write w batch).2) ≤ 5 * batch.length := effort_answersFor
    rw [List.countP_append, List.countP_singleton, if_pos hown, queued_concat, hqueued, List.append_nil, hstill.queue]
    omega

/-- A step of the busy task that only hands answers on leaves its files as they are. -/
theorem files_of_replying (hdeed : Deed task a rest m ⟨e, op, e', fx⟩)
    (ha : a.isReplying = true) : Event.queued w ⟨e, op, e', fx⟩ = [] ∧ e'.files = e.files := by
  have hf := hdeed.does.frame
  have hafter := hdeed.after
  have hsame : e'.files = e.files := by
    dsimp only at hafter
    rw [hafter]
    cases a <;> first
      | (cases ha; done)
      | exact (congrArg Engine.files hf :)
  exact ⟨queued_eq_nil (by rw [hsame]), hsame⟩

/-- One more line is answered for, or the answer is handed on. -/
theorem replies {left : List Action}
    (h : Serves w es e [] ((a :: left).filterMap Action.answer?) (weigh Action.effort (a :: left) + 1))
    (hs : e.step? op = some (e', fx)) (hserving : e.files.isServing w = true)
    (hleft : (a :: left).all Action.isReplying = true)
    (honly : ∀ (t : TaskId) agenda, e.agendas[t]? = some agenda → isBusy w agenda = true → t = task)
    (hdeed : Deed task a (left ++ [.rest w, .finish .done]) m ⟨e, op, e', fx⟩) :
    ∃ effort, Serves w (es ++ [⟨e, op, e', fx⟩]) e' [] (left.filterMap Action.answer?) effort := by
  rw [List.all_cons, Bool.and_eq_true] at hleft
  obtain ⟨hqueued, hfiles⟩ := files_of_replying (w := w) hdeed hleft.1
  obtain ⟨hnext, hnone, hless⟩ := hdeed.does.next.replying hleft.1
  have hagenda := hdeed.agenda_after
  rw [← List.append_assoc] at hagenda
  have htaken : Event.taken? w ⟨e, op, e', fx⟩ = none := taken?_of_task hdeed.own
  have hwritten : Event.written? w ⟨e, op, e', fx⟩ = none := by
    rw [Event.written?, hdeed.action?]
    cases a <;> first | rfl | cases hleft.1
  have hbusy : isBusy w (a :: (left ++ [.rest w, .finish .done])) = true := isBusy_answering w (a :: left)
  have hserved : Event.served? w ⟨e, op, e', fx⟩ = a.answer? := by
    have hbusy : isBusy w (Event.agenda ⟨e, op, e', fx⟩) = true := by rwa [agenda_of_task hdeed.own hdeed.agenda]
    rw [Event.served?, if_pos hbusy, hdeed.action?, Option.bind_some]
  have howed : left.filterMap Action.answer? = (m.next ++ left).filterMap Action.answer? := by
    rw [List.filterMap_append, hnone, List.nil_append]
  refine ⟨weigh Action.effort (m.next ++ left) + 1, ?_, ?_, ?_, ?_, ?_, h.tracked.step hs, ?_⟩
  · rw [howed]
    refine .answering (hfiles ▸ hserving) hagenda ?_ (only_step hdeed honly)
    rw [List.all_append, hnext, hleft.2]
    rfl
  · rw [batches_concat, htaken, queued_concat, hqueued, hfiles, ← h.taken]
    simp
  · simpa [htaken] using h.sizes
  · simpa [htaken, hwritten] using h.written
  · have hreplied := h.replied
    simp only [writings_concat, hwritten, served_concat, hserved, h.answersDue_step hs, Option.toList_none, List.append_nil]
    rw [hreplied, List.append_assoc]
    cases hanswer : a.answer? <;> simp [hanswer]
  · have hsteps := h.steps
    have hown : Event.isOf w ⟨e, op, e', fx⟩ = true := isOf_of_busy hdeed.own hdeed.agenda hbusy
    rw [weigh_cons] at hsteps
    rw [List.countP_append, List.countP_singleton, if_pos hown, queued_concat, hqueued, List.append_nil, hfiles,
      weigh_append]
    omega

/-- The writer is done with the batch. -/
theorem rests (h : Serves w es e [] [] 1) (hs : e.step? op = some (e', fx))
    (honly : ∀ (t : TaskId) agenda, e.agendas[t]? = some agenda → isBusy w agenda = true → t = task)
    (hdeed : Deed task (.rest w) [.finish .done] m ⟨e, op, e', fx⟩) :
    Serves w (es ++ [⟨e, op, e', fx⟩]) e' [] [] 0 := by
  have hfiles : e'.files = e.files.rest w := by
    have hafter := hdeed.after
    dsimp only at hafter
    rw [hafter]
    cases hdeed.does with
    | perform hp =>
      obtain rfl := Option.some.inj hp
      rfl
  obtain ⟨hqueue, hidle⟩ := File.Store.queue_rest (s := e.files) (w := w) (v := w)
  rw [if_pos rfl, ← hfiles] at hidle
  rw [← hfiles] at hqueue
  have hnext : m.next = [] := by
    have hn := hdeed.does.next
    generalize m.next = next at hn
    cases hn
    rfl
  have hagenda := hdeed.agenda_after
  rw [hnext, List.nil_append] at hagenda
  have hqueued : Event.queued w ⟨e, op, e', fx⟩ = [] := queued_eq_nil hqueue
  have htaken : Event.taken? w ⟨e, op, e', fx⟩ = none := taken?_of_task hdeed.own
  have hwritten : Event.written? w ⟨e, op, e', fx⟩ = none := by
    rw [Event.written?, hdeed.action?]
  have hserved : Event.served? w ⟨e, op, e', fx⟩ = none := by
    simp [Event.served?, hdeed.action?, Action.answer?]
  refine ⟨.idle hidle fun t agenda ht => ?_, ?_, ?_, ?_, ?_, h.tracked.step hs, ?_⟩
  · cases hbusy : isBusy w agenda with
    | false => rfl
    | true =>
      obtain rfl := only_step hdeed honly t agenda ht hbusy
      obtain rfl := Option.some.inj (hagenda.symm.trans ht)
      cases hbusy
  · rw [batches_concat, htaken, queued_concat, hqueued, hqueue, ← h.taken]
    simp
  · simpa [htaken] using h.sizes
  · simpa [htaken, hwritten] using h.written
  · simpa [hwritten, hserved, h.answersDue_step hs] using h.replied
  · have hsteps := h.steps
    have hown : Event.isOf w ⟨e, op, e', fx⟩ = true := isOf_of_busy hdeed.own hdeed.agenda (isBusy_answering w [])
    rw [List.countP_append, List.countP_singleton, if_pos hown, queued_concat, hqueued, List.append_nil, hqueue]
    omega

theorem step (h : Serves w es e unwritten owed effort) (hs : e.step? op = some (e', fx)) :
    ∃ unwritten' owed' effort', Serves w (es ++ [⟨e, op, e', fx⟩]) e' unwritten' owed' effort' := by
  by_cases hserve : ∃ n, op = .begin (.serve w n)
  · obtain ⟨n, rfl⟩ := hserve
    exact ⟨_, _, _, h.takes hs⟩
  · have hop : ∀ n, op ≠ .begin (.serve w n) := fun n heq => hserve ⟨n, heq⟩
    cases hbusy : isBusy w (Event.agenda ⟨e, op, e', fx⟩) with
    | false => exact ⟨_, _, _, h.other hs hop hbusy⟩
    | true =>
      rcases step_cases hs with ⟨request, rfl, -, -⟩ | ⟨task, a, rest, m, htask, hagenda, hdoes, hafter, hfx⟩
      · cases hbusy
      · have hdeed : Deed task a rest m ⟨e, op, e', fx⟩ := ⟨htask, hagenda, hdoes, hafter, hfx⟩
        rw [agenda_of_task htask hagenda] at hbusy
        cases h.phase with
        | idle _ hnone =>
          rw [hnone task _ hagenda] at hbusy
          cases hbusy
        | writing hserving hown honly =>
          obtain rfl := honly task _ hagenda hbusy
          obtain ⟨rfl, rfl⟩ := List.cons.inj (Option.some.inj (hagenda.symm.trans hown))
          obtain ⟨owed', hserves⟩ := h.writes hs hserving honly hdeed
          exact ⟨_, owed', hserves⟩
        | @answering _ left hserving hown hreplying honly =>
          obtain rfl := honly task _ hagenda hbusy
          have hleft := Option.some.inj (hagenda.symm.trans hown)
          cases left with
          | nil =>
            obtain ⟨rfl, rfl⟩ := List.cons.inj hleft
            exact ⟨_, _, _, h.rests hs honly hdeed⟩
          | cons b left =>
            obtain ⟨rfl, rfl⟩ := List.cons.inj hleft
            exact ⟨_, _, h.replies hs hserving hreplying honly hdeed⟩

/-- Another disk changes nothing of what has been done. -/
theorem alter {disk : File.Disk} {sinks : WriterId → File.Sink} (h : Serves w es e unwritten owed effort) :
    Serves w es (e.altered disk sinks) unwritten owed effort := by
  have hstill : e.files.Still (e.altered disk sinks).files := File.Store.still_altered
  have hphase := h.phase.keep (hstill.isServing w) fun t agenda _ => Iff.rfl
  refine ⟨hphase, ?_, h.sizes, h.written, h.replied, h.tracked, ?_⟩
  · rw [hstill.queue]
    exact h.taken
  · rw [hstill.queue]
    exact h.steps

end Serves

/-- At any time a writer has served its queue so far. -/
theorem Exposed.serves {setup : Setup} {files : File.Store} {config : Config} (hfiles : files.writers = [])
    (h : Exposed (start setup files config) es e) (w : WriterId) :
    ∃ unwritten owed effort, Serves w es e unwritten owed effort := by
  induction h with
  | refl =>
    have hqueue : files.queue w = [] := by simp [File.Store.queue, hfiles]
    have hidle : files.isServing w = false := by simp [File.Store.isServing, hfiles]
    refine ⟨[], [], 0, .idle hidle fun t agenda hagenda => ?_, by simpa [batches, queued],
      List.forall_mem_nil _, rfl, rfl, bot_le, ?_⟩
    · have hmem := List.mem_of_getElem? hagenda
      rw [start, List.mem_singleton] at hmem
      rw [hmem]
      rfl
    · have hnone : (start setup files config).files.queue w = [] := hqueue
      rw [hnone]
      exact Nat.le_refl _
  | step _ hs ih =>
    obtain ⟨unwritten, owed, effort, hserves⟩ := ih
    exact hserves.step hs
  | alter _ _ _ ih =>
    obtain ⟨unwritten, owed, effort, hserves⟩ := ih
    exact ⟨unwritten, owed, effort, hserves.alter⟩

/-- A writer that is not at work has answered for all that it took. -/
theorem Phase.of_idle (h : Phase w e unwritten owed effort) (hidle : e.files.isServing w = false) :
    unwritten = [] ∧ owed = [] := by
  cases h with
  | idle => exact ⟨rfl, rfl⟩
  | writing hserving | answering hserving =>
    rw [hserving] at hidle
    cases hidle

/-- A writer that has something to do can go on with it. -/
theorem Serves.exists_work (h : Serves w es e unwritten owed effort)
    (hwork : e.files.isServing w = true ∨ e.files.queue w ≠ []) :
    ∃ op e' fx, e.step? op = some (e', fx) ∧ Event.isOf w ⟨e, op, e', fx⟩ = true := by
  have busy : ∀ {task a rest}, e.agendas[task]? = some (a :: rest) → isBusy w (a :: rest) = true →
      (∃ m, (e.setAgenda task rest).perform? task a = some m) →
      ∃ op e' fx, e.step? op = some (e', fx) ∧ Event.isOf w ⟨e, op, e', fx⟩ = true := by
    intro task a rest hagenda hbusy ha
    obtain ⟨e', fx, hs⟩ := exists_advance hagenda ha
    exact ⟨_, e', fx, hs, isOf_of_busy rfl hagenda hbusy⟩
  cases h.phase with
  | idle hidle =>
    rw [hidle] at hwork
    have hpos : 1 ≤ (e.files.queue w).length := List.length_pos_of_ne_nil (hwork.resolve_left nofun)
    obtain ⟨files, htake⟩ := File.Store.exists_take? hidle Nat.one_pos (by decide) hpos
    have hs : e.step? (.begin (.serve w 1)) = some (({ e with files } : Engine).addTask
        [.write w ((e.files.queue w).take 1), .rest w, .finish .done], []) := by
      simp only [step?, begin?, htake, Option.map_some]
    exact ⟨_, _, _, hs, by simp [Event.isOf]⟩
  | @writing _ batch _ hagenda => exact busy hagenda (isBusy_writing w batch) ⟨_, rfl⟩
  | @answering _ left _ hagenda hleft =>
    cases left with
    | nil => exact busy hagenda (isBusy_answering w []) ⟨_, rfl⟩
    | cons b left =>
      refine busy hagenda (isBusy_answering w (b :: left)) ?_
      rw [List.all_cons, Bool.and_eq_true] at hleft
      cases b <;> first | exact ⟨_, rfl⟩ | cases hleft.1

end steps

end Engine

end LogDispatch
