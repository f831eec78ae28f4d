import LogDispatch.Proofs.Serving

/-! Who answers for a line. From the time that a sender is taken for a line, its acknowledgement is the writer's: nobody
    else has it in a queue, in a batch or on an agenda (`Exposed.once`), so it is answered by the writer, and once. -/

namespace LogDispatch

/-- The answer that an event is, if it is the first of its acknowledgement. -/
def Event.answered? (ev : Event) : Option (AckId × Answer) :=
  match ev.action? with
  | some (.answer ack reply) => if ev.before.acks[ack]?.any fun x => !x.answered then some (ack, reply) else none
  | _ => none

/-- The answers that were given, the first ones of their acknowledgements, whoever gave them. -/
def answers (es : List Event) : List (AckId × Answer) := es.filterMap Event.answered?

@[simp] theorem answers_concat {es : List Event} (ev : Event) :
    answers (es ++ [ev]) = answers es ++ ev.answered?.toList := by
  cases h : ev.answered? <;> simp [answers, h]

/-- The host answers an acknowledgement itself. -/
def Event.isHostAnswer (i : AckId) (ev : Event) : Bool :=
  match ev.op with
  | .begin (.answer ack _) => ack == i
  | _ => false

/-- An action that has to do with an acknowledgement is done for one of these writers, who is to rest after it. -/
def Action.Minds (P : WriterId → Prop) (i : AckId) (a : Action) (rest : List Action) : Prop :=
  match a with
  | .send w job => job.ack = i → P w
  | .answer ack _ => ack = i → ∃ w, P w ∧ .rest w ∈ rest
  | .write w batch => .rest w ∈ rest ∧ ∀ job ∈ batch, job.ack = i → P w
  | _ => True

/-- All that is on the agenda for an acknowledgement is done for one of these writers. -/
def Reserved (P : WriterId → Prop) (i : AckId) : List Action → Prop
  | [] => True
  | a :: rest => a.Minds P i rest ∧ Reserved P i rest

namespace Engine

/-- Only these writers have to do with an acknowledgement. -/
structure ReservedFor (P : WriterId → Prop) (i : AckId) (e : Engine) : Prop where
  queue : ∀ w, ∀ job ∈ e.files.queue w, job.ack = i → P w
  agendas : ∀ agenda ∈ e.agendas, Reserved P i agenda

section reserved
variable {e e' : Engine} {task : TaskId} {a : Action} {m : Move} {rest next agenda : List Action} {op : Op}
  {fx : List Effect} {es : List Event} {w : WriterId} {i : AckId} {P : WriterId → Prop}

theorem Reserved.append (hnext : ∀ b ∈ next, ∀ xs, b.Minds P i (xs ++ rest)) (h : Reserved P i rest) :
    Reserved P i (next ++ rest) := by
  induction next with
  | nil => exact h
  | cons b next ih =>
    exact ⟨hnext b List.mem_cons_self next, ih fun c hc => hnext c (List.mem_cons_of_mem b hc)⟩

/-- An answer comes from an attempt, for a new acknowledgement, or from a batch that is written. -/
theorem Next.mem_answer {reply : Answer} (hn : Next e a next) (hmem : .answer i reply ∈ next) :
    (∃ g k d, a = .attempt g k d ∧ i = e.acks.length) ∨ ∃ w batch, a = .write w batch := by
  have hany : next.any (fun b => b.answer?.isSome) = true := List.any_eq_true.mpr ⟨_, hmem, rfl⟩
  cases hn with
  | dropped | answered =>
    simp only [List.mem_cons, Action.answer.injEq, reduceCtorEq, List.not_mem_nil, or_false] at hmem
    exact .inl ⟨_, _, _, rfl, hmem.1⟩
  | write => exact .inr ⟨_, _, rfl⟩
  | screen hadm => rcases admission_cases hadm with ⟨_, _, _, rfl⟩ | ⟨_, rfl⟩ <;> cases hany
  | fan | recalcAll => simp [Action.answer?] at hany
  | @answer ack answer x => cases hresult : answer.result x.route <;> simp [answerSteps, hresult, Action.answer?] at hany
  | letGo | close => simp [frees, Action.answer?] at hany
  | refused => cases hany
  | @faulty _ isReload _ => cases isReload <;> cases hany
  | abandon | notCreated =>
    rename_i isReload _ _
    rw [Engine.abandon, List.any_append] at hany
    cases isReload <;> simp [Engine.building, Action.answer?] at hany
  | @publish d isReload => cases isReload <;> cases hany
  | _ => cases hany

theorem Does.mem_answer {reply : Answer} (h : Does e task a m) (hmem : .answer i reply ∈ m.next) :
    (i = e.acks.length ∧ m.engine.acks.length = e.acks.length + 1) ∨
      ∃ w batch, a = .write w batch ∧ ∃ job ∈ batch, job.ack = i := by
  rcases h.next.mem_answer hmem with ⟨g, k, d, rfl, hi⟩ | ⟨w, batch, rfl⟩
  · cases hroute : g.routes[d.route]? with
    | none =>
      cases h with
      | perform hp =>
        obtain rfl := Option.some.inj hp
        simp [attempt, hroute] at hmem
    | some r => exact .inl ⟨hi, by simp [does_attempt hroute h]⟩
  · cases h with
    | perform hp =>
      obtain rfl := Option.some.inj hp
      obtain ⟨job, hjob, hanswer⟩ := List.mem_filterMap.mp hmem
      obtain ⟨x, -, heq⟩ := Option.map_eq_some_iff.mp hanswer
      exact .inr ⟨w, batch, rfl, job, hjob, (Action.answer.inj heq).1⟩

/-- Those who have to do with an acknowledgement stay the same. -/
theorem Reserved.step (h : Reserved P i (a :: rest)) (hdoes : Does e task a m)
    (hnew : i = e.acks.length → m.engine.acks.length = e.acks.length) : Reserved P i (m.next ++ rest) := by
  obtain ⟨hminds, hrest⟩ := h
  refine Reserved.append (fun b hb xs => ?_) hrest
  cases b with
  | write w batch =>
    have hbusy : isBusy w m.next = true := List.any_eq_true.mpr ⟨_, hb, by simp [Action.worksFor]⟩
    rw [hdoes.next.notBusy] at hbusy
    cases hbusy
  | send v job =>
    rintro rfl
    rcases hdoes.next.sends with ⟨w, job', htakes⟩ | hno
    · generalize hnext : m.next = next at htakes
      cases htakes with
      | attempt hr _ _ _ hack =>
        rw [hnext] at hb
        obtain ⟨rfl, rfl⟩ := Action.send.inj (List.mem_singleton.mp hb)
        have hmore := congrArg List.length (does_attempt hr hdoes)
        rw [List.length_append] at hmore
        exact absurd (hmore.symm.trans (hnew hack)) (Nat.succ_ne_self _)
    · exact absurd rfl (List.any_eq_false.mp hno _ hb)
  | answer j reply =>
    rintro rfl
    rcases hdoes.mem_answer hb with ⟨hlast, hmore⟩ | ⟨w, batch, rfl, job, hjob, hack⟩
    · exact absurd (hmore.symm.trans (hnew hlast)) (Nat.succ_ne_self _)
    · exact ⟨w, hminds.2 job hjob hack, List.mem_append_right xs hminds.1⟩
  | _ => trivial

/-- A task that begins leaves an acknowledgement to those who have to do with it, unless the host answers it itself. -/
theorem Reserved.opening {request : Request} (hs : e.step? (.begin request) = some (e', fx))
    (hb : e.begin? request = some e') (hagendas : e'.agendas = e.agendas ++ [agenda])
    (hhost : ∀ reply, request ≠ .answer i reply) (hqueue : ∀ w, ∀ job ∈ e.files.queue w, job.ack = i → P w) :
    Reserved P i agenda := by
  cases begins_of_begin hb hagendas with
  | serve w n batch =>
    obtain ⟨-, -, -, -, -, -, hnew⟩ := serve_step hs
    rw [hagendas] at hnew
    obtain ⟨hbatch, -⟩ := List.cons.inj (List.singleton_inj.mp (List.append_cancel_left hnew))
    obtain ⟨-, rfl⟩ := Action.write.inj hbatch
    have hwrite : Action.Minds P i (.write w ((e.files.queue w).take n)) [.rest w, .finish .done] :=
      ⟨List.mem_cons_self, fun job hjob hack => hqueue w job (List.mem_of_mem_take hjob) hack⟩
    exact ⟨hwrite, trivial, trivial, trivial⟩
  | answer j reply =>
    have hanswer : Action.Minds P i (.answer j reply) [.finish .done] := by
      rintro rfl
      exact absurd rfl (hhost reply)
    exact ⟨hanswer, trivial, trivial⟩
  | _ => simp [Reserved, Action.Minds]

/-- Nobody else comes to have to do with an acknowledgement. -/
theorem ReservedFor.step (h : ReservedFor P i e) (hs : e.step? op = some (e', fx))
    (hhost : Event.isHostAnswer i ⟨e, op, e', fx⟩ = false) (hnew : i = e.acks.length → e'.acks.length = e.acks.length) :
    ReservedFor P i e' := by
  constructor
  · intro w job hjob hack
    cases station hs w with
    | @takes n hserve =>
      dsimp only at hserve
      subst hserve
      obtain ⟨-, -, -, -, hqueue, -⟩ := serve_step hs
      rw [hqueue] at hjob
      exact h.queue w job (List.mem_of_mem_drop hjob) hack
    | rests _ hqueue | still hqueue => exact h.queue w job (hqueue ▸ hjob) hack
    | sends ha hqueue =>
      dsimp only at hqueue
      rw [hqueue] at hjob
      rcases List.mem_append.mp hjob with hjob | hjob
      · exact h.queue w job hjob hack
      · obtain rfl := List.mem_singleton.mp hjob
        obtain ⟨rest, -, hagenda⟩ := Event.exists_agenda ha
        exact (h.agendas _ hagenda).1 hack
  · intro agenda hagenda
    rcases step_cases hs with ⟨request, rfl, hb, -⟩ | ⟨task, a, rest, m, -, ha, hdoes, rfl, -⟩
    · obtain ⟨opening, -, hagendas, -⟩ := begin_cases hb
      rw [hagendas] at hagenda
      rcases List.mem_append.mp hagenda with hagenda | hagenda
      · exact h.agendas agenda hagenda
      · rw [List.mem_singleton.mp hagenda]
        refine Reserved.opening hs hb hagendas (fun reply heq => ?_) h.queue
        rw [heq] at hhost
        simp [Event.isHostAnswer] at hhost
    · have hset : agenda ∈ e.agendas.set task (m.next ++ rest) := by simpa [hdoes.agendas] using hagenda
      rcases List.mem_or_eq_of_mem_set hset with hold | rfl
      · exact h.agendas agenda hold
      · exact Reserved.step (h.agendas _ (List.mem_of_getElem? ha)) hdoes hnew

theorem ReservedFor.alter {disk : File.Disk} {sinks : WriterId → File.Sink} (h : ReservedFor P i e) :
    ReservedFor P i (e.altered disk sinks) := by
  have hstill : e.files.Still (e.altered disk sinks).files := File.Store.still_altered
  refine ⟨fun w job hjob hack => ?_, h.agendas⟩
  rw [hstill.queue] at hjob
  exact h.queue w job hjob hack

theorem Reserved.mono {Q : WriterId → Prop} (hsub : ∀ w, P w → Q w) (h : Reserved P i agenda) : Reserved Q i agenda := by
  induction agenda with
  | nil => trivial
  | cons a rest ih =>
    refine ⟨?_, ih h.2⟩
    have hminds := h.1
    cases a with
    | send w job => exact fun hack => hsub w (hminds hack)
    | write w batch => exact ⟨hminds.1, fun job hjob hack => hsub w (hminds.2 job hjob hack)⟩
    | answer j reply =>
      intro hj
      obtain ⟨w, hw, hrest⟩ := hminds hj
      exact ⟨w, hsub w hw, hrest⟩
    | _ => trivial

/-- The acknowledgement of a line for which a sender is taken becomes one of the writer's. -/
theorem ReservedFor.takes {job : File.Job} (h : ReservedFor (fun _ => False) i e) (hs : e.step? op = some (e', fx))
    (htaking : Taking w ⟨e, op, e', fx⟩ job) : ReservedFor (· = w) i e' := by
  cases htaking with
  | attempt ha hr hdevice hsender htext =>
    rcases step_cases hs with ⟨request, rfl, -, -⟩ | ⟨task, a, rest, m, htask, hagenda, hdoes, rfl, -⟩
    · cases ha
    · obtain rfl := Option.some.inj ((action?_of_task htask hagenda).symm.trans ha)
      obtain ⟨hnext, hfiles⟩ := does_attempt_file (e := e.setAgenda task rest) hr hdevice hsender htext hdoes
      constructor
      · intro v job' hjob' hack'
        have hqueue : m.engine.files.queue v = e.files.queue v := by rw [hfiles]; rfl
        exact (h.queue v job' (hqueue ▸ hjob') hack').elim
      · intro agenda hmem
        rw [agendas_setAgenda, hdoes.agendas, agendas_setAgenda, List.set_set, hnext] at hmem
        rcases List.mem_or_eq_of_mem_set hmem with hold | rfl
        · exact Reserved.mono (fun _ => False.elim) (h.agendas agenda hold)
        · exact ⟨fun _ => rfl, Reserved.mono (fun _ => False.elim) (h.agendas _ (List.mem_of_getElem? hagenda)).2⟩

/-- The host answers only acknowledgements that there are. -/
theorem lt_of_isHostAnswer (hs : e.step? op = some (e', fx)) (h : Event.isHostAnswer i ⟨e, op, e', fx⟩ = true) :
    i < e.acks.length := by
  unfold Event.isHostAnswer at h
  split at h
  · rename_i ack reply hop
    dsimp only at hop
    subst hop
    obtain rfl := beq_iff_eq.mp h
    simp only [step?, begin?] at hs
    cases hack : e.acks[ack]? with
    | none => simp [hack] at hs
    | some => exact (List.getElem?_eq_some_iff.mp hack).1
  · cases h

/-- Nobody has to do with an acknowledgement that there is not yet. -/
theorem Exposed.fresh {setup : Setup} {files : File.Store} {config : Config} (hfiles : files.writers = [])
    (h : Exposed (start setup files config) es e) (hi : e.acks.length ≤ i) : ReservedFor (fun _ => False) i e := by
  induction h with
  | refl =>
    constructor
    · intro w job hjob
      have hqueue : files.queue w = [] := by simp [File.Store.queue, hfiles]
      exact absurd (hqueue ▸ hjob) List.not_mem_nil
    · intro agenda hmem
      rw [List.mem_singleton.mp hmem]
      exact ⟨trivial, trivial⟩
  | @step es e₁ e₂ op fx hr hs ih =>
    have hle := (acks_step hs).1
    have hold : e₁.acks.length ≤ i := Nat.le_trans hle hi
    refine (ih hold).step hs ?_ fun heq => Nat.le_antisymm (heq ▸ hi) hle
    rw [Bool.eq_false_iff]
    intro hhost
    exact Nat.not_lt_of_ge hold (lt_of_isHostAnswer hs hhost)
  | alter _ _ _ ih => exact (ih hi).alter

/-! ### Lines are answered for once -/

/-- The acknowledgement is one of a line of the writer, which answers it and nobody else does. -/
structure Once (w : WriterId) (i : AckId) (es : List Event) (e : Engine) : Prop where
  reserved : ReservedFor (· = w) i e
  answered : ∃ x, e.acks[i]? = some x ∧ (x.answered = true ↔ i ∈ (served w es).map Prod.fst)
  same : (answers es).filter (·.1 == i) = (served w es).filter (·.1 == i)

variable {unwritten : List (List File.Job)} {owed : List (AckId × Answer)} {effort : Nat}

theorem Serves.served_eq (h : Serves w es e unwritten owed effort) :
    (served w es).map Prod.fst ++ owed.map Prod.fst ++ unwritten.flatten.map File.Job.ack ++
      (e.files.queue w).map File.Job.ack = (queued w es).map File.Job.ack := by
  have hdue : ∀ xs : List Written,
      (xs.flatMap e.answersDue).map Prod.fst = (xs.map Written.batch).flatten.map File.Job.ack := by
    intro xs
    induction xs with
    | nil => rfl
    | cons x xs ih =>
      rw [List.flatMap_cons, List.map_append, ih, List.map_cons, List.flatten_cons, List.map_append]
      simp [answersDue, Function.comp_def]
  rw [← List.map_append, ← h.replied, hdue, ← List.map_append, ← List.flatten_append, ← h.written, ← List.map_append,
    h.taken]

/-- No line is answered for twice. -/
theorem Serves.nodup (h : Serves w es e unwritten owed effort) : ((served w es).map Prod.fst).Nodup := by
  have hqueued := h.tracked.nodup
  rw [← h.served_eq, List.append_assoc, List.append_assoc] at hqueued
  exact (List.nodup_append.mp hqueued).1

theorem Serves.lt_of_served (h : Serves w es e unwritten owed effort) (hi : i ∈ (served w es).map Prod.fst) :
    i < e.acks.length := by
  have hqueued : i ∈ (queued w es).map File.Job.ack := by
    rw [← h.served_eq]
    simp only [List.mem_append]
    exact .inl (.inl (.inl hi))
  obtain ⟨job, hjob, rfl⟩ := List.mem_map.mp hqueued
  exact h.tracked.lt_length job hjob

theorem answered?_eq_some {ev : Event} {reply : Answer} : ev.answered? = some (i, reply) ↔
    ev.action? = some (.answer i reply) ∧ ∃ x, ev.before.acks[i]? = some x ∧ x.answered = false := by
  unfold Event.answered?
  split
  · rename_i ack reply' ha
    rw [ha]
    constructor
    · intro h
      obtain ⟨hany, heq⟩ := Option.ite_none_right_eq_some.mp h
      obtain ⟨rfl, rfl⟩ := Prod.mk.inj (Option.some.inj heq)
      refine ⟨rfl, ?_⟩
      cases hack : ev.before.acks[ack]? with
      | none => simp [hack] at hany
      | some x => exact ⟨x, rfl, by simpa [hack] using hany⟩
    · rintro ⟨heq, x, hx, hopen⟩
      obtain ⟨rfl, rfl⟩ := Action.answer.inj (Option.some.inj heq)
      simp [hx, hopen]
  · rename_i hno
    exact ⟨nofun, fun h => absurd h.1 (hno i reply)⟩

theorem served?_eq_some {ev : Event} {reply : Answer} : ev.served? w = some (i, reply) ↔
    ev.action? = some (.answer i reply) ∧ isBusy w ev.agenda = true := by
  unfold Event.served?
  constructor
  · intro h
    obtain ⟨hbusy, h⟩ := Option.ite_none_right_eq_some.mp h
    obtain ⟨a, ha, hanswer⟩ := Option.bind_eq_some_iff.mp h
    cases a with
    | answer j reply' =>
      obtain ⟨rfl, rfl⟩ := Prod.mk.inj (Option.some.inj hanswer)
      exact ⟨ha, hbusy⟩
    | _ => cases hanswer
  · rintro ⟨ha, hbusy⟩
    rw [if_pos hbusy, ha]
    rfl

/-- The writer answers for its line, and it has not done so before. -/
theorem Once.answered?_iff (h : Once w i es e)
    (hserves : Serves w (es ++ [⟨e, op, e', fx⟩]) e' unwritten owed effort) (reply : Answer) :
    Event.answered? ⟨e, op, e', fx⟩ = some (i, reply) ↔ Event.served? w ⟨e, op, e', fx⟩ = some (i, reply) := by
  rw [answered?_eq_some, served?_eq_some]
  obtain ⟨x, hx, hiff⟩ := h.answered
  constructor
  · rintro ⟨ha, -⟩
    refine ⟨ha, ?_⟩
    obtain ⟨rest, hagenda, hmem⟩ := Event.exists_agenda ha
    obtain ⟨v, rfl, hrest⟩ := (h.reserved.agendas _ hmem).1 rfl
    rw [hagenda]
    exact List.any_eq_true.mpr ⟨_, List.mem_cons_of_mem _ hrest, by simp [Action.worksFor]⟩
  · rintro ⟨ha, hbusy⟩
    have hserved : Event.served? w ⟨e, op, e', fx⟩ = some (i, reply) := served?_eq_some.mpr ⟨ha, hbusy⟩
    have hnodup := hserves.nodup
    rw [served_concat, hserved, List.map_append, List.nodup_append] at hnodup
    refine ⟨ha, x, hx, ?_⟩
    rw [Bool.eq_false_iff]
    intro hanswered
    exact hnodup.2.2 _ (hiff.mp hanswered) _ (by simp) rfl

/-- An acknowledgement is answered by its first answer. -/
theorem answered_step (hs : e.step? op = some (e', fx)) {x : Ack} (hx : e.acks[i]? = some x) :
    ∃ x', e'.acks[i]? = some x' ∧
      (x'.answered = true ↔ x.answered = true ∨ ∃ reply, Event.answered? ⟨e, op, e', fx⟩ = some (i, reply)) := by
  have hlt := (List.getElem?_eq_some_iff.mp hx).1
  rcases step_cases hs with ⟨request, rfl, hb, -⟩ | ⟨task, a, rest, m, htask, hagenda, hdoes, rfl, -⟩
  · obtain ⟨-, -, -, hcalm⟩ := begin_cases hb
    refine ⟨x, by rw [hcalm.acks, hx], ?_⟩
    simp [Event.answered?, Event.action?, Op.task?]
  · have haction : Event.action? ⟨e, op, m.engine.setAgenda task (m.next ++ rest), fx⟩ = some a :=
      action?_of_task htask hagenda
    have hanswered : ∀ reply, Event.answered? ⟨e, op, m.engine.setAgenda task (m.next ++ rest), fx⟩ = some (i, reply) ↔
        a = .answer i reply ∧ x.answered = false := by
      intro reply
      rw [answered?_eq_some, haction, Option.some.injEq]
      simp [hx]
    simp only [hanswered]
    show ∃ x', m.engine.acks[i]? = some x' ∧ _
    by_cases hfirst : ∃ reply, a = .answer i reply ∧ x.answered = false
    · obtain ⟨reply, rfl, hopen⟩ := hfirst
      obtain ⟨hacks, -⟩ := does_answer (e := e.setAgenda task rest) hx hopen hdoes
      refine ⟨{ x with answered := true }, ?_, ?_⟩
      · rw [hacks]
        exact List.getElem?_set_self hlt
      · exact ⟨fun _ => .inr ⟨reply, rfl, hopen⟩, fun _ => rfl⟩
    · refine ⟨x, ?_, by simp only [hfirst, or_false]⟩
      rcases hdoes.acks with heq | ⟨_, _, _, _, -, -, heq⟩ | ⟨j, reply, y, rfl, hy, hopen, heq⟩ <;> rw [heq]
      · exact hx
      · exact (List.getElem?_append_left hlt).trans hx
      · have hne : j ≠ i := by
          rintro rfl
          obtain rfl := Option.some.inj (hy.symm.trans hx)
          exact hfirst ⟨reply, rfl, hopen⟩
        exact (List.getElem?_set_ne hne).trans hx

theorem filter_toList_congr {o o' : Option (AckId × Answer)} (h : ∀ reply, o = some (i, reply) ↔ o' = some (i, reply)) :
    o.toList.filter (·.1 == i) = o'.toList.filter (·.1 == i) := by
  have none : ∀ {o : Option (AckId × Answer)}, (∀ reply, o ≠ some (i, reply)) → o.toList.filter (·.1 == i) = [] := by
    intro o hno
    rw [List.filter_eq_nil_iff]
    rintro ⟨j, reply⟩ hmem hj
    obtain rfl := beq_iff_eq.mp hj
    exact hno reply (Option.mem_toList.mp hmem)
  by_cases hsome : ∃ reply, o = some (i, reply)
  · obtain ⟨reply, ho⟩ := hsome
    rw [ho, (h reply).mp ho]
  · have hno : ∀ reply, o ≠ some (i, reply) := fun reply ho => hsome ⟨reply, ho⟩
    rw [none hno, none fun reply ho => hno reply ((h reply).mpr ho)]

theorem Once.step (h : Once w i es e) (hs : e.step? op = some (e', fx))
    (hserves : Serves w (es ++ [⟨e, op, e', fx⟩]) e' unwritten owed effort)
    (hhost : Event.isHostAnswer i ⟨e, op, e', fx⟩ = false) : Once w i (es ++ [⟨e, op, e', fx⟩]) e' := by
  obtain ⟨x, hx, hiff⟩ := h.answered
  have hlt := (List.getElem?_eq_some_iff.mp hx).1
  have hsame := h.answered?_iff hserves
  refine ⟨h.reserved.step hs hhost fun heq => absurd heq (Nat.ne_of_lt hlt), ?_, ?_⟩
  · obtain ⟨x', hx', hanswered⟩ := answered_step hs hx
    refine ⟨x', hx', ?_⟩
    rw [hanswered, hiff, served_concat, List.map_append, List.mem_append]
    simp only [hsame]
    refine or_congr_right ⟨fun ⟨reply, hserved⟩ => by simp [hserved], fun hmem => ?_⟩
    obtain ⟨⟨j, reply⟩, hserved, rfl⟩ := List.mem_map.mp hmem
    exact ⟨reply, Option.mem_toList.mp hserved⟩
  · rw [answers_concat, served_concat, List.filter_append, List.filter_append, h.same]
    exact congrArg _ (filter_toList_congr hsame)

/-- Only acknowledgements that there are have been answered. -/
theorem Exposed.lt_of_answers {setup : Setup} {files : File.Store} {config : Config}
    (h : Exposed (start setup files config) es e) {x : AckId × Answer} (hx : x ∈ answers es) : x.1 < e.acks.length := by
  induction h with
  | refl => cases hx
  | step _ hs ih =>
    rw [answers_concat] at hx
    have hle := (acks_step hs).1
    rcases List.mem_append.mp hx with hx | hx
    · exact Nat.lt_of_lt_of_le (ih hx) hle
    · obtain ⟨-, y, hy, -⟩ := answered?_eq_some.mp (Option.mem_toList.mp hx)
      exact Nat.lt_of_lt_of_le (List.getElem?_eq_some_iff.mp hy).1 hle
  | alter _ _ _ ih => exact ih hx

/-- A line for which a sender is taken gets an acknowledgement that has not been answered. -/
theorem Once.takes {setup : Setup} {files : File.Store} {config : Config} (hfiles : files.writers = [])
    (hr : Exposed (start setup files config) es e) (hs : e.step? op = some (e', fx)) {job : File.Job}
    (hserves : Serves w es e unwritten owed effort) (htaking : Taking w ⟨e, op, e', fx⟩ job) :
    Once w job.ack (es ++ [⟨e, op, e', fx⟩]) e' := by
  have hreserved : e.acks.length ≤ job.ack → ReservedFor (· = w) job.ack e' :=
    fun hle => (hr.fresh hfiles hle).takes hs htaking
  cases htaking with
  | @attempt g fanOut d r outlet ha _ _ _ _ hack hacks =>
    dsimp only at hack hacks
    have hanswered : Event.answered? ⟨e, op, e', fx⟩ = none := by rw [Event.answered?, ha]
    have hserved : Event.served? w ⟨e, op, e', fx⟩ = none := by
      unfold Event.served?
      rw [ha]
      exact ite_self _
    have hunserved : job.ack ∉ (served w es).map Prod.fst := by
      intro hmem
      exact Nat.ne_of_lt (hserves.lt_of_served hmem) hack
    have hunanswered : ∀ x ∈ answers es, x.1 ≠ job.ack := by
      intro x hx heq
      exact Nat.ne_of_lt (hr.lt_of_answers hx) (heq.trans hack)
    refine ⟨hreserved (Nat.le_of_eq hack.symm), ⟨⟨r.name, fanOut, false⟩, ?_, ?_⟩, ?_⟩
    · rw [hacks, hack]
      exact List.getElem?_concat_length
    · rw [served_concat, hserved, Option.toList_none, List.append_nil]
      exact ⟨nofun, fun hmem => absurd hmem hunserved⟩
    · rw [answers_concat, hanswered, served_concat, hserved, Option.toList_none, List.append_nil, List.append_nil]
      rw [List.filter_eq_nil_iff.mpr, List.filter_eq_nil_iff.mpr]
      · intro x hx hi
        exact hunserved (beq_iff_eq.mp hi ▸ List.mem_map_of_mem hx)
      · intro x hx hi
        exact hunanswered x hx (beq_iff_eq.mp hi)

/-- A line for a writer, queued or in flight, is answered for by it alone, unless the host answers in its place. -/
theorem Exposed.once {setup : Setup} {files : File.Store} {config : Config} (hfiles : files.writers = [])
    (h : Exposed (start setup files config) es e) {job : File.Job} (hjob : job ∈ lines w es e)
    (hhost : ∀ ev ∈ es, ev.isHostAnswer job.ack = false) : Once w job.ack es e := by
  induction h with
  | refl => cases hjob
  | @step es e₁ e₂ op fx hr hs ih =>
    obtain ⟨unwritten, owed, effort, hserves⟩ := hr.serves hfiles w
    rcases mem_lines_step hs hjob with hjob | htaking
    · obtain ⟨_, _, _, hserves'⟩ := (hr.step hs).serves hfiles w
      have honce := ih hjob fun ev hev => hhost ev (List.mem_append_left _ hev)
      exact honce.step hs hserves' (hhost _ (List.mem_append_right _ List.mem_cons_self))
    · exact .takes hfiles hr hs hserves htaking
  | alter _ _ _ ih =>
    have honce := ih hjob hhost
    exact ⟨honce.reserved.alter, honce.answered, honce.same⟩

end reserved

end Engine

end LogDispatch
