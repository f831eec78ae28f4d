import LogDispatch.Proofs.Custody

/-! Who holds a generation. A generation that nobody holds has been released, and as long as the engine is open one
    that is held has not (`Holding`). -/

namespace LogDispatch.Engine

/-- Somebody holds the generation: it is the live one, or a task still has to let it go. -/
def Holds (e : Engine) (g : Generation) : Prop :=
  e.live = some g ∨ ∃ agenda ∈ e.agendas, .letGo g ∈ agenda

section holds
variable {e e' : Engine} {task : TaskId} {a : Action} {m : Move} {known : List Generation} {rest agenda : List Action}
  {g : Generation} {op : Op} {fx : List Effect} {es : List Event}

theorem isHeld_iff {id : GenerationId} : e.isHeld id = true ↔ ∃ g, e.Holds g ∧ g.id = id := by
  simp only [isHeld, Bool.or_eq_true, Option.any_eq_true, List.any_eq_true, beq_iff_eq]
  constructor
  · rintro (⟨g, hlive, hid⟩ | ⟨agenda, hmem, a, ha, hholds⟩)
    · exact ⟨g, .inl hlive, hid⟩
    · cases a with
      | letGo g => exact ⟨g, .inr ⟨agenda, hmem, ha⟩, by simpa [Action.holds] using hholds⟩
      | _ => cases hholds
  · rintro ⟨g, hlive | ⟨agenda, hmem, ha⟩, hid⟩
    · exact .inl ⟨g, hlive, hid⟩
    · exact .inr ⟨agenda, hmem, _, ha, by simpa [Action.holds] using hid⟩

/-- What is held by the rest of an agenda is held. -/
theorem Holds.of_setAgenda (hagenda : e.agendas[task]? = some (a :: rest)) (h : (e.setAgenda task rest).Holds g) :
    e.Holds g := by
  rcases h with hlive | ⟨agenda, hmem, ha⟩
  · exact .inl hlive
  · rcases List.mem_or_eq_of_mem_set hmem with hmem | rfl
    · exact .inr ⟨agenda, hmem, ha⟩
    · exact .inr ⟨_, List.mem_of_getElem? hagenda, List.mem_cons_of_mem _ ha⟩

/-- What is held is held by the action, or is still held without it. -/
theorem Holds.setAgenda (hagenda : e.agendas[task]? = some (a :: rest)) (h : e.Holds g) :
    a = .letGo g ∨ (e.setAgenda task rest).Holds g := by
  rcases h with hlive | ⟨agenda, hmem, ha⟩
  · exact .inr (.inl hlive)
  · obtain ⟨j, hj⟩ := List.mem_iff_getElem?.mp hmem
    by_cases htask : task = j
    · subst htask
      obtain rfl := Option.some.inj (hj.symm.trans hagenda)
      rcases List.mem_cons.mp ha with heq | ha
      · exact .inl heq.symm
      · refine .inr (.inr ⟨rest, List.mem_of_getElem? (i := task) ?_, ha⟩)
        rw [agendas_setAgenda, List.getElem?_set_self (List.getElem?_eq_some_iff.mp hagenda).1]
    · refine .inr (.inr ⟨agenda, List.mem_of_getElem? (i := j) ?_, ha⟩)
      rw [agendas_setAgenda, List.getElem?_set_ne htask, hj]

/-- A generation that stops being the live one has to be let go. -/
theorem Does.live_or_letGo (h : Does e task a m) (hlive : e.live = some g) :
    m.engine.live = some g ∨ .letGo g ∈ m.next := by
  have hf := h.frame
  cases a
  case install g' =>
    cases h with
    | perform h =>
      obtain rfl := Option.some.inj h
      refine .inr ?_
      simp [Engine.install, hlive]
  case leave =>
    cases h with
    | perform h =>
      obtain rfl := Option.some.inj h
      dsimp only [Engine.leave]
      split
      · refine .inr ?_
        simp [hlive]
      · exact .inl hlive
  all_goals
    dsimp only [Action.Changes] at hf
    exact .inl ((congrArg Engine.live hf :).trans hlive)

theorem mem_agendas_does (hagenda : e.agendas[task]? = some (a :: rest)) (hdoes : Does (e.setAgenda task rest) task a m) :
    m.next ++ rest ∈ (m.engine.setAgenda task (m.next ++ rest)).agendas := by
  rw [agendas_setAgenda, hdoes.agendas, agendas_setAgenda]
  refine List.mem_of_getElem? (i := task) (List.getElem?_set_self ?_)
  rw [List.length_set]
  exact (List.getElem?_eq_some_iff.mp hagenda).1

/-- Who holds a generation goes on to hold it as long as it does not let it go. -/
theorem Holds.does (hagenda : e.agendas[task]? = some (a :: rest)) (hdoes : Does (e.setAgenda task rest) task a m)
    (h : (e.setAgenda task rest).Holds g) : (m.engine.setAgenda task (m.next ++ rest)).Holds g := by
  have hnext := mem_agendas_does hagenda hdoes
  rcases h with hlive | ⟨agenda, hmem, ha⟩
  · rcases hdoes.live_or_letGo hlive with hlive | hgo
    · exact .inl hlive
    · exact .inr ⟨_, hnext, List.mem_append_left _ hgo⟩
  · rcases mem_set_cases hmem with rfl | ⟨j, hne, hj⟩
    · exact .inr ⟨_, hnext, List.mem_append_right _ ha⟩
    · refine .inr ⟨agenda, List.mem_of_getElem? (i := j) ?_, ha⟩
      rw [agendas_setAgenda, hdoes.agendas, agendas_setAgenda, List.set_set, List.getElem?_set_ne (Ne.symm hne), hj]

/-- A task comes to hold the live generation only, or the one it has just drafted. -/
theorem Next.letGo_cases {next : List Action} (hn : Next e a next) (hg : .letGo g ∈ next) :
    e.live = some g ∨ ∃ d isReload, a = .make d isReload ∧ d.generation = g := by
  have hno : ∀ (isReload : Bool) (outcome : Outcome), Action.letGo g ∉ building isReload outcome := by
    intro isReload outcome
    cases isReload <;> simp [building]
  cases hn with
  | nothing => exact absurd hg List.not_mem_nil
  | forbidden hlive =>
    simp only [leaving, List.mem_cons, Action.letGo.injEq, reduceCtorEq, List.not_mem_nil, or_false] at hg
    rw [hg]
    exact .inl hlive
  | load hlive =>
    simp only [leaving, List.mem_cons, Action.letGo.injEq, reduceCtorEq, List.not_mem_nil, or_false, false_or] at hg
    rw [hg]
    exact .inl hlive
  | register hlive =>
    simp only [List.mem_cons, Action.letGo.injEq, reduceCtorEq, List.not_mem_nil, or_false, false_or] at hg
    rw [hg]
    exact .inl hlive
  | leave hlive | install hlive =>
    obtain rfl := Action.letGo.inj (List.mem_singleton.mp hg)
    exact .inl hlive
  | @publish d isReload =>
    refine .inr ⟨d, isReload, rfl, ?_⟩
    cases isReload
    · simp [publishing, building] at hg
    · simpa [publishing, building, eq_comm] using hg
  | screen hadm =>
    rcases admission_cases hadm with ⟨_, _, _, rfl⟩ | ⟨_, rfl⟩ <;> simp at hg
  | @answer ack answer x =>
    cases hresult : answer.result x.route <;> simp [hresult, answerSteps] at hg
  | letGo | close => exact absurd hg (letGo_not_mem_frees _)
  | refused | faulty => exact absurd hg (hno _ _)
  | abandon | notCreated =>
    rcases List.mem_append.mp hg with hg | hg
    · exact absurd hg (letGo_not_mem_frees _)
    · exact absurd hg (hno _ _)
  | _ => simp [Engine.logged] at hg

/-- Who holds a generation after an action held it before, but for the one being built. -/
theorem Holds.of_does (hagenda : e.agendas[task]? = some (a :: rest)) (hdoes : Does (e.setAgenda task rest) task a m)
    (h : (m.engine.setAgenda task (m.next ++ rest)).Holds g) : (e.setAgenda task rest).Holds g ∨
      (∃ d isReload, a = .make d isReload ∧ d.generation = g) ∨ a = .install g := by
  rcases h with hlive | ⟨agenda, hmem, hg⟩
  · rcases hdoes.live hlive with hlive | rfl
    · exact .inl (.inl hlive)
    · exact .inr (.inr rfl)
  · rw [agendas_setAgenda, hdoes.agendas, agendas_setAgenda, List.set_set] at hmem
    rcases mem_set_cases hmem with rfl | ⟨j, hne, hj⟩
    · rcases List.mem_append.mp hg with hg | hg
      · rcases hdoes.next.letGo_cases hg with hlive | hmake
        · exact .inl (.inl hlive)
        · exact .inr (.inl hmake)
      · refine .inl (.inr ⟨rest, List.mem_of_getElem? (i := task) ?_, hg⟩)
        rw [agendas_setAgenda, List.getElem?_set_self (List.getElem?_eq_some_iff.mp hagenda).1]
    · refine .inl (.inr ⟨agenda, List.mem_of_getElem? (i := j) ?_, hg⟩)
      rw [agendas_setAgenda, List.getElem?_set_ne (Ne.symm hne), hj]

/-- A generation that a task is to let go is known, or its number is above those of all known ones. -/
theorem known_of_letGo (h : Rooted e known agenda) (hg : .letGo g ∈ agenda) :
    g ∈ known ∨ ∀ x ∈ known, x.id < g.id := by
  induction agenda generalizing known with
  | nil => cases hg
  | cons a rest ih =>
    rcases List.mem_cons.mp hg with rfl | hrest
    · exact .inl h.1
    · cases a
      case install g' =>
        have hfresh : g'.Fresh e known := h.1
        rcases ih h.2 hrest with hmem | habove
        · rcases List.mem_append.mp hmem with hmem | hmem
          · exact .inl hmem
          · rw [List.mem_singleton.mp hmem]
            exact .inr hfresh.above
        · exact .inr fun x hx => habove x (List.mem_append_left _ hx)
      all_goals exact ih h.2 hrest

/-- A known generation is told by its number from all others that anybody holds. -/
theorem Holds.eq_of_id (hl : Lineage e known) {g' : Generation} (h : e.Holds g') (hg : g ∈ known) (hid : g'.id = g.id) :
    g' = g := by
  rcases h with hlive | ⟨agenda, hmem, hgo⟩
  · exact eq_of_pairwise_lt hl.ordered (hl.live g' hlive) hg hid
  · rcases known_of_letGo (hl.rooted agenda hmem) hgo with hknown | habove
    · exact eq_of_pairwise_lt hl.ordered hknown hg hid
    · exact absurd hid (Nat.ne_of_gt (habove g hg))

/-- Who holds what. A known generation that has not been released is held, and as long as the engine is open one
    that has been released is not. -/
structure Holding (e : Engine) (known : List Generation) : Prop where
  held : ∀ g ∈ known, g.id ∉ e.released → e.Holds g
  known : ∀ id ∈ e.released, ∃ g ∈ known, g.id = id
  idle : e.isClosed = false → ∀ g, e.Holds g → g.id ∉ e.released

namespace Holding

theorem start (setup : Setup) (files : File.Store) (config : Config) : Holding (start setup files config) [] where
  held _ h := absurd h List.not_mem_nil
  known _ h := absurd h List.not_mem_nil
  idle _ _ _ := List.not_mem_nil

theorem begin_step {request : Request} (h : Holding e known) (hs : e.begin? request = some e') : Holding e' known := by
  obtain ⟨opening, hopen, hagendas, hcalm⟩ := begin_cases hs
  refine ⟨fun g hg hr => ?_, fun id hid => ?_, fun hclosed g hholds => ?_⟩
  · rw [hcalm.released] at hr
    rcases h.held g hg hr with hlive | ⟨agenda, hmem, hgo⟩
    · exact .inl (hcalm.live.trans hlive)
    · refine .inr ⟨agenda, ?_, hgo⟩
      rw [hagendas]
      exact List.mem_append_left _ hmem
  · rw [hcalm.released] at hid
    exact h.known id hid
  · rw [hcalm.released]
    refine h.idle (hcalm.isClosed.symm.trans hclosed) g ?_
    rcases hholds with hlive | ⟨agenda, hmem, hgo⟩
    · exact .inl (hcalm.live.symm.trans hlive)
    · rw [hagendas] at hmem
      rcases List.mem_append.mp hmem with hmem | hmem
      · exact .inr ⟨agenda, hmem, hgo⟩
      · -- What a new task is to let go is the live generation, which it has just taken up.
        rw [List.mem_singleton.mp hmem] at hgo
        cases hopen with
        | keep g' hlive =>
          simp only [List.mem_cons, Action.letGo.injEq, reduceCtorEq, List.not_mem_nil, or_false] at hgo
          rw [hgo]
          exact .inl hlive
        | _ => simp at hgo

/-- The generation that is let go is held by somebody else, or has been released. -/
theorem held_does (h : Holding e known) (hl : Lineage e known) (hagenda : e.agendas[task]? = some (a :: rest))
    (hdoes : Does (e.setAgenda task rest) task a m) (hg : g ∈ a.adds known) (hr : g.id ∉ m.engine.released) :
    (m.engine.setAgenda task (m.next ++ rest)).Holds g := by
  have hbefore : g.id ∉ e.released := fun hid => hr (hdoes.mem_released hid)
  have keep : g ∈ known → (m.engine.setAgenda task (m.next ++ rest)).Holds g := fun hg => by
    rcases (h.held g hg hbefore).setAgenda hagenda with rfl | hheld
    · rcases does_letGo hdoes with ⟨-, hheld | hid⟩ | ⟨hrelease, -⟩
      · obtain ⟨g', hholds, hid⟩ := isHeld_iff.mp hheld
        obtain rfl := (hholds.of_setAgenda hagenda).eq_of_id hl hg hid
        exact hholds.does hagenda hdoes
      · exact absurd hid hbefore
      · rw [hrelease.released] at hr
        exact absurd List.mem_cons_self hr
    · exact hheld.does hagenda hdoes
  cases a
  case install g' =>
    rcases List.mem_append.mp hg with hg | hg
    · exact keep hg
    · rw [List.mem_singleton.mp hg]
      cases hdoes with
      | perform hp =>
        obtain rfl := Option.some.inj hp
        exact .inl rfl
  all_goals exact keep hg

theorem idle_does (h : Holding e known) (hl : Lineage e known) (hagenda : e.agendas[task]? = some (a :: rest))
    (hdoes : Does (e.setAgenda task rest) task a m) (hopen : m.engine.isClosed = false)
    (hholds : (m.engine.setAgenda task (m.next ++ rest)).Holds g) : g.id ∉ m.engine.released := by
  have hknows := (hl.rooted _ (List.mem_of_getElem? hagenda)).1
  have hwas : e.isClosed = false := hdoes.isClosed hopen
  -- A generation that is being built has a number of its own, and nothing is released in its making.
  have hfresh : g.Fresh e known → m.engine.released = e.released → g.id ∉ m.engine.released := fun hfresh heq hid => by
    rw [heq] at hid
    obtain ⟨x, hx, hxid⟩ := h.known _ hid
    exact Nat.ne_of_lt (hfresh.above x hx) hxid
  have hf := hdoes.frame
  rcases hholds.of_does hagenda hdoes with hbefore | ⟨d, isReload, rfl, rfl⟩ | rfl
  · have hnot := h.idle hwas g (hbefore.of_setAgenda hagenda)
    rcases hdoes.released with heq | ⟨g', hr, ⟨rfl, hheld⟩ | ⟨rfl, -, hclosed⟩⟩
    · rw [heq]
      exact hnot
    · rw [hr.released]
      refine fun hid => ?_
      rcases List.mem_cons.mp hid with hid | hid
      · exact absurd (isHeld_iff.mpr ⟨g, hbefore, hid⟩) (by simp [hheld])
      · exact hnot hid
    · rw [hclosed] at hopen
      cases hopen
  · exact hfresh hknows (congrArg Engine.released hf :)
  · exact hfresh hknows (congrArg Engine.released hf :)

theorem step (h : Holding e known) (hl : Lineage e known) (hs : e.step? op = some (e', fx)) :
    Holding e' (known ++ (Event.installed? ⟨e, op, e', fx⟩).toList) := by
  rcases step_cases hs with ⟨request, rfl, hb, rfl⟩ | ⟨task, a, rest, m, htask, hagenda, hdoes, rfl, rfl⟩
  · simpa [Event.installed?, Event.action?, Op.task?] using h.begin_step hb
  · rw [known_step htask hagenda]
    refine ⟨fun g hg hr => h.held_does hl hagenda hdoes hg hr, fun id hid => ?_,
      fun hopen g hholds => h.idle_does hl hagenda hdoes hopen hholds⟩
    have hmem : ∀ g ∈ known, g ∈ a.adds known := fun g hg => by
      cases a <;> first | exact hg | exact List.mem_append_left _ hg
    rw [released_setAgenda] at hid
    rcases hdoes.released with heq | ⟨g, hr, hwhich⟩
    · rw [heq] at hid
      obtain ⟨g, hg, hgid⟩ := h.known id hid
      exact ⟨g, hmem g hg, hgid⟩
    · rw [hr.released] at hid
      rcases List.mem_cons.mp hid with rfl | hid
      · rcases hwhich with ⟨rfl, -⟩ | ⟨-, hlive, -⟩
        · exact ⟨g, (hl.rooted _ (List.mem_of_getElem? hagenda)).1, rfl⟩
        · exact ⟨g, hmem g (hl.live g hlive), rfl⟩
      · obtain ⟨g, hg, hgid⟩ := h.known id hid
        exact ⟨g, hmem g hg, hgid⟩

theorem run {setup : Setup} {files : File.Store} {config : Config} (h : Run (Engine.start setup files config) es e) :
    Holding e (installs es) := by
  induction h with
  | refl => exact .start setup files config
  | step hr hs ih =>
    rw [installs_append, installs_singleton]
    exact ih.step ((Lineage.start setup files config).run (.start setup files config) hr) hs

end Holding

end holds

end LogDispatch.Engine
