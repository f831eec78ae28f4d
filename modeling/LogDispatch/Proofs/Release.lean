import LogDispatch.Proofs.Holding

/-! Transports are released once. Releases that are pending can be done to the end, whether transports panic or not;
    once nobody refers to a transport it has been released. -/

namespace LogDispatch

/-- The task that has this to do refers to the transport. Calls that use a generation still have to let it go. -/
def Action.RefersTo (t : TransportId) : Action → Prop
  | .free _ t' => t' = t
  | .make d _ | .awaitCreate d .. => d.generation.Has t
  | .install g | .letGo g => g.Has t
  | _ => False

instance (t : TransportId) : DecidablePred (Generation.Has t) := fun g =>
  inferInstanceAs (Decidable (∃ r ∈ g.routes, r.transport = t))

instance (t : TransportId) : DecidablePred (Action.RefersTo t)
  | .free _ t' => inferInstanceAs (Decidable (t' = t))
  | .make d _ | .awaitCreate d .. => inferInstanceAs (Decidable (d.generation.Has t))
  | .install g | .letGo g => inferInstanceAs (Decidable (g.Has t))
  | .load _ | .screen .. | .select .. | .refresh .. | .accept .. | .countUnrouted | .fan .. | .attempt ..
  | .awaitOut _ | .send .. | .reject .. | .answer .. | .count .. | .record .. | .arrive _ | .tell _ | .leave | .awaitFree _
  | .lockReload | .unlockReload | .checkReload _ | .build .. | .recalcAll _ | .recalc .. | .unlockChannels
  | .countReload | .close | .register .. | .enlist _ | .write .. | .rest _ | .complain _ | .finish _ =>
    .isFalse id

/-- The action releases a transport, or waits for that. -/
def Action.isFreeing : Action → Bool
  | .free .. | .awaitFree _ => true
  | _ => false

namespace Engine

/-- Somebody refers to the transport: it belongs to the live generation, or a task has to do with it. -/
def Refers (e : Engine) (t : TransportId) : Prop :=
  (∃ g ∈ e.live, g.Has t) ∨ ∃ agenda ∈ e.agendas, ∃ a ∈ agenda, a.RefersTo t

instance (e : Engine) (t : TransportId) : Decidable (e.Refers t) :=
  inferInstanceAs (Decidable (_ ∨ _))

/-! ### Pending releases are done -/

/-- The host has a task do one thing after the other. A transport panics in its release or does not, as `panics` has
    it for each place in the run. -/
def Unwinds (task : TaskId) (panics : Nat → Bool) (es : List Event) : Prop :=
  ∀ (i : Nat) (ev : Event), es[i]? = some ev → ev.op = .advance task ∨ ev.op = .returned task (panics i)

section unwinding
variable {e e' : Engine} {task : TaskId} {a : Action} {rest next agenda : List Action} {es : List Event}

theorem Unwinds.nil (panics : Nat → Bool) : Unwinds task panics [] := fun _ _ h => by cases h

theorem Unwinds.cons {panics : Nat → Bool} {ev : Event} (hev : ev.op = .advance task ∨ ev.op = .returned task (panics 0))
    (h : Unwinds task (fun i => panics (i + 1)) es) : Unwinds task panics (ev :: es) := by
  intro i x hx
  cases i with
  | zero =>
    obtain rfl := Option.some.inj hx
    exact hev
  | succ i => exact h i x hx

theorem isFreeing_building (isReload : Bool) (outcome : Outcome) :
    (building isReload outcome).any Action.isFreeing = false := by
  cases isReload <;> rfl

theorem foremost_frees (routes : List Route) (h : rest.any Action.isFreeing = false) :
    Foremost Action.isFreeing (frees routes ++ rest) :=
  Foremost.append (by simp [frees, Action.isFreeing]) (.of_none h)

/-- Releases stand before everything else on an agenda, so nothing else has to come first. -/
theorem Next.freesFirst (hn : Next e a next) (h : Foremost Action.isFreeing (a :: rest)) :
    Foremost Action.isFreeing (next ++ rest) := by
  cases ha : a.isFreeing with
  | true =>
    have hrest := (Foremost.cons_iff ha).mp h
    cases hn with
    | nothing => exact hrest
    | awaitFree => exact hrest.append rfl
    | _ => cases ha
  | false =>
    have hrest := h.none_of_cons ha
    have others : ∀ {next : List Action}, next.any Action.isFreeing = false →
        Foremost Action.isFreeing (next ++ rest) := fun hn =>
      .of_none (by rw [List.any_append, hn, hrest]; rfl)
    cases hn with
    | letGo | close => exact foremost_frees _ hrest
    | abandon | notCreated =>
      rw [Engine.abandon, List.append_assoc]
      refine foremost_frees _ ?_
      rw [List.any_append, isFreeing_building, hrest]
      rfl
    | awaitFree => cases ha
    | screen hadm =>
      rcases admission_cases hadm with ⟨_, _, _, rfl⟩ | ⟨_, rfl⟩ <;> exact others rfl
    | fan => exact others (List.any_eq_false.mpr (by simp [Action.isFreeing]))
    | @answer ack answer x => cases hresult : answer.result x.route <;> exact others rfl
    | refused | faulty => exact others (isFreeing_building ..)
    | @publish d isReload => cases isReload <;> exact others rfl
    | recalcAll => exact others (List.any_eq_false.mpr (by simp [or_imp, forall_and, Action.isFreeing]))
    | write =>
      refine others (List.any_eq_false.mpr fun b hb => ?_)
      obtain ⟨answer, -, rfl⟩ := List.mem_map.mp hb
      exact Bool.false_ne_true
    | _ => exact others rfl

theorem frees_foremost {setup : Setup} {files : File.Store} {config : Config} (h : Run (start setup files config) es e) :
    ∀ agenda ∈ e.agendas, Foremost Action.isFreeing agenda :=
  h.agendas (.of_none rfl) (fun hopen => .of_none (by cases hopen <;> rfl)) Next.freesFirst

/-- A release can be done at once; then at most its return is waited for. -/
theorem exists_free {route : String} {t : TransportId} (hagenda : e.agendas[task]? = some (.free route t :: rest)) :
    ∃ e' fx, e.step? (.advance task) = some (e', fx) ∧ fx.countP (Effect.isFree t) = 1 ∧
      (e'.agendas[task]? = some rest ∨ ∃ r, e'.agendas[task]? = some (.awaitFree r :: rest)) := by
  have hdoes : Does (e.setAgenda task rest) task (.free route t) ((e.setAgenda task rest).free task route t) :=
    .perform rfl
  generalize hm : (e.setAgenda task rest).free task route t = m at hdoes
  have hstep : e.step? (.advance task) = some (m.engine.setAgenda task (m.next ++ rest), m.effects) := by
    simp only [step?, advance?, hagenda, perform?, Option.map_some, hm, proceed]
  obtain ⟨hfree, -⟩ := does_free (t := t) hdoes
  rw [if_pos rfl] at hfree
  have hagenda' : (m.engine.setAgenda task (m.next ++ rest)).agendas[task]? = some (m.next ++ rest) := by
    rw [agendas_setAgenda, hdoes.agendas, agendas_setAgenda, List.set_set,
      List.getElem?_set_self (List.getElem?_eq_some_iff.mp hagenda).1]
  refine ⟨_, _, hstep, hfree, ?_⟩
  rw [hagenda']
  have hn := hdoes.next
  generalize m.next = next at hn
  cases hn with
  | nothing => exact .inl rfl
  | awaitFree => exact .inr ⟨_, rfl⟩

theorem step_awaitFree {route : String} (panicked : Bool) (hagenda : e.agendas[task]? = some (.awaitFree route :: rest)) :
    e.step? (.returned task panicked) =
      some (e.setAgenda task rest, if panicked then [.print .errors (releaseComplaint route)] else []) := by
  simp only [step?, returned?, hagenda]

theorem agendas_setAgenda_self (hagenda : e.agendas[task]? = some agenda) :
    (e.setAgenda task rest).agendas[task]? = some rest := by
  rw [agendas_setAgenda, List.getElem?_set_self (List.getElem?_eq_some_iff.mp hagenda).1]

theorem releases_cons (t : TransportId) (ev : Event) (es : List Event) :
    releases t (ev :: es) = ev.effects.countP (Effect.isFree t) + releases t es := by
  simp [releases]

/-- All releases on an agenda are done when its task goes on, whichever of them panic. -/
theorem exists_unwinding (panics : Nat → Bool) (hagenda : e.agendas[task]? = some agenda)
    (hfirst : Foremost Action.isFreeing agenda) :
    ∃ es e', Run e es e' ∧ Unwinds task panics es ∧ ∀ route t, .free route t ∈ agenda → 0 < releases t es := by
  induction agenda generalizing e panics with
  | nil => exact ⟨[], e, .refl, .nil panics, fun _ _ h => absurd h List.not_mem_nil⟩
  | cons a rest ih =>
    cases ha : a.isFreeing with
    | false =>
      -- No release comes after an action of another kind.
      have hnone := hfirst.none_of_cons ha
      refine ⟨[], e, .refl, .nil panics, fun route t hmem => ?_⟩
      rcases List.mem_cons.mp hmem with rfl | hmem
      · cases ha
      · exact absurd rfl (List.any_eq_false.mp hnone _ hmem)
    | true =>
      have hrest := (Foremost.cons_iff ha).mp hfirst
      cases a <;> first | (cases ha; done) | skip
      case free route t =>
        obtain ⟨e₁, fx, hs, hfree, hagenda₁ | ⟨r, hagenda₁⟩⟩ := exists_free hagenda
        · obtain ⟨es, e', hr, hun, hdone⟩ := ih (fun i => panics (i + 1)) hagenda₁ hrest
          refine ⟨_ :: es, e', (Run.single hs).trans hr, hun.cons (.inl rfl), fun route' t' hmem => ?_⟩
          rw [releases_cons]
          rcases List.mem_cons.mp hmem with heq | hmem
          · obtain ⟨-, rfl⟩ := Action.free.inj heq
            exact Nat.lt_of_lt_of_le (by rw [hfree]; exact Nat.one_pos) (Nat.le_add_right _ _)
          · exact Nat.add_pos_right _ (hdone route' t' hmem)
        · have hs₁ := step_awaitFree (panics 1) hagenda₁
          obtain ⟨es, e', hr, hun, hdone⟩ := ih (fun i => panics (i + 2)) (agendas_setAgenda_self hagenda₁) hrest
          refine ⟨_ :: _ :: es, e', (Run.single hs).trans ((Run.single hs₁).trans hr),
            .cons (.inl rfl) (hun.cons (.inr rfl)), fun route' t' hmem => ?_⟩
          rw [releases_cons, releases_cons]
          rcases List.mem_cons.mp hmem with heq | hmem
          · obtain ⟨-, rfl⟩ := Action.free.inj heq
            exact Nat.lt_of_lt_of_le (by rw [hfree]; exact Nat.one_pos) (Nat.le_add_right _ _)
          · exact Nat.add_pos_right _ (Nat.add_pos_right _ (hdone route' t' hmem))
      case awaitFree route =>
        have hs := step_awaitFree (panics 0) hagenda
        obtain ⟨es, e', hr, hun, hdone⟩ := ih (fun i => panics (i + 1)) (agendas_setAgenda_self hagenda) hrest
        refine ⟨_ :: es, e', (Run.single hs).trans hr, hun.cons (.inr rfl), fun route' t' hmem => ?_⟩
        rw [releases_cons]
        rcases List.mem_cons.mp hmem with heq | hmem
        · cases heq
        · exact Nat.add_pos_right _ (hdone route' t' hmem)

end unwinding

/-! ### Transports are released once -/

section released
variable {setup : Setup} {files : File.Store} {config : Config} {e e' : Engine} {es : List Event} {t : TransportId}
  {g : Generation}

/-- A transport that has been made has been released or is in custody, and one or the other once. -/
theorem custody_run (h : Run (start setup files config) es e) (t : TransportId) :
    releases t es + inCustody t e (installs es) = e.isMade t := by
  induction h with
  | refl => rfl
  | @step es e₁ e₂ op fx hr hs ih =>
    have hl : Lineage e₁ (installs es) := (Lineage.start setup files config).run (.start setup files config) hr
    rw [releases_append, installs_append, installs_singleton]
    rcases step_cases hs with ⟨request, rfl, hb, rfl⟩ | ⟨task, a, rest, m, htask, hagenda, hdoes, rfl, rfl⟩
    · obtain ⟨opening, hopen, hagendas, hcalm⟩ := begin_cases hb
      have hnothing : weigh (Action.custody t) opening = 0 := by cases hopen <;> rfl
      have hadds : installs es ++ (Event.installed? ⟨e₁, .begin request, e₂, []⟩).toList = installs es :=
        List.append_nil _
      have hfree : releases t [⟨e₁, .begin request, e₂, []⟩] = 0 := rfl
      rw [hadds, hfree, isMade_of_frame hcalm.transports, ← ih]
      unfold inCustody
      rw [tally_begin _ hagendas, hnothing, hcalm.released, Nat.add_zero, Nat.add_zero]
    · have hbalance := custody_does (t := t) hl (Holding.run hr).known hagenda hdoes
      have hfree : releases t [⟨e₁, op, m.engine.setAgenda task (m.next ++ rest), m.effects⟩] =
          m.effects.countP (Effect.isFree t) := by
        simp [releases]
      have hmade : (m.engine.setAgenda task (m.next ++ rest)).isMade t = m.engine.isMade t := rfl
      rw [known_step htask hagenda, hfree, hmade]
      omega

theorem isMade_le_one (e : Engine) (t : TransportId) : e.isMade t ≤ 1 := by
  unfold isMade
  split <;> omega

theorem releases_le_one (h : Run (start setup files config) es e) (t : TransportId) : releases t es ≤ 1 := by
  have hlaw := custody_run h t
  have hmade := isMade_le_one e t
  omega

/-- A generation that somebody holds has all its transports as long as the engine is open. -/
theorem releases_of_holds (h : Run (start setup files config) es e) (hopen : e.isClosed = false) (hg : g ∈ installs es)
    (hholds : e.Holds g) (ht : g.Has t) : releases t es = 0 := by
  have hlaw := custody_run h t
  have hmade := isMade_le_one e t
  have hshare := uses_le_weigh_share (t := t) hg ((Holding.run h).idle hopen g hholds)
  have huses := Generation.uses_pos.mpr ht
  unfold inCustody at hlaw
  omega

/-- Nothing is in custody of a transport that nobody refers to. -/
theorem inCustody_of_not_refers (h : Run (start setup files config) es e) (hno : ¬e.Refers t) :
    inCustody t e (installs es) = 0 := by
  have huses : ∀ g : Generation, ¬g.Has t → g.uses t = 0 := fun g hg =>
    Nat.eq_zero_of_not_pos fun hpos => hg (Generation.uses_pos.mp hpos)
  have htally : tally (Action.custody t) e = 0 := by
    refine tally_eq_zero fun agenda hmem a ha => ?_
    have hnot : ¬a.RefersTo t := fun hrefers => hno (.inr ⟨agenda, hmem, a, ha, hrefers⟩)
    cases a with
    | free route transport => exact if_neg hnot
    | make | awaitCreate | install => exact huses _ hnot
    | _ => rfl
  have hshares : weigh (share t e.released) (installs es) = 0 := by
    refine weigh_eq_zero fun g hg => ?_
    by_cases hr : g.id ∈ e.released
    · exact if_pos hr
    · -- Whoever holds the generation refers to its transports.
      refine (if_neg hr).trans (huses g fun hhas => hno ?_)
      rcases (Holding.run h).held g hg hr with hlive | ⟨agenda, hmem, hgo⟩
      · exact .inl ⟨g, hlive, hhas⟩
      · exact .inr ⟨agenda, hmem, _, hgo, hhas⟩
  rw [inCustody, htally, hshares]

/-- An engine that is open was open all the time. -/
theorem Run.isClosed (h : Run e es e') (hopen : e'.isClosed = false) : e.isClosed = false := by
  induction h with
  | refl => exact hopen
  | step _ hs ih =>
    rcases step_cases hs with ⟨request, -, hb, -⟩ | ⟨task, a, rest, m, -, -, hdoes, rfl, -⟩
    · obtain ⟨-, -, -, hcalm⟩ := begin_cases hb
      exact ih (hcalm.isClosed.symm.trans hopen)
    · exact ih (hdoes.isClosed hopen)

/-- A transport that is given a record has not been released. -/
theorem releases_of_out {ev : Event} {before after : List Event} {fx : Effect}
    (h : Run (start setup files config) (before ++ ev :: after) e) (hopen : e.isClosed = false) (hfx : fx ∈ ev.effects)
    (hout : fx.isOut t = true) : releases t before = 0 := by
  obtain ⟨hr, hs, hrest⟩ := h.split
  have hopen : ev.before.isClosed = false := (Run.single hs).isClosed (hrest.isClosed hopen)
  have hl := (Lineage.start setup files config).run (.start setup files config) hr
  have ho := (Orderly.start setup files config).run hr
  rcases step_cases hs with ⟨request, -, -, hfxs⟩ | ⟨task, a, rest, m, -, hagenda, hdoes, -, hfxs⟩
  · rw [hfxs] at hfx
    exact absurd hfx List.not_mem_nil
  · rw [hfxs] at hfx
    have hof := hdoes.isOf hfx
    cases fx with
    | out task' t' record ack =>
      obtain rfl : t' = t := by simpa [Effect.isOut] using hout
      obtain ⟨g, fanOut, d, r, rfl, hroute, ht⟩ := hof
      have hmem := List.mem_of_getElem? hagenda
      -- The call still has to let its generation go.
      have hgo : .letGo g ∈ rest := (ho.arranged _ hmem).fits
      have hknown : g ∈ installs before := (hl.rooted _ hmem).1.1
      exact releases_of_holds hr hopen hknown (.inr ⟨_, hmem, List.mem_cons_of_mem _ hgo⟩)
        ⟨r, List.mem_of_getElem? hroute, ht⟩
    | _ => cases hout

/-- Every transport is released at most once, and once when nobody refers to it any more. As long as the engine is
    open, no transport is given a record after its release and none of the live generation is released. Releases that
    are still to be done are done when their task goes on, whichever of them panic. -/
theorem transports_released_once (h : Run (start setup files config) es e) :
    (∀ t, releases t es ≤ 1) ∧
    (∀ t < e.transports.length, ¬e.Refers t → releases t es = 1) ∧
    (e.isClosed = false →
      (∀ before ev after fx t, es = before ++ ev :: after → fx ∈ ev.effects → fx.isOut t = true →
        releases t before = 0) ∧
      ∀ g t, e.live = some g → g.Has t → releases t es = 0) ∧
    ∀ task agenda (panics : Nat → Bool), e.agendas[task]? = some agenda →
      ∃ es' e', Run e es' e' ∧ Unwinds task panics es' ∧
        ∀ route t, .free route t ∈ agenda → releases t (es ++ es') = 1 := by
  refine ⟨releases_le_one h, fun t ht hno => ?_, fun hopen => ⟨?_, fun g t hlive ht => ?_⟩,
    fun task agenda panics hagenda => ?_⟩
  · have hlaw := custody_run h t
    rw [inCustody_of_not_refers h hno, isMade, if_pos ht] at hlaw
    exact hlaw
  · rintro before ev after fx t rfl hfx hout
    exact releases_of_out h hopen hfx hout
  · have hl := (Lineage.start setup files config).run (.start setup files config) h
    exact releases_of_holds h hopen (hl.live g hlive) (.inl hlive) ht
  · obtain ⟨es', e', hr, hun, hdone⟩ :=
      exists_unwinding panics hagenda (frees_foremost h agenda (List.mem_of_getElem? hagenda))
    refine ⟨es', e', hr, hun, fun route t hmem => ?_⟩
    have hle := releases_le_one (h.trans hr) t
    have hpos := hdone route t hmem
    rw [releases_append] at hle ⊢
    omega

end released

/-- While a call to both twins is at the first one, a reload puts others in their place. The call is the last to use
    the old ones, and the first of them is being released. -/
def untilRetiring : List Op :=
  untilFan ++ [.advance 1, .advance 1, .returned 1 false, .begin (.reload twins)] ++ List.replicate 4 (.advance 2) ++
    [.created 2 (.ok (.ok "host")), .advance 2, .created 2 (.ok (.ok "host"))] ++ List.replicate 10 (.advance 2) ++
    [.advance 1, .returned 1 false, .advance 1, .advance 1]

def retiring : Engine := (plain false ["host"] twins).after untilRetiring

/-- The transports that are still to be released. -/
def pendingFrees (agenda : List Action) : List TransportId :=
  agenda.filterMap fun
    | .free _ t => some t
    | _ => none

theorem free_mem_of_pendingFrees {agenda : List Action} {t : TransportId} (h : t ∈ pendingFrees agenda) :
    ∃ route, .free route t ∈ agenda := by
  obtain ⟨a, ha, heq⟩ := List.mem_filterMap.mp h
  cases a with
  | free route t' =>
    obtain rfl := Option.some.inj heq
    exact ⟨route, ha⟩
  | _ => cases heq

/-- The first of the old transports has been released, the new ones have not, and the second of the old ones will be
    even though the release of the first one panics. -/
theorem replaced_transports_released_once : ∃ es, Run (plain false ["host"] twins) es retiring ∧
    releases 0 es = 1 ∧ releases 1 es = 0 ∧ releases 2 es = 0 ∧ releases 3 es = 0 ∧
    ∃ es' e', Run retiring es' e' ∧ Unwinds 1 (fun _ => true) es' ∧ releases 1 (es ++ es') = 1 := by
  have hstate : ((plain false ["host"] twins).run? untilRetiring).isSome = true ∧
      (retiring.isClosed = false ∧ 0 < retiring.transports.length ∧ ¬retiring.Refers 0) ∧
      (∃ g ∈ retiring.live, g.Has 2 ∧ g.Has 3) ∧
      releases 1 ((plain false ["host"] twins).history untilRetiring) = 0 ∧
      retiring.agendas[1]?.map pendingFrees = some [1] := by decide +kernel
  obtain ⟨hbegun, ⟨hopen, hmade, hno⟩, ⟨g, hlive, htwo, hthree⟩, hone, hfrees⟩ := hstate
  have hrun : Run (plain false ["host"] twins) _ retiring := run_history _ _ hbegun
  obtain ⟨agenda, hagenda, hfrees⟩ := Option.map_eq_some_iff.mp hfrees
  obtain ⟨route, hfree⟩ := free_mem_of_pendingFrees (hfrees ▸ List.mem_singleton_self 1)
  obtain ⟨-, honce, hlater, hpending⟩ := transports_released_once hrun
  have hkept := (hlater hopen).2
  obtain ⟨es', e', hr, hun, hdone⟩ := hpending 1 agenda (fun _ => true) hagenda
  exact ⟨_, hrun, honce 0 hmade hno, hone, hkept g 2 hlive htwo, hkept g 3 hlive hthree, es', e', hr, hun,
    hdone route 1 hfree⟩

end Engine

end LogDispatch
