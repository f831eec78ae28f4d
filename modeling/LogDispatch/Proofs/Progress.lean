import LogDispatch.Proofs.Sharing

/-! How far tasks come with new generations (`Progress`). A reload that nothing else comes between replaces the live
    generation once at most (`Reloads.live_cases`). A task that ends otherwise than it should has published no generation
    (`Run.not_installed`). What it made it has in custody until it is released (`Run.made_by`), so it has released all of
    it when it is over. -/

namespace LogDispatch

namespace Engine

section failing
variable {e e' : Engine} {op : Op} {fx : List Effect} {es : List Event} {setup : Setup} {files : File.Store}
  {config : Config} {task : TaskId} {a : Action} {m : Move} {next rest done left agenda : List Action} {outcome : Outcome}

/-- The action may lead to a new generation. -/
def mayInstall : Action → Bool
  | .checkReload _ | .build .. | .make .. | .awaitCreate .. | .install _ => true
  | _ => false

/-- The action is done before there is a new generation. -/
def isPreparing : Action → Bool
  | .lockReload | .checkReload _ | .build .. | .make .. | .awaitCreate .. => true
  | _ => false

/-- How far a task has come with a new generation: it is asked for one, builds one, has built it, has published it, or
    has none to publish. -/
inductive Progress : List Action → List Action → Prop
  | asked {config : Config} : Progress [] [.lockReload, .checkReload config]
  | building {done : List Action} {a : Action} : done.all isPreparing = true → isPreparing a = true →
      Progress done [a]
  | built {done left : List Action} {g : Generation} {isReload : Bool} : done.all isPreparing = true →
      left = publishing g isReload → Progress done left
  | published {done left : List Action} : left.any mayInstall = false → left.all Action.isPublishing = true →
      (∀ outcome, .finish outcome ∈ done → outcome = .done) → Progress done left
  | without {done left : List Action} : left.any mayInstall = false → (∀ g, .install g ∉ done) → Progress done left

theorem not_mayInstall_building (isReload : Bool) (outcome : Outcome) :
    (Engine.building isReload outcome).any mayInstall = false := by
  cases isReload <;> rfl

theorem not_mayInstall_frees (routes : List Route) : (frees routes).any mayInstall = false := by
  simp [frees, mayInstall]

/-- Only the building of a generation leads to a new one. -/
theorem Next.mayInstall (hn : Next e a next) (ha : Engine.mayInstall a = false) : next.any Engine.mayInstall = false := by
  cases hn with
  | nothing => rfl
  | screen hadm => rcases admission_cases hadm with ⟨_, _, _, rfl⟩ | ⟨_, rfl⟩ <;> rfl
  | fan => simp [Engine.mayInstall]
  | @answer ack answer x => cases answer.result x.route <;> rfl
  | letGo | close => exact not_mayInstall_frees _
  | recalcAll => simp [Engine.mayInstall]
  | write => simp [Engine.mayInstall]
  | refused | check | faulty | draft | publish | awaitCreate | abandon | attach | created | notCreated | install => cases ha
  | _ => rfl

theorem not_mem_of_preparing {b : Action} (hdone : done.all isPreparing = true) (hb : isPreparing b = false) :
    b ∉ done := by
  intro hmem
  rw [List.all_eq_true.mp hdone b hmem] at hb
  cases hb

theorem Progress.start : Progress [] [.build config false] := .building rfl rfl

theorem Progress.opening (h : Opening e agenda) : Progress [] agenda := by
  cases h with
  | reload => exact .asked
  | _ => exact .without rfl fun _ => List.not_mem_nil

theorem Progress.step (hn : Next e a next) (h : Progress done (a :: rest)) :
    Progress (done ++ [a]) (next ++ rest) := by
  cases h with
  | asked =>
    cases hn with
    | nothing => exact .building rfl rfl
  | building hdone ha =>
    have hdone' : (done ++ [a]).all isPreparing = true := by simp [hdone, ha]
    have hno : ∀ g, .install g ∉ done ++ [a] := fun g => not_mem_of_preparing hdone' rfl
    rw [List.append_nil]
    cases hn with
    | nothing => exact .without rfl hno
    | refused | faulty => exact .without (not_mayInstall_building ..) hno
    | check | draft | awaitCreate | attach | created => exact .building hdone' rfl
    | publish => exact .built hdone' rfl
    | abandon | notCreated =>
      refine .without ?_ hno
      rw [Engine.abandon, List.any_append, not_mayInstall_building, Bool.or_false]
      exact not_mayInstall_frees _
    | _ => cases ha
  | @built _ _ g isReload hdone hleft =>
    obtain ⟨rfl, rfl⟩ := List.cons.inj hleft
    have hfinish : ∀ outcome, Action.finish outcome ∈ done ++ [Action.install g] → outcome = .done := by
      intro outcome hmem
      rcases List.mem_append.mp hmem with hmem | hmem
      · exact absurd hmem (not_mem_of_preparing (b := .finish outcome) hdone rfl)
      · simp at hmem
    cases hn with
    | nothing | install => cases isReload <;> exact .published rfl rfl hfinish
  | published hmay hleft hdone =>
    rw [List.all_cons, Bool.and_eq_true] at hleft
    rw [List.any_cons, Bool.or_eq_false_iff] at hmay
    refine .published ?_ ?_ fun outcome hmem => ?_
    · rw [List.any_append, hn.mayInstall hmay.1, hmay.2]
      rfl
    · rw [List.all_append, hleft.2, Bool.and_true]
      exact List.all_eq_true.mpr (publishing_next hn hleft.1)
    · rcases List.mem_append.mp hmem with hmem | hmem
      · exact hdone outcome hmem
      · rw [← List.mem_singleton.mp hmem] at hleft
        cases outcome with
        | done => rfl
        | _ => cases hleft.1
  | without hleft hdone =>
    rw [List.any_cons, Bool.or_eq_false_iff] at hleft
    refine .without ?_ fun g hmem => ?_
    · rw [List.any_append, hn.mayInstall hleft.1, hleft.2]
      rfl
    · rcases List.mem_append.mp hmem with hmem | hmem
      · exact hdone g hmem
      · rw [← List.mem_singleton.mp hmem] at hleft
        cases hleft.1

theorem Run.progress (h : Run (start setup files config) es e) (hagenda : e.agendas[task]? = some agenda) :
    Progress (deeds task es) agenda :=
  h.ways Progress.start Progress.opening (fun hn hp => hp.step hn) task agenda hagenda

/-- A task that may still publish a generation has done nothing else yet than to prepare for it. -/
theorem Progress.preparing (h : Progress done left) (hleft : left.any mayInstall = true) :
    done.all isPreparing = true := by
  cases h with
  | asked => rfl
  | building hdone | built hdone => exact hdone
  | published hno | without hno =>
    rw [hno] at hleft
    cases hleft

theorem Progress.not_installed (h : Progress done left) (hfinish : .finish outcome ∈ done) (hfail : outcome ≠ .done)
    (g : Generation) : .install g ∉ done := by
  cases h with
  | asked => exact List.not_mem_nil
  | building hdone | built hdone => exact not_mem_of_preparing hdone rfl
  | published _ _ hdone => exact absurd (hdone outcome hfinish) hfail
  | without _ hdone => exact hdone g

/-! ### The live generation during a reload -/

theorem closed_notInstalling : Closed fun a => !mayInstall a := by
  intro e a next hn ha
  rw [Bool.not_eq_true'] at ha
  have hnone := hn.mayInstall ha
  rw [List.any_eq_false] at hnone
  exact List.all_eq_true.mpr fun b hb => by simpa using hnone b hb

theorem Run.live_of_preparing (h : Run e es e') (hown : ∀ ev ∈ es, ev.op.task? = some task)
    (hdone : (deeds task es).all isPreparing = true) : e'.live = e.live := by
  induction h with
  | refl => rfl
  | @step es e₁ e₂ op fx hr hs ih =>
    have htask := hown _ (List.mem_append_right _ List.mem_cons_self)
    rw [deeds_append, List.all_append, Bool.and_eq_true] at hdone
    rw [← ih (fun ev hev => hown ev (List.mem_append_left _ hev)) hdone.1]
    obtain ⟨a, rest, m, ha, hdeed⟩ := (Run.single hs).deed_of_own List.mem_cons_self htask
    have hpreparing := List.all_eq_true.mp hdone.2 a ha
    have hf := hdeed.does.frame
    have hafter : e₂.live = m.engine.live := (congrArg Engine.live hdeed.after :)
    rw [hafter]
    cases a <;> first
      | (cases hpreparing; done)
      | exact (congrArg Engine.live hf :)

theorem Run.live_of_not_installing {g : Generation} (h : Run e es e') (hown : ∀ ev ∈ es, ev.op.task? = some task)
    (hno : ∀ g, .install g ∉ deeds task es) (hlive : e'.live = some g) : e.live = some g := by
  induction h with
  | refl => exact hlive
  | @step es e₁ e₂ op fx hr hs ih =>
    have htask := hown _ (List.mem_append_right _ List.mem_cons_self)
    rw [deeds_append] at hno
    refine ih (fun ev hev => hown ev (List.mem_append_left _ hev)) (fun g hg => hno g (List.mem_append_left _ hg)) ?_
    obtain ⟨a, rest, m, ha, hdeed⟩ := (Run.single hs).deed_of_own List.mem_cons_self htask
    have hafter : e₂.live = m.engine.live := (congrArg Engine.live hdeed.after :)
    rw [hafter] at hlive
    rcases hdeed.does.live hlive with hsame | rfl
    · exact hsame
    · exact absurd (List.mem_append_right _ ha) (hno g)

/-- While an engine is reloaded the old generation is live, or the new one. -/
theorem Reloads.live_cases {newer : Config} {old new : Generation} {x : Engine} {before after : List Event}
    (h : Run (start setup files config) es e) (hr : Reloads e newer (before ++ after) outcome e')
    (hbefore : Run e before x) (hafter : Run x after e') (hold : e.live = some old) (hnew : e'.live = some new) :
    x.live = some old ∨ x.live = some new := by
  obtain ⟨ops, hops, hown⟩ := hr.ops
  cases before with
  | nil => exact .inl (hbefore.eq_of_nil ▸ hold)
  | cons ev before =>
    obtain ⟨e₀, op, e₁, fx⟩ := ev
    obtain ⟨hop, hops⟩ := List.cons.inj hops
    have howns : ∀ ev ∈ before ++ after, ev.op.task? = some e.nextTask := by
      intro ev hev
      refine hown _ ?_
      rw [← hops]
      exact List.mem_map_of_mem hev
    obtain ⟨rfl, hs, hr'⟩ := hbefore.uncons
    rcases step_cases hs with ⟨request, -, hb, -⟩ | ⟨task, _, _, _, htask, -⟩
    · obtain ⟨opening, -, hagendas, hcalm⟩ := begin_cases hb
      have hopening : e₁.agendas[e₀.nextTask]? = some opening := by
        rw [hagendas]
        exact List.getElem?_concat_length
      obtain ⟨left, hleft, -⟩ := hr'.task_induction (P := fun _ _ => True) hopening trivial fun _ _ => trivial
      have hprogress := (h.trans hbefore).progress hleft
      cases hmay : left.any mayInstall with
      | true =>
        have hdone := hprogress.preparing hmay
        rw [deeds_append, deeds_cons, List.all_append, List.all_append, Bool.and_eq_true, Bool.and_eq_true] at hdone
        left
        rw [hr'.live_of_preparing (fun ev hev => howns ev (List.mem_append_left _ hev)) hdone.2.2, hcalm.live, hold]
      | false =>
        have hkind : left.all (fun a => !mayInstall a) = true := by
          rw [List.any_eq_false] at hmay
          exact List.all_eq_true.mpr fun b hb => by simpa using hmay b hb
        obtain ⟨-, -, -, hdone⟩ := closed_notInstalling.run hafter hleft hkind
        right
        refine hafter.live_of_not_installing (fun ev hev => howns ev (List.mem_append_right _ hev)) (fun g hg => ?_) hnew
        exact absurd (List.all_eq_true.mp hdone _ hg) nofun
    · dsimp only at hop
      rw [hop] at htask
      cases htask

/-! ### Builds that fail -/

theorem Makes.isMade_le {d : Draft} {isReload : Bool} {i : TransportId} (h : Makes e d isReload e' next) :
    e.isMade i ≤ e'.isMade i := by
  cases h with
  | publish | abandon | await => exact Nat.le_refl _
  | attach =>
    simp only [isMade, List.length_append, List.length_singleton]
    by_cases hi : i < e.transports.length
    · rw [if_pos hi, if_pos (Nat.lt_succ_of_lt hi)]
    · rw [if_neg hi]
      exact Nat.zero_le _

/-- Custody of a transport goes on to what comes next, until the transport is released or its generation published. -/
theorem Does.custody (h : Does e task a m) {i : TransportId}
    (hi : 0 < a.custody i ∨ (e.isMade i = 0 ∧ m.engine.isMade i = 1)) :
    (∃ route, a = .free route i) ∨ (∃ b ∈ m.next, 0 < b.custody i) ∨ ∃ g, a = .install g := by
  have making : ∀ {d : Draft} {isReload : Bool}, Makes e d isReload m.engine m.next →
      (0 < d.generation.uses i ∨ (e.isMade i = 0 ∧ m.engine.isMade i = 1)) → ∃ b ∈ m.next, 0 < b.custody i := by
    intro d isReload hmakes hi
    have hlaw := hmakes.custody (t := i)
    have hle := hmakes.isMade_le (i := i)
    by_contra hno
    have hzero : weigh (Action.custody i) m.next = 0 :=
      weigh_eq_zero fun b hb => Nat.eq_zero_of_not_pos fun hpos => hno ⟨b, hb, hpos⟩
    rw [hzero, Nat.zero_add] at hlaw
    omega
  have hf := h.frame
  have idle : m.engine.transports = e.transports → ¬(e.isMade i = 0 ∧ m.engine.isMade i = 1) := by
    rintro htransports ⟨hzero, hone⟩
    rw [isMade_of_frame htransports, hzero] at hone
    cases hone
  cases a
  case make => exact .inr (.inl (making (makes_make h) hi))
  case awaitCreate => exact .inr (.inl (making (makes_awaitCreate h) hi))
  case install g => exact .inr (.inr ⟨g, rfl⟩)
  case free route i' =>
    rcases hi with hpos | ⟨hzero, hone⟩
    · by_cases heq : i' = i
      · exact .inl ⟨route, by rw [heq]⟩
      · simp [Action.custody, heq] at hpos
    · rw [(does_free h).2.2, hzero] at hone
      cases hone
  all_goals
    dsimp only [Action.Changes] at hf
    rcases hi with hpos | hmade
    · cases hpos
    · exact absurd hmade (idle (congrArg Engine.transports hf :))

/-- A transport that a task has made is released by it, or on its agenda, or in a generation that it has published. -/
theorem Run.made_by (h : Run (start setup files config) es e) {ev : Event} {i : TransportId} (hev : ev ∈ es)
    (hown : ev.op.task? = some task) (hle : ev.before.transports.length ≤ i) (hlt : i < ev.after.transports.length) :
    ∃ agenda, e.agendas[task]? = some agenda ∧ ((∃ route, .free route i ∈ deeds task es) ∨
      (∃ a ∈ agenda, 0 < a.custody i) ∨ ∃ g, .install g ∈ deeds task es) := by
  induction h with
  | refl => cases hev
  | @step es e₁ e₂ op fx hr hs ih =>
    rw [deeds_append]
    -- What the task has in custody, or makes now, it has in custody afterwards.
    have deed : ∀ {a rest m}, Deed task a rest m ⟨e₁, op, e₂, fx⟩ →
        (0 < a.custody i ∨ (e₁.isMade i = 0 ∧ e₂.isMade i = 1)) →
        ∃ agenda, e₂.agendas[task]? = some agenda ∧
          ((∃ route, .free route i ∈ deeds task es ++ deeds task [⟨e₁, op, e₂, fx⟩]) ∨
            (∃ a ∈ agenda, 0 < a.custody i) ∨
            ∃ g, .install g ∈ deeds task es ++ deeds task [⟨e₁, op, e₂, fx⟩]) := by
      intro a rest m hdeed hi
      have hafter : e₂.isMade i = (m.engine.setAgenda task (m.next ++ rest)).isMade i :=
        congrArg (isMade · i) hdeed.after
      refine ⟨_, hdeed.agenda_after, ?_⟩
      rw [hdeed.deeds]
      rcases hdeed.does.custody (hafter ▸ hi) with ⟨route, rfl⟩ | ⟨b, hb, hpos⟩ | ⟨g, rfl⟩
      · exact .inl ⟨route, by simp⟩
      · exact .inr (.inl ⟨b, List.mem_append_left _ hb, hpos⟩)
      · exact .inr (.inr ⟨g, by simp⟩)
    rcases List.mem_append.mp hev with hev | hev
    · obtain ⟨agenda, hagenda, hwhere⟩ := ih hev
      rcases step_deed hs hagenda with ⟨hother, hsame⟩ | ⟨a, rest, m, rfl, hdeed⟩
      · refine ⟨agenda, hsame, ?_⟩
        rw [deeds_of_other hother, List.append_nil]
        exact hwhere
      · rcases hwhere with ⟨route, hfree⟩ | ⟨b, hb, hpos⟩ | ⟨g, hinstall⟩
        · exact ⟨_, hdeed.agenda_after, .inl ⟨route, List.mem_append_left _ hfree⟩⟩
        · rcases List.mem_cons.mp hb with rfl | hb
          · exact deed hdeed (.inl hpos)
          · exact ⟨_, hdeed.agenda_after, .inr (.inl ⟨b, List.mem_append_right _ hb, hpos⟩)⟩
        · exact ⟨_, hdeed.agenda_after, .inr (.inr ⟨g, List.mem_append_left _ hinstall⟩)⟩
    · obtain rfl := List.mem_singleton.mp hev
      rcases step_cases hs with ⟨request, rfl, -, -⟩ | ⟨task', a, rest, m, htask, hagenda, hdoes, hafter, hfx⟩
      · cases hown
      · obtain rfl := Option.some.inj (htask.symm.trans hown)
        refine deed ⟨htask, hagenda, hdoes, hafter, hfx⟩ (.inr ⟨?_, ?_⟩)
        · exact if_neg (Nat.not_lt_of_ge hle)
        · exact if_pos hlt

theorem releases_pos_of_deed (h : Run e es e') {route : String} {i : TransportId} (ha : .free route i ∈ deeds task es) :
    0 < releases i es := by
  obtain ⟨ev, hev, heq⟩ := List.mem_filterMap.mp ha
  split at heq
  · rename_i htask
    obtain ⟨before, after, rfl⟩ := List.append_of_mem hev
    obtain ⟨-, hs, -⟩ := h.split
    rcases countP_isFree_step hs i with ⟨-, hone⟩ | ⟨hnot, -⟩
    · have hmine : releases i (before ++ ev :: after) = releases i before + (1 + releases i after) := by
        rw [releases_append, releases_cons, hone]
      omega
    · exact absurd heq (hnot route)
  · cases heq

/-- A build that fails has released all transports that it made when it is over. -/
theorem Run.failed_build (hfiles : files.Unshared) (h : Run (start setup files config) es e)
    (hagenda : e.agendas[task]? = some []) (hfinish : .finish outcome ∈ deeds task es) (hfail : outcome ≠ .done)
    {ev : Event} {i : TransportId} {t : Transport} (hev : ev ∈ es) (hown : ev.op.task? = some task)
    (hle : ev.before.transports.length ≤ i) (hlt : i < ev.after.transports.length) (ht : e.transports[i]? = some t) :
    t.isFreed = true := by
  obtain ⟨agenda, hagenda', hwhere⟩ := h.made_by hev hown hle hlt
  obtain rfl := Option.some.inj (hagenda'.symm.trans hagenda)
  rcases hwhere with ⟨route, hfree⟩ | ⟨a, ha, -⟩ | ⟨g, hinstall⟩
  · have hpos := releases_pos_of_deed h hfree
    have hatmost := releases_le_one h i
    exact ((h.lends hfiles).released i t ht).mpr (by omega)
  · cases ha
  · exact absurd hinstall ((h.progress hagenda).not_installed hfinish hfail g)

end failing

end Engine

end LogDispatch
