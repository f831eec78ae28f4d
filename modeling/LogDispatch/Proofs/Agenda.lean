import LogDispatch.Proofs.Places
import LogDispatch.Proofs.Run

/-! Agendas in order: every action stands before those it relies on (`Action.Fits`). A call keeps its
    generation until all its routes were tried, the steps of one answer follow each other, and whoever works on
    a generation gives the lock of reloads back. Hence at most one task is at such work (`Guarded`). -/

namespace LogDispatch

/-- What an action relies on to come after it. -/
def Action.Fits (a : Action) (rest : List Action) : Prop :=
  match a with
  | .load _ => rest = []
  | .screen _ g | .select _ g .. | .accept g .. | .fan g .. => rest = Engine.leaving g .done
  | .refresh .. => ∃ g deliveries callback, rest = .accept g deliveries callback :: Engine.leaving g .done
  | .countUnrouted => ∃ g deliveries callback, rest = .fan g deliveries callback :: Engine.leaving g .done
  | .attempt g .. => .letGo g ∈ rest
  | .count fanOut (.ok _) => ∃ r, rest = .arrive fanOut :: r
  | .count fanOut (.error error) => ∃ r, rest = .record fanOut error :: r
  | .record fanOut _ => ∃ r, rest = .arrive fanOut :: r
  | .lockReload => (∃ config, rest = [.checkReload config]) ∨ rest = [.close, .unlockReload, .leave, .finish .done]
  | .checkReload _ | .build .. | .make .. | .awaitCreate .. => rest = []
  | .install _ | .recalcAll _ | .recalc .. | .unlockChannels | .countReload | .close => .unlockReload ∈ rest
  | _ => True

/-- The action takes the lock of reloads. -/
def Action.isLock : Action → Bool
  | .lockReload => true
  | _ => false

/-- The action is done under the lock of reloads, which the task still has to give back. -/
def Action.isGuarded : Action → Bool
  | .checkReload _ | .build .. | .make .. | .awaitCreate .. | .unlockReload => true
  | _ => false

/-- The action relies on nothing, and has no part in the lock of reloads. -/
def Action.isLoose : Action → Bool
  | .reject .. | .answer .. | .arrive _ | .tell _ | .awaitOut _ | .send .. | .letGo _ | .leave | .free .. | .awaitFree _
  | .register .. | .enlist _ | .write .. | .rest _ | .complain _ | .finish _ => true
  | _ => false

theorem Action.fits_of_isLoose {a : Action} (h : a.isLoose = true) (rest : List Action) : a.Fits rest := by
  cases a <;> trivial

theorem Action.isLock_of_isLoose {a : Action} (h : a.isLoose = true) : a.isLock = false := by
  cases a <;> first | rfl | cases h

theorem Action.isGuarded_of_isLoose {a : Action} (h : a.isLoose = true) : a.isGuarded = false := by
  cases a <;> first | rfl | cases h

/-- Every action of the agenda is in its place, and the lock of reloads is the first thing taken. -/
inductive Arranged : List Action → Prop
  | nil : Arranged []
  | cons {a : Action} {rest : List Action} (fits : a.Fits rest) (unlocked : rest.any Action.isLock = false)
      (last : a = .unlockReload → rest.any Action.isGuarded = false) (tail : Arranged rest) : Arranged (a :: rest)

namespace Arranged
variable {a : Action} {rest next : List Action}

theorem fits (h : Arranged (a :: rest)) : a.Fits rest := by
  cases h with
  | cons h => exact h

theorem unlocked (h : Arranged (a :: rest)) : rest.any Action.isLock = false := by
  cases h with
  | cons _ h => exact h

theorem tail (h : Arranged (a :: rest)) : Arranged rest := by
  cases h with
  | cons _ _ _ h => exact h

/-- Actions that find what they rely on in an agenda can all come before it. -/
theorem append_of_fits (hn : ∀ b ∈ next, (∀ xs, b.Fits (xs ++ rest)) ∧ b.isLock = false ∧ b.isGuarded = false)
    (hr : rest.any Action.isLock = false) (h : Arranged rest) : Arranged (next ++ rest) := by
  induction next with
  | nil => exact h
  | cons b bs ih =>
    have hbs := fun c hc => hn c (List.mem_cons_of_mem b hc)
    obtain ⟨hfits, -, hguard⟩ := hn b List.mem_cons_self
    refine .cons (hfits bs) ?_ (fun hu => ?_) (ih hbs)
    · show (bs ++ rest).any Action.isLock = false
      rw [List.any_append, hr, Bool.or_false]
      exact List.any_eq_false.mpr fun c hc => by simp [(hbs c hc).2.1]
    · subst hu
      cases hguard

/-- Loose actions can come before any agenda that does not begin with the lock. -/
theorem append (hn : next.all Action.isLoose = true) (hr : rest.any Action.isLock = false) (h : Arranged rest) :
    Arranged (next ++ rest) :=
  append_of_fits (fun b hb =>
    have hb := List.all_eq_true.mp hn b hb
    ⟨fun _ => Action.fits_of_isLoose hb _, Action.isLock_of_isLoose hb, Action.isGuarded_of_isLoose hb⟩) hr h

theorem of_loose (hn : next.all Action.isLoose = true) : Arranged next := by
  simpa using append hn rfl .nil

end Arranged

namespace Engine
variable {e e' : Engine} {task : TaskId} {a : Action} {m : Move} {rest agenda : List Action}

theorem arranged_building (isReload : Bool) (outcome : Outcome) : Arranged (building isReload outcome) := by
  unfold building
  cases isReload
  · exact .cons trivial rfl (fun _ => rfl) (.of_loose rfl)
  · exact .cons trivial rfl (fun _ => rfl) (.of_loose rfl)

theorem isLock_building (isReload : Bool) (outcome : Outcome) :
    (building isReload outcome).any Action.isLock = false := by
  cases isReload <;> rfl

theorem unlock_mem_building (isReload : Bool) (outcome : Outcome) : .unlockReload ∈ building isReload outcome :=
  List.mem_cons_self

theorem arranged_abandon (d : Draft) (isReload : Bool) (outcome : Outcome) :
    Arranged (abandon d isReload outcome) :=
  .append (by simp [Action.isLoose]) (isLock_building ..) (arranged_building ..)

theorem arranged_publishing (g : Generation) (isReload : Bool) : Arranged (publishing g isReload) := by
  unfold publishing
  cases isReload
  · exact .cons (unlock_mem_building ..) rfl nofun (arranged_building ..)
  · have hmem : ∀ l : List Action, .unlockReload ∈ l ++ building true .done :=
      fun l => List.mem_append_right l (unlock_mem_building ..)
    refine .cons (hmem [.recalcAll g, .countReload, .letGo g]) rfl nofun ?_
    refine .cons (hmem [.countReload, .letGo g]) rfl nofun ?_
    refine .cons (hmem [.letGo g]) rfl nofun ?_
    have hloose : [Action.letGo g].all Action.isLoose = true := rfl
    exact .append hloose rfl (arranged_building ..)

theorem Opening.arranged (h : Opening e agenda) : Arranged agenda := by
  cases h with
  | call call _ => exact .cons rfl rfl nofun .nil
  | reload config => exact .cons (.inl ⟨config, rfl⟩) rfl nofun (.cons rfl rfl nofun .nil)
  | shutdown =>
    exact .cons (.inr rfl) rfl nofun
      (.cons (unlock_mem_building true .done) rfl nofun (arranged_building true .done))
  | openChannel | leave | keep | answer | serve => exact .of_loose rfl

theorem loose_frees (routes : List Route) : (frees routes).all Action.isLoose = true := by
  simp [frees, Action.isLoose]

theorem arranged_answerSteps (fanOut : FanOutId) (result : Except LogError Unit)
    (hr : rest.any Action.isLock = false) (h : Arranged rest) : Arranged (answerSteps fanOut result ++ rest) := by
  have hloose : [Action.arrive fanOut].all Action.isLoose = true := rfl
  have harrive : Arranged (.arrive fanOut :: rest) := .append hloose hr h
  cases result with
  | ok => exact .cons ⟨rest, rfl⟩ hr nofun harrive
  | error => exact .cons ⟨_, rfl⟩ hr nofun (.cons ⟨rest, rfl⟩ hr nofun harrive)

theorem admission_cases {call : Call} {g : Generation} {action : Action} (h : e.admission call g = .ok action) :
    (∃ channel rank text, action = .select call g channel rank text) ∨
      ∃ deliveries, action = .accept g deliveries call.callback := by
  unfold admission at h
  split at h
  · cases h
  · split at h
    · split at h
      · cases h
      · split at h
        · cases h
        · split at h <;> obtain rfl := Except.ok.inj h
          · exact .inl ⟨_, _, _, rfl⟩
          · exact .inr ⟨_, rfl⟩
    · split at h
      · cases h
      · obtain rfl := Except.ok.inj h
        exact .inr ⟨_, rfl⟩
    · obtain rfl := Except.ok.inj h
      exact .inr ⟨_, rfl⟩

/-- Doing the first action of an agenda leaves an agenda in order. -/
theorem Next.arranged {next : List Action} (hn : Next e a next) (h : Arranged (a :: rest)) :
    Arranged (next ++ rest) := by
  have hr := h.unlocked
  have ht := h.tail
  have hf := h.fits
  have loose : ∀ {next : List Action}, next.all Action.isLoose = true → Arranged (next ++ rest) :=
    fun hn => .append hn hr ht
  cases hn with
  | nothing => exact ht
  | forbidden => exact loose rfl
  | load =>
    obtain rfl : rest = [] := hf
    exact .cons rfl rfl nofun (.of_loose rfl)
  | screen hadm =>
    obtain rfl := hf
    rcases admission_cases hadm with ⟨_, _, _, rfl⟩ | ⟨_, rfl⟩ <;> exact .cons rfl rfl nofun ht
  | reject => exact loose rfl
  | noChannel | select =>
    obtain rfl := hf
    exact .cons rfl rfl nofun ht
  | stale =>
    obtain rfl := hf
    exact .cons ⟨_, _, _, rfl⟩ rfl nofun (.cons rfl rfl nofun ht)
  | accept =>
    obtain rfl := hf
    exact .cons rfl rfl nofun ht
  | unrouted =>
    obtain rfl := hf
    exact .cons ⟨_, _, _, rfl⟩ rfl nofun (.cons rfl rfl nofun ht)
  | fan =>
    obtain rfl := hf
    refine .append_of_fits (fun b hb => ?_) hr ht
    obtain ⟨d, -, rfl⟩ := List.mem_map.mp hb
    exact ⟨fun xs => List.mem_append_right xs List.mem_cons_self, rfl, rfl⟩
  | alone | dropped | answered | awaitOut | send | tell | leave | awaitFree | install | disabled | register =>
    exact loose rfl
  | answer => exact arranged_answerSteps _ _ hr ht
  | letGo | close => exact loose (loose_frees _)
  | refused | faulty =>
    obtain rfl : rest = [] := hf
    rw [List.append_nil]
    exact arranged_building ..
  | check | draft | awaitCreate | attach | created =>
    obtain rfl : rest = [] := hf
    exact .cons rfl rfl nofun .nil
  | publish =>
    obtain rfl : rest = [] := hf
    rw [List.append_nil]
    exact arranged_publishing ..
  | abandon | notCreated =>
    obtain rfl : rest = [] := hf
    rw [List.append_nil]
    exact arranged_abandon ..
  | recalcAll =>
    have hunlock : Arranged (.unlockChannels :: rest) := .cons hf hr nofun ht
    rw [List.append_assoc]
    refine .append_of_fits (fun b hb => ?_) hr hunlock
    obtain ⟨c, -, rfl⟩ := List.mem_map.mp hb
    exact ⟨fun xs => List.mem_append_right xs (List.mem_cons_of_mem _ hf), rfl, rfl⟩
  | write => exact loose (by simp [Action.isLoose])

/-! ### One task at a time under the lock -/

theorem isGuarded_of_loose {next : List Action} (h : next.all Action.isLoose = true) :
    next.any Action.isGuarded = false :=
  List.any_eq_false.mpr fun b hb => by
    simp [Action.isGuarded_of_isLoose (List.all_eq_true.mp h b hb)]

theorem isGuarded_building (isReload : Bool) (outcome : Outcome) :
    (building isReload outcome).any Action.isGuarded = true := by
  cases isReload <;> rfl

theorem isGuarded_abandon (d : Draft) (isReload : Bool) (outcome : Outcome) :
    (abandon d isReload outcome).any Action.isGuarded = true := by
  rw [abandon, List.any_append, isGuarded_building, Bool.or_true]

theorem isLock_of_loose {next : List Action} (h : next.all Action.isLoose = true) :
    next.any Action.isLock = false :=
  List.any_eq_false.mpr fun b hb => by
    simp [Action.isLock_of_isLoose (List.all_eq_true.mp h b hb)]

theorem isLock_abandon (d : Draft) (isReload : Bool) (outcome : Outcome) :
    (abandon d isReload outcome).any Action.isLock = false := by
  rw [abandon, List.any_append, isLock_building, Bool.or_false]
  exact isLock_of_loose (loose_frees _)

/-- Work under the lock goes on under the lock until it is given back, and other work does not come to it. -/
theorem Next.isGuarded {next : List Action} (hn : Next e a next) (ha : a ≠ .unlockReload) :
    next.any Action.isGuarded = a.isGuarded := by
  cases hn with
  | nothing hend => cases a <;> first | rfl | exact absurd rfl ha | cases hend
  | screen hadm => rcases admission_cases hadm with ⟨_, _, _, rfl⟩ | ⟨_, rfl⟩ <;> rfl
  | fan => exact List.any_eq_false.mpr (by simp [Action.isGuarded])
  | @answer ack answer a => cases answer.result a.route <;> rfl
  | letGo | close => exact isGuarded_of_loose (loose_frees _)
  | refused | faulty => exact isGuarded_building ..
  | @publish d isReload => cases isReload <;> rfl
  | abandon | notCreated => exact isGuarded_abandon ..
  | recalcAll =>
    rw [List.any_append]
    simp [Action.isGuarded]
  | write => exact isGuarded_of_loose (by simp [Action.isLoose])
  | _ => rfl

/-- The task has taken the lock of reloads and not given it back. -/
def isInside : List Action → Bool
  | .lockReload :: _ => false
  | agenda => agenda.any Action.isGuarded

/-- Nobody is inside unless the lock is taken, and then one task is. -/
def Guarded (e : Engine) : Prop :=
  e.agendas.countP isInside = if e.reloadLocked then 1 else 0

theorem isInside_of_isLock {agenda : List Action} (h : agenda.any Action.isLock = false) :
    isInside agenda = agenda.any Action.isGuarded := by
  unfold isInside
  split
  · simp [Action.isLock] at h
  · rfl

theorem isInside_opening (h : Opening e agenda) : isInside agenda = false := by
  cases h <;> rfl

/-- No step puts the taking of the lock on an agenda. -/
theorem Next.isLock {next : List Action} (hn : Next e a next) : next.any Action.isLock = false := by
  cases hn with
  | screen hadm => rcases admission_cases hadm with ⟨_, _, _, rfl⟩ | ⟨_, rfl⟩ <;> rfl
  | fan => exact List.any_eq_false.mpr (by simp [Action.isLock])
  | @answer ack answer a => cases answer.result a.route <;> rfl
  | letGo | close => exact isLock_of_loose (loose_frees _)
  | refused | faulty => exact isLock_building ..
  | @publish d isReload => cases isReload <;> rfl
  | abandon | notCreated => exact isLock_abandon ..
  | recalcAll =>
    rw [List.any_append]
    simp [Action.isLock]
  | write => exact isLock_of_loose (by simp [Action.isLoose])
  | _ => rfl

/-- A task stays inside as long as it does not take the lock or give it back. -/
theorem Next.isInside {next : List Action} (hn : Next e a next) (h : Arranged (a :: rest))
    (hlock : a ≠ .lockReload) (hunlock : a ≠ .unlockReload) :
    Engine.isInside (next ++ rest) = Engine.isInside (a :: rest) := by
  have hfirst : a.isLock = false := by
    cases a <;> first | rfl | exact absurd rfl hlock
  have hbefore : (a :: rest).any Action.isLock = false := by
    rw [List.any_cons, hfirst, h.unlocked]
    rfl
  have hafter : (next ++ rest).any Action.isLock = false := by
    rw [List.any_append, hn.isLock, h.unlocked]
    rfl
  rw [isInside_of_isLock hbefore, isInside_of_isLock hafter, List.any_append, hn.isGuarded hunlock, List.any_cons]

/-- The agendas of a state are in order, and at most one task is under the lock. -/
structure Orderly (e : Engine) : Prop where
  arranged : ∀ agenda ∈ e.agendas, Arranged agenda
  guarded : Guarded e

theorem Orderly.start (setup : Setup) (files : File.Store) (config : Config) : Orderly (start setup files config) where
  arranged agenda h := by
    rw [List.mem_singleton.mp h]
    exact .cons rfl rfl nofun .nil
  guarded := rfl

namespace Orderly
variable {op : Op} {fx : List Effect} {es : List Event}

theorem begin_step {request : Request} (h : Orderly e) (hs : e.begin? request = some e') : Orderly e' := by
  obtain ⟨agenda, hopen, hagendas, hcalm⟩ := begin_cases hs
  refine ⟨fun x hx => ?_, ?_⟩
  · rw [hagendas] at hx
    rcases List.mem_append.mp hx with hx | hx
    · exact h.arranged x hx
    · rw [List.mem_singleton.mp hx]
      exact hopen.arranged
  · have hg := h.guarded
    unfold Guarded at hg ⊢
    rw [hagendas, hcalm.reloadLocked, List.countP_append, hg, List.countP_singleton, isInside_opening hopen]
    rfl

/-- The lock stays with who has it, but for those who take it or give it back. -/
theorem guarded_step (h : Orderly e) (hagenda : e.agendas[task]? = some (a :: rest))
    (hdoes : Does (e.setAgenda task rest) task a m) : Guarded (m.engine.setAgenda task (m.next ++ rest)) := by
  have harr := h.arranged _ (List.mem_of_getElem? hagenda)
  have hcount := countP_set (y := m.next ++ rest) isInside hagenda
  have hg := h.guarded
  have hagendas : (m.engine.setAgenda task (m.next ++ rest)).agendas = e.agendas.set task (m.next ++ rest) := by
    simp [setAgenda, hdoes.agendas]
  unfold Guarded at hg ⊢
  rw [hagendas]
  show _ = if m.engine.reloadLocked then 1 else 0
  by_cases hlock : a = .lockReload
  · subst hlock
    cases hdoes with
    | perform h =>
      obtain ⟨hfree, h⟩ := Option.ite_none_left_eq_some.mp h
      obtain rfl := Option.some.inj h
      have hfree : e.reloadLocked = false := by simpa using hfree
      have hin : isInside rest = true := by
        rcases harr.fits with ⟨config, rfl⟩ | rfl <;> rfl
      simp only [hfree, List.nil_append, hin] at hcount hg ⊢
      simpa [isInside, hg] using hcount
  · by_cases hunlock : a = .unlockReload
    · subst hunlock
      have hout : isInside rest = false := by
        rw [isInside_of_isLock harr.unlocked]
        cases harr with
        | cons _ _ last => exact last rfl
      cases hdoes with
      | perform h =>
        obtain rfl := Option.some.inj h
        have hin : isInside (Action.unlockReload :: rest) = true := rfl
        have hle : e.agendas.countP isInside ≤ 1 := by
          rw [hg]
          split <;> simp
        simp only [unlockReload, List.nil_append, hin, hout, if_true, Bool.false_eq_true, if_false] at hcount ⊢
        omega
    · rw [hdoes.next.isInside harr hlock hunlock] at hcount
      rw [hdoes.reloadLocked hlock hunlock]
      exact (Nat.add_right_cancel hcount).trans hg

theorem step (h : Orderly e) (hs : e.step? op = some (e', fx)) : Orderly e' := by
  rcases step_cases hs with ⟨request, -, hb, -⟩ | ⟨task, a, rest, m, -, hagenda, hdoes, rfl, -⟩
  · exact h.begin_step hb
  · have harr := h.arranged _ (List.mem_of_getElem? hagenda)
    refine ⟨fun x hx => ?_, h.guarded_step hagenda hdoes⟩
    have hx : x ∈ e.agendas.set task (m.next ++ rest) := by
      simpa [setAgenda, hdoes.agendas] using hx
    rcases List.mem_or_eq_of_mem_set hx with hx | rfl
    · exact h.arranged x hx
    · exact hdoes.next.arranged harr

theorem run (h : Orderly e) (hr : Run e es e') : Orderly e' := by
  induction hr with
  | refl => exact h
  | step _ hs ih => exact ih.step hs

/-- Two tasks are not under the lock at once. -/
theorem inside_unique (h : Orderly e) {i j : TaskId} {x y : List Action} (hi : e.agendas[i]? = some x)
    (hx : isInside x = true) (hj : e.agendas[j]? = some y) (hy : isInside y = true) : i = j := by
  by_cases hij : i = j
  · exact hij
  · have hcount := countP_set (y := []) isInside hi
    have hpos : 0 < (e.agendas.set i []).countP isInside := by
      refine List.countP_pos_iff.mpr ⟨y, List.mem_of_getElem? (i := j) ?_, hy⟩
      rw [List.getElem?_set_ne hij]
      exact hj
    have hle : e.agendas.countP isInside ≤ 1 := by
      rw [h.guarded]
      split <;> simp
    have hnil : isInside [] = false := rfl
    simp only [hx, hnil, if_true, Bool.false_eq_true, if_false] at hcount
    omega

end Orderly

/-! ### What stands first -/

/-- What every opening has and no step takes from an agenda is so of all agendas of a run. -/
theorem Run.agendas {P : List Action → Prop} {setup : Setup} {files : File.Store} {config : Config} {es : List Event}
    (h : Run (Engine.start setup files config) es e) (hstart : P [.build config false])
    (hopen : ∀ {e : Engine} {agenda : List Action}, Opening e agenda → P agenda)
    (hnext : ∀ {e : Engine} {a : Action} {next rest : List Action}, Next e a next → P (a :: rest) → P (next ++ rest)) :
    ∀ agenda ∈ e.agendas, P agenda := by
  induction h with
  | refl =>
    intro agenda hmem
    rwa [List.mem_singleton.mp hmem]
  | step _ hs ih =>
    intro agenda hmem
    rcases step_cases hs with ⟨request, -, hb, -⟩ | ⟨task, a, rest, m, -, hagenda, hdoes, rfl, -⟩
    · obtain ⟨opening, hopening, hagendas, -⟩ := begin_cases hb
      rw [hagendas] at hmem
      rcases List.mem_append.mp hmem with hmem | hmem
      · exact ih agenda hmem
      · rw [List.mem_singleton.mp hmem]
        exact hopen hopening
    · rw [agendas_setAgenda, hdoes.agendas, agendas_setAgenda, List.set_set] at hmem
      rcases List.mem_or_eq_of_mem_set hmem with hmem | rfl
      · exact ih agenda hmem
      · exact hnext hdoes.next (ih _ (List.mem_of_getElem? hagenda))

/-- The actions of this kind stand before all others of the agenda. -/
def Foremost (p : Action → Bool) (agenda : List Action) : Prop := (agenda.dropWhile p).any p = false

namespace Foremost
variable {p : Action → Bool} {next : List Action}

theorem of_none (h : agenda.any p = false) : Foremost p agenda := by
  refine List.any_eq_false.mpr fun b hb => ?_
  exact List.any_eq_false.mp h b ((List.dropWhile_sublist _).subset hb)

theorem append (hn : next.all p = true) (h : Foremost p rest) : Foremost p (next ++ rest) := by
  unfold Foremost
  rw [List.dropWhile_append_of_pos (List.all_eq_true.mp hn)]
  exact h

theorem cons_iff (ha : p a = true) : Foremost p (a :: rest) ↔ Foremost p rest := by
  rw [Foremost, List.dropWhile_cons_of_pos ha, Foremost]

theorem none_of_cons (h : Foremost p (a :: rest)) (ha : p a = false) : rest.any p = false := by
  rw [Foremost, List.dropWhile_cons_of_neg (by simp [ha]), List.any_cons, ha] at h
  exact h

end Foremost

end Engine

end LogDispatch
