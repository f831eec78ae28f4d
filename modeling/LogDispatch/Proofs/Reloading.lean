import LogDispatch.Proofs.Calls
import LogDispatch.Proofs.Tally
import Mathlib.Algebra.Order.Group.Int

/-! The way of a reload. Only reloads count one (`Run.countP_reloaded_other`). A reload ends once, and returns without
    an error if and only if it has been counted (`Run.reloaded`). -/

namespace LogDispatch

/-- Whether the generation that an action has a part in making is that of a reload. -/
def Action.isReload? : Action → Option Bool
  | .checkReload _ | .countReload => some true
  | .build _ isReload | .make _ isReload | .awaitCreate _ _ _ isReload => some isReload
  | _ => none

/-- The action is one of a reload, from its beginning to its end. -/
def Action.isOfReload (a : Action) : Bool := a.isReload? != some false && !a.isOfCall

/-- The task ends with the action, or with what comes of it. -/
def Action.isLasting : Action → Bool
  | .load _ | .register .. | .checkReload _ | .build .. | .make .. | .awaitCreate .. | .finish _ => true
  | _ => false

def Action.isFinish : Action → Bool
  | .finish _ => true
  | _ => false

namespace Engine
variable {e e' : Engine} {task : TaskId} {a : Action} {m : Move} {op : Op} {fx : List Effect} {es : List Event}
  {rest next agenda : List Action}

theorem isReload?_building {isReload : Bool} {outcome : Outcome} {b : Action} (hb : b ∈ building isReload outcome) :
    b.isReload? = none := by
  cases isReload <;> simp [building] at hb
  · rcases hb with rfl | rfl <;> rfl
  · rcases hb with rfl | rfl | rfl <;> rfl

theorem isReload?_frees {routes : List Route} {b : Action} (hb : b ∈ frees routes) : b.isReload? = none := by
  obtain ⟨r, -, rfl⟩ := List.mem_map.mp hb
  rfl

/-- What is part of a reload comes of what is part of one. -/
theorem Next.isReload? (hn : Next e a next) {b : Action} (hb : b ∈ next) :
    b.isReload? = none ∨ b.isReload? = a.isReload? := by
  cases hn with
  | nothing => cases hb
  | screen hadmission =>
    rw [List.mem_singleton.mp hb]
    rcases admission_cases hadmission with ⟨_, _, _, rfl⟩ | ⟨_, rfl⟩ <;> exact .inl rfl
  | fan =>
    obtain ⟨d, -, rfl⟩ := List.mem_map.mp hb
    exact .inl rfl
  | @answer ack answer x =>
    cases hresult : answer.result x.route <;> rw [hresult] at hb <;> simp [answerSteps] at hb
    · rcases hb with rfl | rfl | rfl <;> exact .inl rfl
    · rcases hb with rfl | rfl <;> exact .inl rfl
  | letGo | close => exact .inl (isReload?_frees hb)
  | refused | faulty => exact .inl (isReload?_building hb)
  | abandon | notCreated =>
    rcases List.mem_append.mp hb with hb | hb
    · exact .inl (isReload?_frees hb)
    · exact .inl (isReload?_building hb)
  | @publish d isReload =>
    cases isReload with
    | false =>
      rcases List.mem_cons.mp hb with rfl | hb
      · exact .inl rfl
      · exact .inl (isReload?_building hb)
    | true =>
      simp [publishing] at hb
      rcases hb with rfl | rfl | rfl | rfl | hb
      · exact .inl rfl
      · exact .inl rfl
      · exact .inr rfl
      · exact .inl rfl
      · exact .inl (isReload?_building hb)
  | recalcAll =>
    rcases List.mem_append.mp hb with hb | hb
    · obtain ⟨c, -, rfl⟩ := List.mem_map.mp hb
      exact .inl rfl
    · rw [List.mem_singleton.mp hb]
      exact .inl rfl
  | write =>
    obtain ⟨x, -, rfl⟩ := List.mem_map.mp hb
    exact .inl rfl
  | check | draft | awaitCreate | attach | created =>
    rw [List.mem_singleton.mp hb]
    exact .inr rfl
  | forbidden | load | reject | noChannel | select | stale | accept | unrouted | alone | dropped | answered | awaitOut
  | send | tell | leave | awaitFree | install | disabled | register =>
    simp [leaving, logged] at hb
    rcases hb with rfl | rfl | rfl | rfl <;> exact .inl rfl

theorem closed_isOfReload : Closed Action.isOfReload := by
  intro e a next hn ha
  simp only [Action.isOfReload, Bool.and_eq_true, bne_iff_ne, Bool.not_eq_true'] at ha
  have hcalls := List.any_eq_false.mp (hn.isOfCall ha.2)
  refine List.all_eq_true.mpr fun b hb => ?_
  simp only [Action.isOfReload, Bool.and_eq_true, bne_iff_ne, Bool.not_eq_true']
  refine ⟨?_, by simpa using hcalls b hb⟩
  rcases hn.isReload? hb with hnone | hsame
  · simp [hnone]
  · rw [hsame]
    exact ha.1

theorem closed_notReload : Closed fun a => a.isReload? != some true := by
  intro e a next hn ha
  refine List.all_eq_true.mpr fun b hb => ?_
  rcases hn.isReload? hb with hnone | hsame
  · simp [hnone]
  · rwa [hsame]

/-! ### Balances of a task -/

/-- What the actions of a kind weigh on an agenda is brought bit by bit as they are done. -/
theorem Closed.weigh {M : Type} [AddCommMonoid M] {kind : Action → Bool} {bring w : Action → M} (hc : Closed kind)
    (h : ∀ {e : Engine} {a : Action} {next : List Action}, Next e a next → kind a = true →
      w a = bring a + Engine.weigh w next)
    (hr : Run e es e') (hagenda : e.agendas[task]? = some agenda) (hkind : agenda.all kind = true) :
    ∃ agenda', e'.agendas[task]? = some agenda' ∧
      Engine.weigh bring (deeds task es) + Engine.weigh w agenda' = Engine.weigh w agenda := by
  refine (hr.task_induction (P := fun done left => left.all kind = true ∧
    Engine.weigh bring done + Engine.weigh w left = Engine.weigh w agenda) hagenda ⟨hkind, zero_add _⟩ ?_).imp
    fun agenda' hend => ⟨hend.1, hend.2.2⟩
  rintro e a next rest done hn ⟨hleft, hsum⟩
  rw [List.all_cons, Bool.and_eq_true] at hleft
  constructor
  · rw [List.all_append, hc hn hleft.1, hleft.2]
    rfl
  · rw [← hsum, weigh_append, weigh_append, weigh_cons, weigh_nil, weigh_cons, h hn hleft.1]
    ac_rfl

/-- One for an action that counts a reload, less one for an action by which a task returns. -/
def reloadBalance (a : Action) : Int :=
  match a with
  | .countReload => 1
  | .finish .done => -1
  | _ => 0

/-- One for an action that is the end of its task or leads to it. -/
def lasting (a : Action) : Nat := if a.isLasting then 1 else 0

def finishing (a : Action) : Nat := if a.isFinish then 1 else 0

theorem reloadBalance_of_outcome {outcome : Outcome} (h : outcome ≠ .done) : reloadBalance (.finish outcome) = 0 := by
  cases outcome <;> first | rfl | exact absurd rfl h

theorem weigh_map_eq_zero {M α : Type} [AddCommMonoid M] {w : Action → M} {f : α → Action} (h : ∀ x, w (f x) = 0)
    (xs : List α) : weigh w (xs.map f) = 0 := by
  refine weigh_eq_zero fun a ha => ?_
  obtain ⟨x, -, rfl⟩ := List.mem_map.mp ha
  exact h x

/-- What comes of an action of a reload counts as often as it returns. -/
theorem Next.reloadBalance (hn : Next e a next) (ha : a.isOfReload = true) : weigh reloadBalance next = 0 := by
  have hbuilding : ∀ {isReload outcome}, outcome ≠ .done →
      weigh Engine.reloadBalance (building isReload outcome) = 0 := by
    intro isReload outcome houtcome
    cases isReload <;> simp [building, reloadBalance_of_outcome houtcome] <;> rfl
  have hfrees : ∀ routes, weigh Engine.reloadBalance (frees routes) = 0 := weigh_map_eq_zero fun _ => rfl
  cases hn with
  | nothing => rfl
  | @answer ack answer x => cases answer.result x.route <;> rfl
  | letGo | close => exact hfrees _
  | refused | faulty => exact hbuilding fun hdone => by cases hdone
  | abandon houtcome | notCreated houtcome =>
    rw [Engine.abandon, weigh_append, hbuilding houtcome, add_zero]
    exact hfrees _
  | @publish d isReload =>
    cases isReload with
    | false => simp [Action.isOfReload, Action.isReload?] at ha
    | true => rfl
  | recalcAll =>
    rw [weigh_append, weigh_map_eq_zero fun _ => rfl]
    rfl
  | write => exact weigh_map_eq_zero (fun _ => rfl) _
  | forbidden | load | screen | reject | noChannel | select | stale | accept | unrouted | fan | alone | dropped
  | answered | awaitOut | send => simp [Action.isOfReload, Action.isOfCall] at ha
  | tell | leave | awaitFree | check | draft | awaitCreate | attach | created | install | disabled | register => rfl

/-- Every task ends once: what comes of an action that leads to the end of its task does so, too. -/
theorem Next.lasting (hn : Next e a next) : Engine.lasting a = finishing a + weigh Engine.lasting next := by
  have hbuilding : ∀ isReload outcome, weigh Engine.lasting (building isReload outcome) = 1 := by
    intro isReload outcome
    cases isReload <;> rfl
  have hfrees : ∀ routes, weigh Engine.lasting (frees routes) = 0 := weigh_map_eq_zero fun _ => rfl
  cases hn with
  | nothing hend => cases a <;> first | rfl | cases hend
  | screen hadmission => rcases admission_cases hadmission with ⟨_, _, _, rfl⟩ | ⟨_, rfl⟩ <;> rfl
  | fan =>
    rw [weigh_map_eq_zero fun _ => rfl]
    rfl
  | @answer ack answer x => cases answer.result x.route <;> rfl
  | letGo | close =>
    rw [hfrees]
    rfl
  | refused | faulty =>
    rw [hbuilding]
    rfl
  | abandon | notCreated =>
    rw [Engine.abandon, weigh_append, hbuilding]
    show 1 = 0 + (weigh Engine.lasting (frees _) + 1)
    rw [hfrees]
  | @publish d isReload => cases isReload <;> rfl
  | recalcAll =>
    rw [weigh_append, weigh_map_eq_zero fun _ => rfl]
    rfl
  | write =>
    rw [weigh_map_eq_zero fun _ => rfl]
    rfl
  | _ => rfl

theorem weigh_reloadBalance (as : List Action) : weigh reloadBalance as =
    (as.filterMap Action.turn?).countP Turn.isReloaded - (as.filterMap Action.turn?).countP Turn.isReturn := by
  induction as with
  | nil => rfl
  | cons a as ih =>
    rw [weigh_cons, ih, List.filterMap_cons]
    cases a with
    | finish outcome =>
      cases outcome <;> simp [reloadBalance, Action.turn?, Turn.isReloaded, Turn.isReturn, List.countP_cons]
      omega
    | countReload =>
      simp [reloadBalance, Action.turn?, Turn.isReloaded, Turn.isReturn, List.countP_cons]
      omega
    | _ => simp [reloadBalance, Action.turn?, Turn.isReloaded, Turn.isReturn]

theorem countP_returns_le (as : List Action) :
    (as.filterMap Action.turn?).countP Turn.isReturn ≤ weigh finishing as := by
  induction as with
  | nil => exact Nat.le_refl 0
  | cons a as ih =>
    rw [weigh_cons, List.filterMap_cons]
    cases a with
    | finish outcome =>
      cases outcome <;> simp [finishing, Action.isFinish, Action.turn?, Turn.isReturn, List.countP_cons] <;> omega
    | _ => simpa [finishing, Action.isFinish, Action.turn?, Turn.isReturn, List.countP_cons] using ih

theorem weigh_finishing_le (as : List Action) : weigh finishing as ≤ weigh lasting as := by
  refine List.sum_le_sum fun a _ => ?_
  cases a <;> exact Nat.le_of_ble_eq_true rfl

section
variable {setup : Setup} {files : File.Store} {config : Config}

/-- A reload is counted once at most, and returns once at most; when it is over it was counted if and only if it has
    returned. -/
theorem Run.reloaded {newer : Config} (h : Run (start setup files config) es e)
    (ht : request? es task = some (.reload newer)) (hagenda : e.agendas[task]? = some agenda) :
    (turns task es).countP Turn.isReloaded ≤ 1 ∧
      (agenda = [] → (turns task es).countP Turn.isReloaded = (turns task es).countP Turn.isReturn) := by
  obtain ⟨earlier, later, e₁, _, rfl, -, hlater, hidle, ⟨⟩, hopening⟩ := h.begun ht
  have hturns : turns task (earlier ++ later) = (deeds task later).filterMap Action.turn? := by
    rw [turns, deeds_append, hidle, List.nil_append]
  have hclosed : Closed Action.isOfReload := closed_isOfReload
  have hall : Closed fun _ => true := fun _ _ => by simp
  obtain ⟨agenda₁, hagenda₁, hbalance⟩ :=
    hclosed.weigh (fun hn ha => by rw [hn.reloadBalance ha, add_zero]) hlater hopening rfl
  obtain ⟨agenda₂, hagenda₂, honce⟩ := hall.weigh (fun hn _ => hn.lasting) hlater hopening rfl
  obtain rfl := Option.some.inj (hagenda₁.symm.trans hagenda)
  obtain rfl := Option.some.inj (hagenda₂.symm.trans hagenda₁)
  have hstart : weigh reloadBalance [.lockReload, .checkReload newer] = 0 := rfl
  have hlasting : weigh lasting [.lockReload, .checkReload newer] = 1 := rfl
  rw [weigh_reloadBalance, weigh_reloadBalance, hstart] at hbalance
  rw [hlasting] at honce
  have hdone := countP_returns_le (deeds task later)
  have hleft := Nat.le_trans (countP_returns_le agenda₂) (weigh_finishing_le agenda₂)
  rw [hturns]
  refine ⟨by omega, ?_⟩
  rintro rfl
  simp at hbalance
  omega

/-- No other task counts a reload. -/
theorem Run.countP_reloaded_other (h : Run (start setup files config) es e) (hagenda : e.agendas[task]? = some agenda)
    (hno : ∀ newer, request? es task ≠ some (.reload newer)) : (turns task es).countP Turn.isReloaded = 0 := by
  have hclosed : Closed fun a => a.isReload? != some true := closed_notReload
  obtain ⟨-, hdone⟩ := hclosed.of_begins h hagenda rfl fun hrequest hbegins => by
    cases hbegins with
    | reload newer => exact absurd hrequest (hno newer)
    | _ => rfl
  refine List.countP_eq_zero.mpr fun τ hτ hreloaded => ?_
  obtain ⟨a, ha, heq⟩ := List.mem_filterMap.mp hτ
  have hkind := List.all_eq_true.mp hdone a ha
  cases a with
  | countReload => cases hkind
  | accept | reject | finish =>
    obtain rfl := Option.some.inj heq
    cases hreloaded
  | _ => cases heq

end

end Engine

end LogDispatch
