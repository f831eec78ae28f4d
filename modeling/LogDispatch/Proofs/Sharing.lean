import LogDispatch.Proofs.Deeds
import LogDispatch.Proofs.Traffic

/-! Shared files of an engine. -/

namespace LogDispatch

/-- The file of a transport that has not been released. -/
def Transport.held? (t : Transport) : Option File.Outlet := if t.isFreed then none else t.outlet?

namespace Engine

/-- The files of the transports that have not been released. -/
def outlets (e : Engine) : List File.Outlet := e.transports.filterMap Transport.held?

section accounts
variable {e e' : Engine} {task : TaskId} {a : Action} {m : Move} {rest : List Action} {op : Op} {fx : List Effect}
  {es : List Event} {ev : Event} {setup : Setup} {files : File.Store} {config : Config}

@[simp] theorem held?_retired (t : Transport) : t.retired.held? = none := by
  unfold Transport.retired
  split <;> rfl

@[simp] theorem isFreed_retired (t : Transport) : t.retired.isFreed = true := by
  unfold Transport.retired
  split <;> rfl

theorem share_retired {t : Transport} : t.retired.outlet?.map File.Outlet.share = t.outlet?.map File.Outlet.share := by
  obtain ⟨device, isFreed⟩ := t
  cases device <;> rfl

theorem marked_retired {t : Transport} {outlet : File.Outlet} (h : t.retired.outlet? = some outlet) :
    outlet.isReleased = t.retired.isFreed := by
  unfold Transport.retired Transport.outlet? at *
  split at h
  · rename_i outlet' hdevice
    split at hdevice
    · obtain rfl := Option.some.inj h
      obtain rfl := Device.file.inj hdevice
      rfl
    · rename_i hno
      exact absurd hdevice (hno _)
  · cases h

/-- A list cut open at one of its places. -/
theorem exists_split {α : Type} {xs : List α} {i : Nat} {x : α} (h : xs[i]? = some x) :
    ∃ before after, xs = before ++ x :: after ∧ ∀ y, xs.set i y = before ++ y :: after := by
  obtain ⟨hi, rfl⟩ := List.getElem?_eq_some_iff.mp h
  refine ⟨xs.take i, xs.drop (i + 1), ?_, fun y => ?_⟩
  · rw [List.getElem_cons_drop, List.take_append_drop]
  · rw [List.set_eq_take_append_cons_drop, if_pos hi]

/-- An event releases a transport if and only if it does so by the action for that. -/
theorem countP_isFree_step (hs : e.step? op = some (e', fx)) (i : TransportId) :
    ((∃ route, Event.action? ⟨e, op, e', fx⟩ = some (.free route i)) ∧ fx.countP (Effect.isFree i) = 1) ∨
      ((∀ route, Event.action? ⟨e, op, e', fx⟩ ≠ some (.free route i)) ∧ fx.countP (Effect.isFree i) = 0) := by
  rcases step_cases hs with ⟨request, rfl, -, rfl⟩ | ⟨task, a, rest, m, htask, hagenda, hdoes, rfl, rfl⟩
  · exact .inr ⟨nofun, rfl⟩
  · have haction : Event.action? ⟨e, op, m.engine.setAgenda task (m.next ++ rest), m.effects⟩ = some a :=
      action?_of_task htask hagenda
    rw [haction]
    by_cases ha : ∃ route, a = .free route i
    · obtain ⟨route, rfl⟩ := ha
      exact .inl ⟨⟨route, rfl⟩, by rw [(does_free hdoes).1, if_pos rfl]⟩
    · refine .inr ⟨fun route h => ha ⟨route, Option.some.inj h⟩, ?_⟩
      cases a with
      | free route i' =>
        have hne : i' ≠ i := fun heq => ha ⟨route, by rw [heq]⟩
        rw [(does_free hdoes).1, if_neg hne]
      | _ => exact hdoes.countP_isFree nofun

/-- What the engine knows of its transports: which have been released, and who shares which file. -/
structure Lends (es : List Event) (e : Engine) : Prop where
  accounts : e.files.Accounts e.outlets
  released : ∀ (i : TransportId) (t : Transport), e.transports[i]? = some t →
    (t.isFreed = true ↔ releases i es = 1)
  marked : ∀ (i : TransportId) (t : Transport) (outlet : File.Outlet), e.transports[i]? = some t →
    t.outlet? = some outlet → outlet.isReleased = t.isFreed

theorem Lends.start (hfiles : files.Unshared) : Lends [] (start setup files config) where
  accounts := .start hfiles
  released _ _ h := by cases h
  marked _ _ _ h := by cases h

theorem releases_eq_zero_of_length {i : TransportId} (h : Run (Engine.start setup files config) es e)
    (hi : e.transports.length ≤ i) : releases i es = 0 := by
  have hlaw := custody_run h i
  rw [isMade, if_neg (Nat.not_lt_of_ge hi)] at hlaw
  omega

/-- Transports that are neither made nor released are as before. -/
theorem Lends.quiet (h : Lends es e) (hs : e.step? op = some (e', fx)) (htransports : e'.transports = e.transports)
    (hnone : ∀ route i, Event.action? ⟨e, op, e', fx⟩ = some (.free route i) → e.transports[i]? = none)
    (haccounts : e'.files.Accounts e.outlets) : Lends (es ++ [⟨e, op, e', fx⟩]) e' := by
  refine ⟨?_, fun i t ht => ?_, ?_⟩
  · rw [outlets, htransports]
    exact haccounts
  · rw [htransports] at ht
    rcases countP_isFree_step hs i with ⟨⟨route, hfree⟩, -⟩ | ⟨-, hzero⟩
    · rw [hnone route i hfree] at ht
      cases ht
    · rw [releases_concat, hzero]
      exact h.released i t ht
  · rw [htransports]
    exact h.marked

theorem Lends.makes {d : Draft} {device : Device} (hr : Run (Engine.start setup files config) es e)
    (h : Lends es e) (hs : e.step? op = some (e', fx)) (ha : Event.action? ⟨e, op, e', fx⟩ = some a)
    (hmaking : isMaking a = true) (hcrafts : Crafts e.setup e.files d device e'.files)
    (htransports : e'.transports = e.transports ++ [({ device } : Transport)]) : Lends (es ++ [⟨e, op, e', fx⟩]) e' := by
  have hzero : ∀ i, fx.countP (Effect.isFree i) = 0 := by
    intro i
    rcases countP_isFree_step hs i with ⟨⟨route, hfree⟩, -⟩ | ⟨-, hzero⟩
    · obtain rfl := Option.some.inj (ha.symm.trans hfree)
      cases hmaking
    · exact hzero
  refine ⟨?_, fun i t ht => ?_, fun i t outlet ht houtlet => ?_⟩
  · rw [outlets, htransports, List.filterMap_append]
    generalize e'.files = files' at hcrafts
    cases hcrafts with
    | console | custom => exact (List.append_nil _).symm ▸ h.accounts
    | file _ _ _ _ hcreate => exact h.accounts.create hcreate
  · rw [htransports] at ht
    rw [releases_concat, hzero, Nat.add_zero]
    rcases getElem?_concat_eq_some ht with ⟨rfl, rfl⟩ | ht
    · rw [releases_eq_zero_of_length hr (Nat.le_refl _)]
      exact ⟨nofun, nofun⟩
    · exact h.released i t ht
  · rw [htransports] at ht
    rcases getElem?_concat_eq_some ht with ⟨rfl, rfl⟩ | ht
    · generalize e'.files = files' at hcrafts
      cases hcrafts with
      | console | custom => cases houtlet
      | file _ _ _ _ hcreate =>
        obtain rfl := Option.some.inj houtlet
        exact File.Store.isReleased_create hcreate
    · exact h.marked i t outlet ht houtlet

theorem Lends.frees {route : String} {i : TransportId} {t : Transport} (hr : Run (Engine.start setup files config) es e)
    (h : Lends es e) (hs : e.step? op = some (e', fx)) (ha : Event.action? ⟨e, op, e', fx⟩ = some (.free route i))
    (ht : e.transports[i]? = some t) (hfiles : e'.files = e.files.retire t)
    (htransports : e'.transports = e.transports.set i t.retired) : Lends (es ++ [⟨e, op, e', fx⟩]) e' := by
  have hone : fx.countP (Effect.isFree i) = 1 := by
    rcases countP_isFree_step hs i with ⟨-, hone⟩ | ⟨hnot, -⟩
    · exact hone
    · exact absurd ha (hnot route)
  have hother : ∀ j, j ≠ i → fx.countP (Effect.isFree j) = 0 := by
    intro j hj
    rcases countP_isFree_step hs j with ⟨⟨route', hfree⟩, -⟩ | ⟨-, hzero⟩
    · exact absurd (Action.free.inj (Option.some.inj (ha.symm.trans hfree))).2.symm hj
    · exact hzero
  -- A transport is released once, so this one has not been.
  have hunfreed : t.isFreed = false := by
    have hle := releases_le_one (hr.step hs) i
    rw [releases_concat, hone] at hle
    rw [Bool.eq_false_iff]
    intro hfreed
    rw [(h.released i t ht).mp hfreed] at hle
    omega
  refine ⟨?_, fun j x hx => ?_, fun j x outlet hx houtlet => ?_⟩
  · obtain ⟨before, after, hsplit, hset⟩ := exists_split ht
    have haccounts := h.accounts
    rw [outlets, hsplit, List.filterMap_append, List.filterMap_cons] at haccounts
    rw [outlets, hfiles, htransports, hset, List.filterMap_append, List.filterMap_cons, held?_retired]
    unfold File.Store.retire
    unfold Transport.held? at haccounts
    rw [hunfreed] at haccounts
    cases houtlet : t.outlet? with
    | none =>
      rw [houtlet] at haccounts
      exact haccounts
    | some outlet =>
      rw [houtlet] at haccounts
      exact (haccounts.perm List.perm_middle).release
  · rw [releases_concat]
    rw [htransports, List.getElem?_set] at hx
    split at hx
    · rename_i hij
      subst hij
      split at hx
      · obtain rfl := Option.some.inj hx
        have hnot : releases i es ≠ 1 := fun heq => by
          rw [(h.released i t ht).mpr heq] at hunfreed
          cases hunfreed
        have hle := releases_le_one hr i
        simp only [isFreed_retired, true_iff]
        omega
      · cases hx
    · rename_i hij
      rw [hother j (Ne.symm hij), Nat.add_zero]
      exact h.released j x hx
  · rw [htransports, List.getElem?_set] at hx
    split at hx
    · split at hx
      · obtain rfl := Option.some.inj hx
        exact marked_retired houtlet
      · cases hx
    · exact h.marked j x outlet hx houtlet

theorem Lends.step (hr : Run (Engine.start setup files config) es e) (h : Lends es e) (hs : e.step? op = some (e', fx)) :
    Lends (es ++ [⟨e, op, e', fx⟩]) e' := by
  cases traffic hs with
  | quiet _ hnone hfiles htransports => exact h.quiet hs htransports hnone (hfiles ▸ h.accounts)
  | takes hop htake _ htransports =>
    dsimp only at hop
    subst hop
    exact h.quiet hs htransports nofun (h.accounts.works (.take htake))
  | sends ha hfiles htransports =>
    refine h.quiet hs htransports (fun _ _ hfree => ?_) (hfiles ▸ h.accounts.works (.send _ _))
    cases ha.symm.trans hfree
  | writes ha hfiles htransports =>
    refine h.quiet hs htransports (fun _ _ hfree => ?_) (hfiles ▸ h.accounts.works (.write _ _))
    cases ha.symm.trans hfree
  | rests ha hfiles htransports =>
    refine h.quiet hs htransports (fun _ _ hfree => ?_) (hfiles ▸ h.accounts.works (.rest _))
    cases ha.symm.trans hfree
  | makes ha hmaking hcrafts htransports => exact h.makes hr hs ha hmaking hcrafts htransports
  | frees ha ht hfiles htransports => exact h.frees hr hs ha ht hfiles htransports

/-- At any time the tables know who shares which file. -/
theorem Run.lends (hfiles : files.Unshared) (h : Run (Engine.start setup files config) es e) : Lends es e := by
  induction h with
  | refl => exact .start hfiles
  | step hr hs ih => exact ih.step hr hs

end accounts

/-! ### A file that goes on to be streamed to -/

/-- The live generation has a route that streams to the path of this key. -/
def Streams (e : Engine) (table : Nat) (key : String) : Prop :=
  ∃ g ∈ e.live, ∃ r ∈ g.routes, ∃ t ∈ e.transports[r.transport]?, ∃ o ∈ t.outlet?, o.share = some ⟨table, key⟩

instance (e : Engine) (table : Nat) (key : String) : Decidable (e.Streams table key) :=
  inferInstanceAs (Decidable (∃ g ∈ e.live, _))

/-- The states that a run goes through. -/
def states (es : List Event) (e : Engine) : List Engine := es.map Event.before ++ [e]

section streaming
variable {e e' : Engine} {op : Op} {fx : List Effect} {es es' : List Event} {setup : Setup} {files : File.Store}
  {config : Config} {table : Nat} {key : String}

/-- As long as the engine is open, somebody shares the files that the live generation streams to. -/
theorem Streams.shares_pos (hfiles : files.Unshared) (h : Run (start setup files config) es e)
    (hopen : e.isClosed = false) (hs : e.Streams table key) : 0 < File.Store.shares table key e.outlets := by
  obtain ⟨g, hlive, r, hr, t, ht, o, ho, hshare⟩ := hs
  have hl := (Lineage.start setup files config).run (.start setup files config) h
  have hzero : releases r.transport es = 0 :=
    releases_of_holds h hopen (hl.live g hlive) (.inl hlive) ⟨r, hr, rfl⟩
  have hunfreed : t.isFreed = false := by
    rw [Bool.eq_false_iff]
    intro hfreed
    rw [((h.lends hfiles).released _ t ht).mp hfreed] at hzero
    cases hzero
  refine File.Store.shares_pos (o := o) (List.mem_filterMap.mpr ⟨t, List.mem_of_getElem? ht, ?_⟩) hshare
  rw [Transport.held?, hunfreed]
  exact ho

/-- An event does not make transports and release others at once. -/
theorem outlets_step (hs : e.step? op = some (e', fx)) :
    (∀ o ∈ e.outlets, o ∈ e'.outlets) ∨ ∀ o ∈ e'.outlets, o ∈ e.outlets := by
  have same : e'.transports = e.transports → ∀ o ∈ e.outlets, o ∈ e'.outlets := fun htransports o ho => by
    rw [outlets, htransports]
    exact ho
  cases traffic hs with
  | quiet _ _ _ htransports | takes _ _ _ htransports | sends _ _ htransports | writes _ _ htransports
  | rests _ _ htransports => exact .inl (same htransports)
  | makes _ _ _ htransports =>
    refine .inl fun o ho => ?_
    rw [outlets, htransports, List.filterMap_append]
    exact List.mem_append_left _ ho
  | @frees _ i t _ ht _ htransports =>
    refine .inr fun o ho => ?_
    obtain ⟨before, after, hsplit, hset⟩ := exists_split ht
    rw [outlets, htransports, hset, List.filterMap_append, List.filterMap_cons, held?_retired] at ho
    rw [outlets, hsplit, List.filterMap_append, List.filterMap_cons]
    rcases List.mem_append.mp ho with ho | ho
    · exact List.mem_append_left _ ho
    · refine List.mem_append_right _ ?_
      cases t.held? with
      | none => exact ho
      | some _ => exact List.mem_cons_of_mem _ ho

/-- A file that is shared before and after an event has the same writer. -/
theorem writer_step (h : e.files.Accounts e.outlets) (h' : e'.files.Accounts e'.outlets)
    (hs : e.step? op = some (e', fx)) (hpos : 0 < File.Store.shares table key e.outlets)
    (hpos' : 0 < File.Store.shares table key e'.outlets) :
    ∃ w, (e.files.tables table).get? key = some ⟨w, File.Store.shares table key e.outlets⟩ ∧
      (e'.files.tables table).get? key = some ⟨w, File.Store.shares table key e'.outlets⟩ := by
  obtain ⟨w, hget, hsame⟩ := h.opened table key hpos
  obtain ⟨w', hget', hsame'⟩ := h'.opened table key hpos'
  -- One who shares the file does so before and after.
  obtain ⟨o, ho, ho', hshare⟩ : ∃ o, o ∈ e.outlets ∧ o ∈ e'.outlets ∧ o.share = some ⟨table, key⟩ := by
    rcases outlets_step hs with hmore | hless
    · obtain ⟨o, ho, hshare⟩ := File.Store.shares_pos_iff.mp hpos
      exact ⟨o, ho, hmore o ho, hshare⟩
    · obtain ⟨o, ho, hshare⟩ := File.Store.shares_pos_iff.mp hpos'
      exact ⟨o, hless o ho, ho, hshare⟩
  obtain rfl : w = w' := (hsame o ho hshare).symm.trans (hsame' o ho' hshare)
  exact ⟨w, hget, hget'⟩

/-- The writers of an engine go on. -/
theorem continues_step (hs : e.step? op = some (e', fx)) : e.files.Continues e'.files := by
  cases traffic hs with
  | quiet _ _ hfiles => exact hfiles ▸ .refl _
  | takes _ htake => exact (File.Store.Works.take htake).continues
  | sends _ hfiles => exact hfiles ▸ (File.Store.Works.send _ _).continues
  | writes _ hfiles => exact hfiles ▸ (File.Store.Works.write _ _).continues
  | rests _ hfiles => exact hfiles ▸ (File.Store.Works.rest _).continues
  | makes _ _ hcrafts =>
    generalize e'.files = files' at hcrafts
    cases hcrafts with
    | console | custom => exact .refl _
    | file _ _ _ _ hcreate => exact File.Store.continues_create hcreate
  | frees _ _ hfiles =>
    rw [hfiles]
    unfold File.Store.retire
    split
    · exact File.Store.continues_release _
    · exact .refl _

theorem Run.continues (h : Run e es e') : e.files.Continues e'.files := by
  induction h with
  | refl => exact .refl _
  | step _ hs ih => exact ih.trans (continues_step hs)

/-- A file that the live generations stream to all the time has one writer all the time. -/
theorem writer_kept (hfiles : files.Unshared) (h : Run (start setup files config) es e) (hr : Run e es' e')
    (hopen : e'.isClosed = false) (hstreams : ∀ x ∈ states es' e', x.Streams table key) :
    ∃ w, ∀ x ∈ states es' e', (x.files.tables table).get? key =
      some ⟨w, File.Store.shares table key x.outlets⟩ := by
  induction hr with
  | refl =>
    have hpos := (hstreams e (by simp [states])).shares_pos hfiles h hopen
    obtain ⟨w, hget, -⟩ := (h.lends hfiles).accounts.opened table key hpos
    refine ⟨w, fun x hx => ?_⟩
    obtain rfl : x = e := by simpa [states] using hx
    exact hget
  | @step es' e₁ e₂ op fx hr hs ih =>
    have hopen₁ : e₁.isClosed = false := (Run.single hs).isClosed hopen
    have hbefore : ∀ x ∈ states es' e₁, x.Streams table key := fun x hx => hstreams x (by
      simp only [states, List.map_append, List.map_cons, List.map_nil] at hx ⊢
      exact List.mem_append_left _ hx)
    obtain ⟨w, hw⟩ := ih hopen₁ hbefore
    have hpos₁ := (hbefore e₁ (by simp [states])).shares_pos hfiles (h.trans hr) hopen₁
    have hpos₂ := (hstreams e₂ (by simp [states])).shares_pos hfiles ((h.trans hr).step hs) hopen
    have haccounts₁ := ((h.trans hr).lends hfiles).accounts
    have haccounts₂ := (((h.trans hr).step hs).lends hfiles).accounts
    obtain ⟨w', hget₁, hget₂⟩ := writer_step haccounts₁ haccounts₂ hs hpos₁ hpos₂
    have hsame := (hw e₁ (by simp [states])).symm.trans hget₁
    obtain rfl : w = w' := congrArg File.Shared.writer (Option.some.inj hsame)
    refine ⟨w, fun x hx => ?_⟩
    simp only [states, List.map_append, List.map_cons, List.map_nil] at hx
    rcases List.mem_append.mp hx with hx | hx
    · exact hw x hx
    · rw [List.mem_singleton.mp hx]
      exact hget₂

end streaming

end Engine

end LogDispatch
