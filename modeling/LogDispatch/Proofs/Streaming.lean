import LogDispatch.Proofs.Progress

/-! Streamed files over the life of an engine. The tables count who streams to a path at any time, and a file that the
    live generation goes on to stream to is neither closed nor opened again meanwhile (`streamed_files_shared`). Files
    are told apart by the spelling of their paths, so one that is reached in two ways can be emptied by a reload
    (`streamed_file_emptied`). -/

namespace LogDispatch

namespace File

/-! ### What becomes of the files of a disk -/

/-- A file of this name does not go away, and does not become shorter. -/
def Disk.Keeps (name : String) (d d' : Disk) : Prop :=
  ∀ entry, d.files.get? name = some entry →
    ∃ entry', d'.files.get? name = some entry' ∧ entry.content.length ≤ entry'.content.length

section keeps
variable {d d' : Disk} {name : String} {path : Path} {mode : Nat} {target : Disk.Target} {batch : List Job}

namespace Disk

theorem Keeps.refl (name : String) (d : Disk) : d.Keeps name d := fun entry h => ⟨entry, h, Nat.le_refl _⟩

theorem Keeps.trans {d'' : Disk} (h : d.Keeps name d') (h' : d'.Keeps name d'') : d.Keeps name d'' := by
  intro entry hget
  obtain ⟨entry', hget', hle⟩ := h entry hget
  obtain ⟨entry'', hget'', hle'⟩ := h' entry' hget'
  exact ⟨entry'', hget'', Nat.le_trans hle hle'⟩

theorem keeps_insert {name' : String} {entry : Entry}
    (h : name = name' → ∀ old, d.files.get? name = some old → old.content.length ≤ entry.content.length) :
    d.Keeps name { d with files := d.files.insert name' entry } := by
  intro old hold
  dsimp only
  rw [Dict.get?_insert]
  split
  · exact ⟨entry, rfl, h ‹_› old hold⟩
  · exact ⟨old, hold, Nat.le_refl _⟩

theorem length_overwrite (content : List UInt8) (start : Nat) (bytes : List UInt8) :
    content.length ≤ (overwrite content start bytes).length := by
  simp only [overwrite, List.length_append, List.length_take, List.length_replicate, List.length_drop]
  omega

/-- Only the file that is opened anew becomes shorter. -/
theorem keeps_openFile {anew : Bool} (h : d.openFile path mode anew = .ok (d', target))
    (hname : anew = true → target ≠ .file name) : d.Keeps name d' := by
  cases opens h with
  | file _ hcontent =>
    refine keeps_insert fun heq old hold => ?_
    subst heq
    cases anew with
    | true => exact absurd rfl (hname rfl)
    | false => simp [hcontent, hold]
  | device => exact .refl name d

theorem keeps_write {start : Option Nat} {bytes : List UInt8} (h : d.write target start bytes = .ok d') :
    d.Keeps name d' := by
  unfold Disk.write at h
  split at h
  · exact Except.ok.inj h ▸ .refl name d
  · cases h
  · split at h
    · exact Except.ok.inj h ▸ .refl name d
    · rename_i entry hget
      obtain rfl := Except.ok.inj h
      refine keeps_insert fun heq old hold => ?_
      subst heq
      obtain rfl := Option.some.inj (hget.symm.trans hold)
      exact length_overwrite _ _ _

end Disk

theorem Sink.keeps_write {sink sink' : Sink} (h : sink.write d batch = .ok (d', sink')) : d.Keeps name d' := by
  cases writes h with
  | stream hwrite => exact Disk.keeps_write hwrite
  | reopening hopen hwrite => exact (Disk.keeps_openFile hopen nofun).trans (Disk.keeps_write hwrite)

theorem Store.disk_keeps_write (s : Store) (w : WriterId) (batch : List Job) :
    s.disk.Keeps name (s.write w batch).1.disk := by
  unfold Store.write
  split
  · exact .refl _ _
  · split
    · rename_i hw
      exact Sink.keeps_write hw
    · exact .refl _ _

end keeps

end File

def Outcome.isDone : Outcome → Bool
  | .done => true
  | _ => false

def Outcome.isFailed : Outcome → Bool
  | .failed _ => true
  | _ => false

/-- The event opens a file of this name to write it anew, for a path of a table that nobody streams to yet. -/
def Event.OpensAnew (ev : Event) (table : Nat) (key name : String) : Prop :=
  (ev.before.files.tables table).get? key = none ∧ ∃ path mode, path.key = key ∧
    ev.before.files.disk.openFile path mode true = .ok (ev.after.files.disk, .file name)

namespace Engine

/-- A writer that is not closed writes the file of this key. -/
def IsWriter (e : Engine) (table : Nat) (key : String) (w : WriterId) : Prop :=
  ((e.files.tables table).get? key).map File.Shared.writer = some w ∧
    ∃ writer, e.files.writers[w]? = some writer ∧ writer.isClosed = false

section streaming
variable {e e' : Engine} {op : Op} {fx : List Effect} {es es' : List Event} {setup : Setup} {files : File.Store}
  {config : Config} {table : Nat} {key : String}

/-- A file becomes shorter only when it is opened for a path that nobody streams to. -/
theorem disk_step (hs : e.step? op = some (e', fx)) (name : String) : e.files.disk.Keeps name e'.files.disk ∨
    ∃ table key, Event.OpensAnew ⟨e, op, e', fx⟩ table key name := by
  have same : e'.files.disk = e.files.disk → e.files.disk.Keeps name e'.files.disk := fun heq => heq ▸ .refl _ _
  cases traffic hs with
  | quiet _ _ hfiles => exact .inl (same (congrArg File.Store.disk hfiles :))
  | takes _ htake => exact .inl (same (File.Store.disk_take? htake))
  | sends _ hfiles =>
    dsimp only at hfiles
    exact .inl (same (hfiles ▸ File.Store.disk_send _ _))
  | writes _ hfiles =>
    dsimp only at hfiles
    exact .inl (hfiles ▸ e.files.disk_keeps_write _ _)
  | rests _ hfiles =>
    dsimp only at hfiles
    exact .inl (same (hfiles ▸ File.Store.disk_rest _))
  | frees _ _ hfiles =>
    refine .inl (same ?_)
    dsimp only at hfiles
    rw [hfiles]
    unfold File.Store.retire
    split
    · exact File.Store.disk_release
    · rfl
  | makes _ _ hcrafts =>
    generalize hdisk : e'.files = files' at hcrafts
    cases hcrafts with
    | console | custom => exact .inl (.refl _ _)
    | @file spec table path options _ _ _ _ _ _ hcreate =>
      cases File.Store.creates hcreate with
      | joins | own => exact .inl (.refl _ _)
      | @opens disk target _ hget hopen =>
        have hafter : e'.files.disk = disk := congrArg File.Store.disk hdisk
        -- It is the file that is opened, or it is left alone.
        by_cases hname : options.startsAnew = true ∧ target = .file name
        · obtain ⟨hanew, rfl⟩ := hname
          rw [hanew] at hopen
          exact .inr ⟨table, path.key, hget, path, options.mode, rfl, hafter ▸ hopen⟩
        · exact .inl (File.Disk.keeps_openFile hopen fun hanew heq => hname ⟨hanew, heq⟩)

/-- The tables change only when a transport is made or released. -/
theorem tables_step (hs : e.step? op = some (e', fx)) (hlength : e'.transports.length = e.transports.length)
    (hfree : ∀ route i, Event.action? ⟨e, op, e', fx⟩ ≠ some (.free route i)) : e'.files.tables = e.files.tables := by
  cases traffic hs with
  | quiet _ _ hfiles => exact congrArg File.Store.tables hfiles
  | takes _ htake => exact (File.Store.Works.take htake).keeps.1
  | sends _ hfiles =>
    dsimp only at hfiles
    exact hfiles ▸ (File.Store.Works.send _ _).keeps.1
  | writes _ hfiles =>
    dsimp only at hfiles
    exact hfiles ▸ (File.Store.Works.write _ _).keeps.1
  | rests _ hfiles =>
    dsimp only at hfiles
    exact hfiles ▸ (File.Store.Works.rest _).keeps.1
  | makes _ _ _ htransports =>
    dsimp only at htransports
    rw [htransports, List.length_append, List.length_singleton] at hlength
    omega
  | frees ha => exact absurd ha (hfree _ _)

/-- While the live generation streams to a file, a writer is there for it and is not closed. -/
theorem Streams.isWriter (hfiles : files.Unshared) (h : Run (start setup files config) es e) (hopen : e.isClosed = false)
    (hs : e.Streams table key) {shared : File.Shared} (hget : (e.files.tables table).get? key = some shared) :
    e.IsWriter table key shared.writer := by
  have haccounts := (h.lends hfiles).accounts
  obtain ⟨o, ho, hshare⟩ := File.Store.shares_pos_iff.mp (hs.shares_pos hfiles h hopen)
  obtain ⟨w, hw, hsame⟩ := haccounts.opened table key (hs.shares_pos hfiles h hopen)
  obtain ⟨writer, hwriter, hrunning⟩ := haccounts.running o ho
  obtain rfl := Option.some.inj (hw.symm.trans hget)
  exact ⟨by rw [hget]; rfl, writer, hsame o ho hshare ▸ hwriter, hrunning⟩

theorem mem_states_of_mem {ev : Event} (hev : ev ∈ es) : ev.before ∈ states es e :=
  List.mem_append_left _ (List.mem_map_of_mem hev)

theorem Run.start_mem_states (hr : Run e es' e') : e ∈ states es' e' := by
  cases es' with
  | nil => simp [states, hr.eq_of_nil]
  | cons ev es' =>
    obtain ⟨rfl, -⟩ := hr.uncons
    exact mem_states_of_mem List.mem_cons_self

theorem Run.of_mem_states (hr : Run e es' e') {x : Engine} (hx : x ∈ states es' e') :
    ∃ before after, es' = before ++ after ∧ Run e before x ∧ Run x after e' := by
  rcases List.mem_append.mp hx with hx | hx
  · obtain ⟨ev, hev, rfl⟩ := List.mem_map.mp hx
    obtain ⟨before, after, rfl⟩ := List.append_of_mem hev
    obtain ⟨hbefore, hs, hafter⟩ := hr.split
    exact ⟨before, ev :: after, rfl, hbefore, (Run.single hs).trans hafter⟩
  · obtain rfl := List.mem_singleton.mp hx
    exact ⟨es', [], (List.append_nil _).symm, hr, .refl⟩

/-- Throughout a run a writer writes the file of this key. It is not closed, and goes on to write what it wrote. A file
    becomes shorter only when it is opened for another path. -/
structure Undisturbed (e : Engine) (es : List Event) (e' : Engine) (table : Nat) (key : String) (w : WriterId) : Prop where
  writer : ∀ x ∈ states es e', x.IsWriter table key w
  continues : ∃ writer writer', e.files.writers[w]? = some writer ∧ e'.files.writers[w]? = some writer' ∧
    writer.Continues writer'
  files : ∀ ev ∈ es, ∀ name, ev.before.files.disk.Keeps name ev.after.files.disk ∨
    ∃ table' key', (table', key') ≠ (table, key) ∧ ev.OpensAnew table' key' name

/-- A file that the live generations stream to all the time is not disturbed. -/
theorem Run.undisturbed (hfiles : files.Unshared) (h : Run (start setup files config) es e) (hr : Run e es' e')
    (hopen : e'.isClosed = false) (hstreams : ∀ x ∈ states es' e', x.Streams table key) :
    ∃ w, Undisturbed e es' e' table key w := by
  obtain ⟨w, hw⟩ := writer_kept hfiles h hr hopen hstreams
  have hkept : ∀ x ∈ states es' e', x.IsWriter table key w := by
    intro x hx
    obtain ⟨before, after, -, hbefore, hafter⟩ := hr.of_mem_states hx
    exact (hstreams x hx).isWriter hfiles (h.trans hbefore) (hafter.isClosed hopen) (hw x hx)
  refine ⟨w, hkept, ?_, fun ev hev name => ?_⟩
  · obtain ⟨-, writer, hwriter, -⟩ := hkept e hr.start_mem_states
    obtain ⟨writer', hwriter', hcontinues⟩ := hr.continues w writer hwriter
    exact ⟨writer, writer', hwriter, hwriter', hcontinues⟩
  · obtain ⟨before, after, rfl⟩ := List.append_of_mem hev
    obtain ⟨-, hs, -⟩ := hr.split
    refine (disk_step hs name).imp id fun ⟨table', key', hanew⟩ => ⟨table', key', fun heq => ?_, hanew⟩
    obtain ⟨rfl, rfl⟩ := Prod.mk.inj heq
    obtain ⟨hsome, -⟩ := hkept _ (mem_states_of_mem hev)
    rw [hanew.1] at hsome
    cases hsome

/-- A transport goes on to share the file that it shares. -/
theorem Run.share_kept (h : Run e es e') {i : TransportId} {t : Transport} (ht : e.transports[i]? = some t) :
    ∃ t', e'.transports[i]? = some t' ∧ t'.outlet?.map File.Outlet.share = t.outlet?.map File.Outlet.share := by
  induction h with
  | refl => exact ⟨t, ht, rfl⟩
  | @step es e₁ e₂ op fx hr hs ih =>
    obtain ⟨t₁, ht₁, hshare⟩ := ih
    cases traffic hs with
    | quiet _ _ _ htransports | takes _ _ _ htransports | sends _ _ htransports | writes _ _ htransports
    | rests _ _ htransports => exact ⟨t₁, htransports ▸ ht₁, hshare⟩
    | makes _ _ _ htransports =>
      refine ⟨t₁, ?_, hshare⟩
      dsimp only at htransports
      rw [htransports]
      exact (List.getElem?_append_left (List.getElem?_eq_some_iff.mp ht₁).1).trans ht₁
    | @frees _ j t₂ _ ht₂ _ htransports =>
      dsimp only at htransports ht₂
      by_cases hj : j = i
      · subst hj
        obtain rfl := Option.some.inj (ht₁.symm.trans ht₂)
        refine ⟨t₁.retired, ?_, share_retired.trans hshare⟩
        rw [htransports]
        exact List.getElem?_set_self (List.getElem?_eq_some_iff.mp ht₁).1
      · refine ⟨t₁, ?_, hshare⟩
        rw [htransports]
        exact (List.getElem?_set_ne hj).trans ht₁

theorem streams_iff : e.Streams table key ↔ ∃ g, e.live = some g ∧ ∃ r ∈ g.routes, ∃ t, e.transports[r.transport]? = some t ∧
    t.outlet?.map File.Outlet.share = some (some ⟨table, key⟩) := by
  simp [Streams]

theorem Streams.later (hs : e.Streams table key) (hr : Run e es' e') (hlive : e'.live = e.live) :
    e'.Streams table key := by
  obtain ⟨g, hg, r, hroute, t, ht, hshare⟩ := streams_iff.mp hs
  obtain ⟨t', ht', hsame⟩ := hr.share_kept ht
  exact streams_iff.mpr ⟨g, hlive.trans hg, r, hroute, t', ht', hsame.trans hshare⟩

theorem Streams.earlier (hs : e'.Streams table key) (hb : Bounded e) (hr : Run e es' e') (hlive : e'.live = e.live) :
    e.Streams table key := by
  obtain ⟨g, hg, r, hroute, t', ht', hshare⟩ := streams_iff.mp hs
  have hg' : e.live = some g := hlive.symm.trans hg
  have hlt := (hb.live g hg').transports r hroute
  obtain ⟨t, ht, hsame⟩ := hr.share_kept (List.getElem?_eq_getElem hlt)
  obtain rfl := Option.some.inj (ht'.symm.trans ht)
  exact streams_iff.mpr ⟨g, hg', r, hroute, _, List.getElem?_eq_getElem hlt, hsame.symm.trans hshare⟩

/-- A reload by which the engine goes on to stream to a file has it streamed to all the time. -/
theorem Reloads.streams {newer : Config} {outcome : Outcome} (hfiles : files.Unshared)
    (h : Run (start setup files config) es e) (hr : Reloads e newer es' outcome e') (hold : e.Streams table key)
    (hnew : e'.Streams table key) {x : Engine} (hx : x ∈ states es' e') : x.Streams table key := by
  obtain ⟨before, after, rfl, hbefore, hafter⟩ := hr.run.of_mem_states hx
  obtain ⟨old, hlive, -⟩ := streams_iff.mp hold
  obtain ⟨new, hlive', -⟩ := streams_iff.mp hnew
  have hb : Bounded x := (Bounded.start setup config hfiles.sound).run (h.trans hbefore)
  rcases hr.live_cases h hbefore hafter hlive hlive' with hsame | hsame
  · exact hold.later hbefore (hsame.trans hlive.symm)
  · exact hnew.earlier hb hafter (hlive'.trans hsame.symm)

/-- A reload that fails gives all shares back. -/
theorem Reloads.tables_of_failed {newer : Config} {outcome : Outcome} (hfiles : files.Unshared)
    (h : Run (start setup files config) es e) (hr : Reloads e newer es' outcome e') (hfail : outcome ≠ .done) :
    e'.files.tables = e.files.tables := by
  have hb : Bounded e := (Bounded.start setup config hfiles.sound).run h
  obtain ⟨ids, gone, files', htaken, rfl, -⟩ := hr.end_of_failed hfail hb.files
  exact htaken.lent.restored

end streaming

/-- The tables count who streams to a path, whoever makes and releases transports, and have one writer for each file that
    is streamed to. They are the same before and after an event by which no transport is made or released. While the live
    generation streams to a file, whatever reloads there are, its writer is neither closed nor opened again, and no event
    makes a file shorter but by opening it for another path. A build that fails has released all that it made when it is
    over, and a reload that fails leaves the tables as they were. -/
theorem streamed_files_shared {files : File.Store} (hfiles : files.Unshared) :
    (∀ ds s, File.Deals files ds s → ∀ n path, s.Counts n path (File.writers n path.key ds)) ∧
    ∀ setup config es e, Run (start setup files config) es e →
      (∀ n path, e.files.Counts n path (File.Store.sharing n path.key e.outlets)) ∧
      (∀ ev ∈ es, ev.after.transports.length = ev.before.transports.length →
        (∀ route i, ev.action? ≠ some (.free route i)) → ev.after.files.tables = ev.before.files.tables) ∧
      (∀ es' e' n key, Run e es' e' → e'.isClosed = false → (∀ x ∈ states es' e', x.Streams n key) →
        ∃ w, Undisturbed e es' e' n key w) ∧
      (∀ newer es' outcome e' n key, Reloads e newer es' outcome e' → e'.isClosed = false → e.Streams n key →
        e'.Streams n key → ∃ w, Undisturbed e es' e' n key w) ∧
      (∀ task outcome, e.agendas[task]? = some [] → .finish outcome ∈ deeds task es → outcome ≠ .done →
        ∀ ev ∈ es, ev.op.task? = some task → ∀ i t, ev.before.transports.length ≤ i → i < ev.after.transports.length →
          e.transports[i]? = some t → t.isFreed = true) ∧
      ∀ newer es' outcome e', Reloads e newer es' outcome e' → outcome ≠ .done → e'.files.tables = e.files.tables := by
  refine ⟨fun ds s h n path => h.counts hfiles n path, fun setup config es e h => ⟨?_, ?_, ?_, ?_, ?_, ?_⟩⟩
  · intro n path
    exact (h.lends hfiles).accounts.counts n path
  · intro ev hev hlength hfree
    obtain ⟨before, after, rfl⟩ := List.append_of_mem hev
    obtain ⟨-, hs, -⟩ := h.split
    exact tables_step hs hlength hfree
  · intro es' e' n key hr hopen hstreams
    exact h.undisturbed hfiles hr hopen hstreams
  · intro newer es' outcome e' n key hr hopen hold hnew
    exact h.undisturbed hfiles hr.run hopen fun x hx => hr.streams hfiles h hold hnew hx
  · intro task outcome hagenda hfinish hfail ev hev hown i t hle hlt ht
    exact h.failed_build hfiles hagenda hfinish hfail hev hown hle hlt ht
  · intro newer es' outcome e' hr hfail
    exact hr.tables_of_failed hfiles h hfail

/-! ### A file with two paths -/

/-- A route that streams to a file. -/
def streamingTo (name path : String) : RouteSpec :=
  (((RouteSpec.ofTransport name "file").withTag "t").withOption "file_name" (.string path)).withOption "stream" (.bool true)

def streaming : Config := { routes := some [streamingTo "a" "/logs/app.log"] }

/-- The engine is built, and a line is written to the file. -/
def untilStreamed : List Op := List.replicate 6 (.advance 0) ++ lateCall 1

def streamed : Engine := (plain false [] streaming).after untilStreamed

/-- The same route, one to another file, and a transport that nobody makes. -/
def unmakeable : Config :=
  { routes := some [streamingTo "a" "/logs/app.log", streamingTo "b" "/logs/other.log", RouteSpec.ofTransport "c" "nope"] }

/-- The same route, and one that reaches the file by another path and opens it anew. -/
def emptying : Config :=
  { routes := some [streamingTo "a" "/logs/app.log",
      (((streamingTo "b" "/../logs/app.log").withOption "separate" (.bool true)).withOption "reset_file"
        (.bool true)).withOption "master_ext" (.string "")] }

/-- A reload of the engine with that file, in so many steps. -/
def renewing (newer : Config) (steps : Nat) : List Op := .begin (.reload newer) :: List.replicate steps (.advance 3)

def endsAs (p : Outcome → Bool) : Effect → Bool
  | .ended task outcome => task == 3 && p outcome
  | _ => false

theorem run_streamed : ∃ es, Run (plain false [] streaming) es streamed := by
  have hrun : ((plain false [] streaming).run? untilStreamed).isSome = true := by decide +kernel
  exact ⟨_, run_history _ _ hrun⟩

theorem reloads_renewing {newer : Config} {steps : Nat} {p : Outcome → Bool} (htask : streamed.nextTask = 3)
    (hrun : (streamed.run? (renewing newer steps)).isSome = true)
    (hended : ((streamed.history (renewing newer steps)).flatMap Event.effects).any (endsAs p) = true) :
    ∃ outcome, p outcome = true ∧
      Reloads streamed newer (streamed.history (renewing newer steps)) outcome (streamed.after (renewing newer steps)) := by
  obtain ⟨fx, hfx, hend⟩ := List.any_eq_true.mp hended
  unfold endsAs at hend
  split at hend
  · rename_i task outcome
    obtain ⟨hthree, hp⟩ := Bool.and_eq_true_iff.mp hend
    obtain rfl : task = streamed.nextTask := by rw [htask, beq_iff_eq.mp hthree]
    refine ⟨outcome, hp, reloads_history hrun (fun op hop => ?_) hfx⟩
    rw [htask, List.eq_of_mem_replicate hop]
    rfl
  · cases hend

/-- Two transports share the file; a reload that streams to it again does not disturb it; one that fails gives back its
    share. -/
theorem streamed_file_undisturbed :
    (∃ ds s, File.Deals File.emptyStore ds s ∧ (File.writers 0 "/logs/app.log" ds).length = 2 ∧
      s.listeners 0 ⟨"/logs/app.log"⟩ = 2) ∧
    ∃ es, Run (plain false [] streaming) es streamed ∧
      (∃ es' e' w, Reloads streamed streaming es' .done e' ∧ Undisturbed streamed es' e' 0 "/logs/app.log" w) ∧
      ∃ es' e' error, Reloads streamed unmakeable es' (.failed error) e' ∧ 1 < e'.transports.length ∧
        e'.files.tables = streamed.files.tables := by
  have hunshared : File.emptyStore.Unshared := fun _ => rfl
  obtain ⟨hdeals, hengine⟩ := streamed_files_shared hunshared
  refine ⟨?_, ?_⟩
  · have hstate : ∃ r ∈ File.paired true false, (File.writers 0 "/logs/app.log" (r.2.map .make)).length = 2 := by
      decide +kernel
    obtain ⟨⟨s, leases⟩, hpaired, htwo⟩ := hstate
    have hmade := File.deals_paired hpaired
    have hcounts := (hdeals _ s hmade 0 ⟨"/logs/app.log"⟩).listeners
    exact ⟨_, s, hmade, htwo, hcounts.trans htwo⟩
  · obtain ⟨es, hrun⟩ := run_streamed
    obtain ⟨-, -, -, hkept, -, hfailed⟩ := hengine _ streaming es streamed hrun
    have hrenewed : streamed.nextTask = 3 ∧ (streamed.run? (renewing streaming 14)).isSome = true ∧
        ((streamed.history (renewing streaming 14)).flatMap Event.effects).any (endsAs Outcome.isDone) = true ∧
        (streamed.after (renewing streaming 14)).isClosed = false ∧ streamed.Streams 0 "/logs/app.log" ∧
        (streamed.after (renewing streaming 14)).Streams 0 "/logs/app.log" := by decide +kernel
    have habandoned : (streamed.run? (renewing unmakeable 11)).isSome = true ∧
        ((streamed.history (renewing unmakeable 11)).flatMap Event.effects).any (endsAs Outcome.isFailed) = true ∧
        1 < (streamed.after (renewing unmakeable 11)).transports.length := by decide +kernel
    obtain ⟨htask, hsome, hended, hopen, hold, hnew⟩ := hrenewed
    obtain ⟨hsome', hended', hmade⟩ := habandoned
    obtain ⟨outcome, hdone, hrenew⟩ := reloads_renewing htask hsome hended
    obtain ⟨outcome', hfail, habandon⟩ := reloads_renewing htask hsome' hended'
    obtain ⟨w, hundisturbed⟩ := hkept _ _ _ _ 0 "/logs/app.log" hrenew hopen hold hnew
    refine ⟨es, hrun, ⟨_, _, w, ?_, hundisturbed⟩, ?_⟩
    · cases outcome with
      | done => exact hrenew
      | _ => cases hdone
    · cases outcome' with
      | failed error => exact ⟨_, _, error, habandon, hmade, hfailed _ _ _ _ habandon nofun⟩
      | _ => cases hfail

/-- A reload with a route to the file by another path may empty it, though the live generation streams to it before and
    after. -/
theorem streamed_file_emptied : ¬∀ (es es' : List Event) (e e' : Engine) (newer : Config),
    Run (plain false [] streaming) es e → Reloads e newer es' .done e' → e'.isClosed = false →
    e.Streams 0 "/logs/app.log" → e'.Streams 0 "/logs/app.log" → e.files.disk.Keeps "app.log" e'.files.disk := by
  intro hall
  have hstate : streamed.nextTask = 3 ∧ (streamed.run? (renewing emptying 15)).isSome = true ∧
      ((streamed.history (renewing emptying 15)).flatMap Event.effects).any (endsAs Outcome.isDone) = true ∧
      (streamed.after (renewing emptying 15)).isClosed = false ∧
      streamed.Streams 0 "/logs/app.log" ∧ (streamed.after (renewing emptying 15)).Streams 0 "/logs/app.log" ∧
      (∃ entry ∈ streamed.files.disk.files.get? "app.log", 0 < entry.content.length) ∧
      ((streamed.after (renewing emptying 15)).files.disk.files.get? "app.log").map (·.content) = some [] := by
    decide +kernel
  obtain ⟨htask, hsome, hended, hopen, hold, hnew, ⟨entry, hget, hpos⟩, hempty⟩ := hstate
  obtain ⟨es, hrun⟩ := run_streamed
  obtain ⟨outcome, hdone, hreloads⟩ := reloads_renewing htask hsome hended
  cases outcome with
  | done =>
    obtain ⟨entry', hget', hle⟩ := hall es _ streamed _ emptying hrun hreloads hopen hold hnew entry hget
    rw [hget'] at hempty
    have hnil : entry'.content = [] := Option.some.inj hempty
    rw [hnil] at hle
    exact absurd (Nat.lt_of_lt_of_le hpos hle) (Nat.lt_irrefl 0)
  | _ => cases hdone

end Engine

end LogDispatch
