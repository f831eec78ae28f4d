import LogDispatch.Proofs.Replies

/-! What writers put into their files. A writer that is at the end of its file stays there as long as nobody else touches
    the file (`Run.appends`): it appends the lines that were queued to it, in order, however they are taken. -/

namespace LogDispatch

namespace File

namespace Disk
variable {d d' : Disk} {path : Path} {target : Target} {name : String}

/-- What stands in the file of a name. -/
def content (d : Disk) (name : String) : List UInt8 := ((d.files.get? name).map Entry.content).getD []

theorem content_of_get? {entry : Entry} (h : d.files.get? name = some entry) : d.content name = entry.content := by
  simp [content, h]

theorem directory?_congr (h : d'.root = d.root) (p : Place) (name : String) :
    d'.directory? p name = d.directory? p name := by
  unfold directory?
  rw [h]

theorem target?_congr (h : d'.root = d.root) (p : Place) (name : String) : d'.target? p name = d.target? p name := by
  unfold target?
  rw [h]

theorem enter_congr (h : d'.root = d.root) {p place : Place} (henter : d.enter p name = .ok place) :
    d'.enter p name = .ok place := by
  unfold enter at henter ⊢
  rw [directory?_congr h]
  cases hdir : d.directory? p name with
  | some => simpa [hdir] using henter
  | none =>
    -- What is no directory is entered only if it is one of the dots.
    simp only [hdir] at henter ⊢
    split at henter
    · exact (if_pos ‹_›).trans henter
    · split at henter
      · exact (if_neg ‹_›).trans ((if_pos ‹_›).trans henter)
      · split at henter <;> cases henter

theorem foldlM_enter_congr (h : d'.root = d.root) {names : List String} {p place : Place}
    (henter : names.foldlM d.enter p = .ok place) : names.foldlM d'.enter p = .ok place := by
  induction names generalizing p with
  | nil => exact henter
  | cons name names ih =>
    rw [List.foldlM_cons] at henter ⊢
    cases hp : d.enter p name with
    | error => simp [hp, bind, Except.bind] at henter
    | ok q =>
      rw [hp] at henter
      rw [enter_congr h hp]
      exact ih henter

theorem lookUp_congr (h : d'.root = d.root) (p : Place) (name : String) : d'.lookUp p name = d.lookUp p name := by
  unfold lookUp
  rw [directory?_congr h, target?_congr h]

theorem ite_error_eq_ok {α : Type} {c : Prop} [Decidable c] {fault : Fault} {x : Except Fault α} {y : α} :
    (if c then .error fault else x) = .ok y ↔ ¬c ∧ x = .ok y := by
  split <;> simp [*]

/-- A path leads to the same file whatever other files there are. -/
theorem find_congr (h : d'.root = d.root) (hfind : d.find path = .ok target) : d'.find path = .ok target := by
  unfold find at hfind ⊢
  rw [ite_error_eq_ok, ite_error_eq_ok, ite_error_eq_ok] at hfind ⊢
  obtain ⟨hnul, hempty, hshort, hfind⟩ := hfind
  refine ⟨hnul, hempty, hshort, ?_⟩
  cases hlast : path.names.getLast? with
  | none => simp [hlast] at hfind
  | some last =>
    simp only [hlast] at hfind ⊢
    cases hplace : path.names.dropLast.foldlM d.enter (if path.isAbsolute then .along 0 else .elsewhere) with
    | error => simp [hplace, bind, Except.bind] at hfind
    | ok place =>
      rw [hplace] at hfind
      rw [foldlM_enter_congr h hplace, ← hfind]
      simp only [bind, Except.bind, lookUp_congr h]

/-- A file that is opened is there, and keeps what stands in it unless it is opened anew. -/
theorem openFile_eq_ok {mode : Nat} {anew : Bool} (h : d.openFile path mode anew = .ok (d', target)) :
    d.find path = .ok target ∧ d'.root = d.root ∧ ∀ name, target = .file name →
      ∃ entry, d'.files.get? name = some entry ∧ entry.content = if anew then [] else d.content name := by
  cases opens h with
  | file hfind hcontent =>
    refine ⟨hfind, rfl, fun name heq => ?_⟩
    obtain rfl := Target.file.inj heq
    exact ⟨_, (Dict.get?_insert ..).trans (if_pos rfl), hcontent⟩
  | device hfind hdevice => exact ⟨hfind, rfl, fun name heq => absurd heq (hdevice name)⟩

theorem openFile_of_find (mode : Nat) (h : d.find path = .ok (.file name)) :
    ∃ d', d.openFile path mode false = .ok (d', .file name) :=
  ⟨_, by simp only [openFile, h, bind, Except.bind]; rfl⟩

theorem overwrite_length (content bytes : List UInt8) : overwrite content content.length bytes = content ++ bytes := by
  simp [overwrite]

/-- What is written to the end of a file is appended to it. -/
theorem write_at_end {entry : Entry} {start : Option Nat} (hget : d.files.get? name = some entry)
    (hstart : ∀ p ∈ start, p = entry.content.length) (bytes : List UInt8) : ∃ d', d.write (.file name) start bytes = .ok d' ∧
      d'.root = d.root ∧ (d'.files.get? name).isSome = true ∧ d'.content name = d.content name ++ bytes := by
  have hplace : start.getD entry.content.length = entry.content.length := by
    cases start with
    | none => rfl
    | some p => exact hstart p rfl
  have hentry : (d.files.insert name { entry with content := entry.content ++ bytes }).get? name =
      some { entry with content := entry.content ++ bytes } := (Dict.get?_insert ..).trans (if_pos rfl)
  refine ⟨{ d with files := d.files.insert name { entry with content := entry.content ++ bytes } }, ?_, rfl, ?_, ?_⟩
  · simp only [Disk.write, hget, hplace, overwrite_length]
  · rw [hentry, Option.isSome_some]
  · rw [content_of_get? hget, content_of_get? hentry]

end Disk

/-- What is written through the sink goes to the file of this name. -/
def Sink.LeadsTo (d : Disk) (name : String) : Sink → Prop
  | .stream target _ => target = .file name
  | .reopening path _ => d.find path = .ok (.file name)

/-- What is written through the sink goes to the end of the file of this name. -/
def Sink.AtEnd (d : Disk) (name : String) : Sink → Prop
  | .stream target position => target = .file name ∧ (d.files.get? name).isSome = true ∧
      ∀ p ∈ position, p = (d.content name).length
  | .reopening path _ => d.find path = .ok (.file name)

instance (d : Disk) (name : String) (sink : Sink) : Decidable (sink.AtEnd d name) :=
  match sink with
  | .stream target position => inferInstanceAs (Decidable (target = .file name ∧ _ ∧ ∀ p ∈ position, _))
  | .reopening path _ => inferInstanceAs (Decidable (d.find path = .ok (.file name)))

section sinks
variable {d d' : Disk} {name : String} {sink : Sink}

/-- A batch is appended to the file as a whole, and the sink is at its end again. -/
theorem Sink.AtEnd.write (h : sink.AtEnd d name) (batch : List Job) : ∃ d' sink', sink.write d batch = .ok (d', sink') ∧
    d'.content name = d.content name ++ batchBytes batch ∧ sink'.AtEnd d' name := by
  cases sink with
  | stream target position =>
    obtain ⟨rfl, hsome, hposition⟩ := h
    obtain ⟨entry, hget⟩ := Option.isSome_iff_exists.mp hsome
    rw [Disk.content_of_get? hget] at hposition
    obtain ⟨d', hwrite, -, hthere, hcontent⟩ := Disk.write_at_end hget hposition (batchBytes batch)
    refine ⟨d', .stream (.file name) (position.map (· + (batchBytes batch).length)), ?_, hcontent, rfl, hthere, ?_⟩
    · simp only [Sink.write, hwrite, bind, Except.bind, pure, Except.pure]
    · intro p hp
      obtain ⟨p, hp', rfl⟩ := Option.mem_map.mp hp
      rw [hcontent, Disk.content_of_get? hget, List.length_append, hposition p hp']
  | reopening path mode =>
    obtain ⟨opened, hopen⟩ := Disk.openFile_of_find mode h
    obtain ⟨-, hroot, hentry⟩ := Disk.openFile_eq_ok hopen
    obtain ⟨entry, hget, hkept⟩ := hentry name rfl
    have hnone : ∀ p ∈ (none : Option Nat), p = entry.content.length := fun p hp => by cases hp
    obtain ⟨d', hwrite, hroot', -, hcontent⟩ := Disk.write_at_end hget hnone (batchBytes batch)
    refine ⟨d', .reopening path mode, ?_, ?_, Disk.find_congr (hroot'.trans hroot) h⟩
    · simp only [Sink.write, hopen, hwrite, bind, Except.bind, pure, Except.pure]
    · rw [hcontent, Disk.content_of_get? hget, hkept]
      rfl

theorem Disk.root_write {target : Target} {start : Option Nat} {bytes : List UInt8}
    (h : d.write target start bytes = .ok d') : d'.root = d.root := by
  unfold Disk.write at h
  split at h
  · exact Except.ok.inj h ▸ rfl
  · cases h
  · split at h <;> exact Except.ok.inj h ▸ rfl

theorem Sink.root_write {sink' : Sink} {batch : List Job} (h : sink.write d batch = .ok (d', sink')) :
    d'.root = d.root := by
  cases Sink.writes h with
  | stream hwrite => exact Disk.root_write hwrite
  | reopening hopen hwrite => exact (Disk.root_write hwrite).trans (Disk.openFile_eq_ok hopen).2.1

/-- A sink stays at the end of a file that nobody touches. -/
theorem Sink.AtEnd.keep (h : sink.AtEnd d name) (hroot : d'.root = d.root)
    (hsame : d'.files.get? name = d.files.get? name) : sink.AtEnd d' name := by
  cases sink with
  | stream target position =>
    unfold Sink.AtEnd Disk.content at h ⊢
    rwa [hsame]
  | reopening path mode => exact Disk.find_congr hroot h

end sinks

namespace Store

/-- Where a writer writes to. -/
def sink? (s : Store) (w : WriterId) : Option Sink := s.writers[w]?.map Writer.sink

/-- A writer goes on to write where it does, and the directory of files is where it was. -/
structure Leaves (w : WriterId) (s s' : Store) : Prop where
  sink : s'.sink? w = s.sink? w
  root : s'.disk.root = s.disk.root

section leaves
variable {s s' : Store} {w v : WriterId} {writer writer' : Writer} {o : Outlet} {job : Job} {n : Nat} {batch : List Job}

theorem Leaves.refl (w : WriterId) (s : Store) : Leaves w s s := ⟨rfl, rfl⟩

theorem leaves_setWriter (hv : s.writers[v]? = some writer) (hsink : v = w → writer'.sink = writer.sink) :
    Leaves w s (s.setWriter v writer') := by
  refine ⟨?_, rfl⟩
  rw [sink?, getElem?_setWriter hv]
  split
  · rename_i h
    rw [sink?, h, hv, Option.map_some, Option.map_some, hsink h.symm]
  · rfl

theorem leaves_send (v : WriterId) (job : Job) : Leaves w s (s.send v job) := by
  unfold send
  split
  · rename_i hw
    exact leaves_setWriter hw fun _ => rfl
  · exact .refl w s

theorem leaves_take? (h : s.take? v n = some (s', batch)) : Leaves w s s' := by
  obtain ⟨writer, hw, -, -, rfl⟩ := take?_setWriter h
  exact leaves_setWriter hw fun _ => rfl

theorem leaves_rest (v : WriterId) : Leaves w s (s.rest v) := by
  unfold rest
  split
  · rename_i hw
    exact leaves_setWriter hw fun _ => rfl
  · exact .refl w s

theorem leaves_closeWriter (v : WriterId) : Leaves w s (s.closeWriter v) := by
  unfold closeWriter
  split
  · rename_i hw
    exact leaves_setWriter hw fun _ => rfl
  · exact .refl w s

theorem leaves_setTable {handles : Handles} (h : Leaves w (s.setTable n handles) s') : Leaves w s s' := ⟨h.sink, h.root⟩

theorem leaves_release (o : Outlet) : Leaves w s (s.release o).1 := by
  unfold release
  split
  · exact leaves_closeWriter _
  · dsimp only
    split
    · exact .refl w s
    · split
      · exact ⟨rfl, rfl⟩
      · exact leaves_setTable (leaves_closeWriter _)

theorem leaves_retire (t : Transport) : Leaves w s (s.retire t) := by
  unfold retire
  split
  · exact leaves_release _
  · exact .refl w s

/-- Another writer writes a batch. -/
theorem leaves_write (hne : v ≠ w) (batch : List Job) : Leaves w s (s.write v batch).1 := by
  unfold write
  split
  · exact .refl w s
  · rename_i writer hv
    split
    · rename_i disk sink hwrite
      have hsame : ({ s with disk } : Store).writers[v]? = some writer := hv
      have hleaves : Leaves w { s with disk } (({ s with disk } : Store).setWriter v { writer with sink }) :=
        leaves_setWriter hsame fun heq => absurd heq hne
      exact ⟨hleaves.sink, Sink.root_write hwrite⟩
    · exact .refl w s

theorem leaves_create {table : Nat} {path : Path} {options : Options} (hw : w < s.writers.length)
    (h : s.create table path options = .ok (.ok (s', o))) : Leaves w s s' := by
  have hold : ∀ x : Writer, (s.writers ++ [x])[w]? = s.writers[w]? := fun x => List.getElem?_append_left hw
  cases creates h with
  | joins => exact ⟨rfl, rfl⟩
  | opens _ _ hopen => exact ⟨congrArg (Option.map Writer.sink) (hold _), (Disk.openFile_eq_ok hopen).2.1⟩
  | own => exact ⟨congrArg (Option.map Writer.sink) (hold _), rfl⟩

/-- A writer that is made starts at the end of its file. -/
theorem atEnd_create {table : Nat} {path : Path} {options : Options} {sink : Sink} {name : String}
    (h : s.create table path options = .ok (.ok (s', o))) (hw : s.writers.length ≤ w) (hsink : s'.sink? w = some sink)
    (hleads : sink.LeadsTo s'.disk name) : sink.AtEnd s'.disk name := by
  have hnew : ∀ {x : Writer}, (s.writers ++ [x])[w]?.map Writer.sink = some sink → sink = x.sink := by
    intro x hx
    rw [List.getElem?_append_right hw] at hx
    obtain ⟨y, hy, rfl⟩ := Option.map_eq_some_iff.mp hx
    rw [List.mem_singleton.mp (List.mem_of_getElem? hy)]
  cases creates h with
  | joins =>
    have hnone : s.writers[w]? = none := List.getElem?_eq_none hw
    rw [sink?, setTable, hnone] at hsink
    cases hsink
  | @opens disk target _ _ hopen =>
    obtain rfl := hnew hsink
    obtain ⟨-, -, hentry⟩ := Disk.openFile_eq_ok hopen
    obtain ⟨entry, hget, hempty⟩ := hentry name hleads
    refine ⟨hleads, Option.isSome_iff_exists.mpr ⟨entry, hget⟩, fun p hp => ?_⟩
    cases hanew : options.startsAnew with
    | false =>
      rw [hanew] at hp
      cases hp
    | true =>
      rw [hanew] at hp hempty
      obtain rfl : 0 = p := Option.some.inj hp
      have hnothing : disk.content name = [] := (Disk.content_of_get? hget).trans hempty
      exact (congrArg List.length hnothing).symm
  | own =>
    obtain rfl := hnew hsink
    exact hleads

end leaves

end Store

end File

namespace Engine

/-- What a writer writes goes to the end of the file of this name. -/
def AtEnd (e : Engine) (w : WriterId) (name : String) : Prop :=
  ∃ sink ∈ e.files.sink? w, sink.AtEnd e.files.disk name

instance (e : Engine) (w : WriterId) (name : String) : Decidable (e.AtEnd w name) :=
  inferInstanceAs (Decidable (∃ sink ∈ e.files.sink? w, _))

section appends
variable {e e' : Engine} {op : Op} {fx : List Effect} {es es' : List Event} {w : WriterId} {name : String}

/-- Seen from one writer, an event is a batch that it writes, or the writer is made by it, or has nothing to do with it. -/
theorem leaves_step (hs : e.step? op = some (e', fx)) (w : WriterId) : e.files.Leaves w e'.files ∨
    (w < e.files.writers.length ∧ ∃ batch, Event.action? ⟨e, op, e', fx⟩ = some (.write w batch)) ∨
    (e.files.writers.length ≤ w ∧ ∃ table path options o,
      e.files.create table path options = .ok (.ok (e'.files, o))) := by
  cases traffic hs with
  | quiet _ _ hfiles => exact .inl (hfiles ▸ .refl w _)
  | takes _ htake => exact .inl (File.Store.leaves_take? htake)
  | sends _ hfiles => exact .inl (hfiles ▸ File.Store.leaves_send _ _)
  | @writes v batch ha hfiles =>
    dsimp only at hfiles
    by_cases hv : v = w
    · subst hv
      rcases Nat.lt_or_ge v e.files.writers.length with hlt | hge
      · exact .inr (.inl ⟨hlt, batch, ha⟩)
      · left
        have hnone : e.files.writers[v]? = none := List.getElem?_eq_none hge
        have hsame : (e.files.write v batch).1 = e.files := by simp only [File.Store.write, hnone]
        rw [hfiles, hsame]
        exact .refl v _
    · exact .inl (hfiles ▸ File.Store.leaves_write hv batch)
  | rests _ hfiles => exact .inl (hfiles ▸ File.Store.leaves_rest _)
  | makes _ _ hcrafts =>
    dsimp only at hcrafts
    generalize e'.files = files' at hcrafts ⊢
    cases hcrafts with
    | console | custom => exact .inl (.refl w _)
    | file _ _ _ _ hcreate =>
      rcases Nat.lt_or_ge w e.files.writers.length with hlt | hge
      · exact .inl (File.Store.leaves_create hlt hcreate)
      · exact .inr (.inr ⟨hge, _, _, _, _, hcreate⟩)
  | frees _ _ hfiles => exact .inl (hfiles ▸ File.Store.leaves_retire _)

theorem written?_eq_some {ev : Event} {x : Written} (h : ev.written? w = some x) :
    ∃ batch, ev.action? = some (.write w batch) ∧ x = ⟨batch, (ev.before.files.write w batch).2⟩ := by
  unfold Event.written? at h
  split at h
  · rename_i v batch ha
    obtain ⟨rfl, heq⟩ := Option.ite_none_right_eq_some.mp h
    exact ⟨batch, ha, (Option.some.inj heq).symm⟩
  · cases h

theorem leaves_of_not_written (hs : e.step? op = some (e', fx)) (hw : w < e.files.writers.length)
    (hother : Event.written? w ⟨e, op, e', fx⟩ = none) : e.files.Leaves w e'.files := by
  rcases leaves_step hs w with hleaves | ⟨-, batch, ha⟩ | ⟨hge, -⟩
  · exact hleaves
  · simp [Event.written?, ha] at hother
  · exact absurd hw (Nat.not_lt_of_ge hge)

theorem files_of_write {ev : Event} {batch : List File.Job} (hs : ev.before.step? ev.op = some (ev.after, ev.effects))
    (ha : ev.action? = some (.write w batch)) : ev.after.files = (ev.before.files.write w batch).1 := by
  obtain ⟨task, htask, -⟩ := Option.bind_eq_some_iff.mp ha
  obtain ⟨rest, m, hdeed⟩ := deed_of_action? hs htask ha
  rw [hdeed.after]
  cases hdeed.does with
  | perform hp =>
    obtain rfl := Option.some.inj hp
    rfl

/-- A batch is appended to the file. -/
theorem AtEnd.writes {x : Written} (h : e.AtEnd w name) (hs : e.step? op = some (e', fx))
    (hwritten : Event.written? w ⟨e, op, e', fx⟩ = some x) : x.result = .ok () ∧ e'.AtEnd w name ∧
      e'.files.disk.content name = e.files.disk.content name ++ File.batchBytes x.batch := by
  obtain ⟨batch, ha, rfl⟩ := written?_eq_some hwritten
  obtain ⟨sink, hsink, hatEnd⟩ := h
  obtain ⟨writer, hwriter, rfl⟩ := Option.map_eq_some_iff.mp hsink
  obtain ⟨disk, sink', hwrite, hcontent, hatEnd'⟩ := hatEnd.write batch
  have hstore : e.files.write w batch =
      (({ e.files with disk } : File.Store).setWriter w { writer with sink := sink' }, .ok ()) := by
    simp only [File.Store.write, hwriter, hwrite]
  have hfiles : e'.files = (e.files.write w batch).1 := files_of_write hs ha
  rw [hstore] at hfiles
  refine ⟨by rw [hstore], ⟨sink', ?_, hfiles ▸ hatEnd'⟩, hfiles ▸ hcontent⟩
  have hlt := (List.getElem?_eq_some_iff.mp hwriter).1
  rw [hfiles]
  simp [File.Store.sink?, File.Store.setWriter, hlt]

/-- Nobody but the writer touches the file of this name. -/
def Alone (w : WriterId) (name : String) (es : List Event) : Prop :=
  ∀ ev ∈ es, ev.written? w = none → ev.after.files.disk.files.get? name = ev.before.files.disk.files.get? name

theorem AtEnd.lt (h : e.AtEnd w name) : w < e.files.writers.length := by
  obtain ⟨sink, hsink, -⟩ := h
  obtain ⟨writer, hwriter, -⟩ := Option.map_eq_some_iff.mp hsink
  exact (List.getElem?_eq_some_iff.mp hwriter).1

instance (w : WriterId) (name : String) (es : List Event) : Decidable (Alone w name es) :=
  inferInstanceAs (Decidable (∀ ev ∈ es, ev.written? w = none → _))

/-- As long as nobody else touches its file, all batches of a writer are written, and appended to the file one after the
    other. -/
theorem Run.appends (h : Run e es e') (hend : e.AtEnd w name) (halone : Alone w name es) :
    (∀ x ∈ writings w es, x.result = .ok ()) ∧ e'.AtEnd w name ∧ e'.files.disk.content name =
      e.files.disk.content name ++ File.batchBytes ((writings w es).map Written.batch).flatten := by
  induction h with
  | refl => exact ⟨nofun, hend, by simp [writings, File.batchBytes]⟩
  | @step es e₁ e₂ op fx hr hs ih =>
    obtain ⟨hok, hend₁, hcontent⟩ := ih fun ev hev => halone ev (List.mem_append_left _ hev)
    have hlast := halone _ (List.mem_append_right _ List.mem_cons_self)
    rw [writings_concat]
    cases hwritten : Event.written? w ⟨e₁, op, e₂, fx⟩ with
    | none =>
      have hsame := hlast hwritten
      dsimp only at hsame
      rw [Option.toList_none, List.append_nil, ← hcontent]
      obtain ⟨sink, hsink, hatEnd⟩ := hend₁
      obtain ⟨hkept, hroot⟩ := leaves_of_not_written hs (AtEnd.lt ⟨sink, hsink, hatEnd⟩) hwritten
      refine ⟨hok, ⟨sink, hkept.trans hsink, hatEnd.keep hroot hsame⟩, ?_⟩
      rw [File.Disk.content, hsame]
      rfl
    | some x =>
      obtain ⟨hresult, hend₂, hmore⟩ := hend₁.writes hs hwritten
      refine ⟨fun y hy => ?_, hend₂, ?_⟩
      · rcases List.mem_append.mp hy with hy | hy
        · exact hok y hy
        · rw [Option.toList_some, List.mem_singleton] at hy
          exact hy ▸ hresult
      · rw [hmore, hcontent]
        simp [File.batchBytes]

/-- A writer that is made starts at the end of its file. -/
theorem atEnd_made (hs : e.step? op = some (e', fx)) (hnew : e.files.writers.length ≤ w) {sink : File.Sink}
    (hsink : e'.files.sink? w = some sink) (hleads : sink.LeadsTo e'.files.disk name) : e'.AtEnd w name := by
  have hold : e.files.sink? w = none := by rw [File.Store.sink?, List.getElem?_eq_none hnew, Option.map_none]
  rcases leaves_step hs w with hleaves | ⟨hlt, -⟩ | ⟨-, table, path, options, o, hcreate⟩
  · rw [hleaves.sink, hold] at hsink
    cases hsink
  · exact absurd hlt (Nat.not_lt_of_ge hnew)
  · exact ⟨sink, hsink, File.Store.atEnd_create hcreate hnew hsink hleads⟩

end appends

end Engine

end LogDispatch
