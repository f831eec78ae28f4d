import LogDispatch.Proofs.Sharing
import LogDispatch.Proofs.Stations

/-! Engines on a machine that others use as well (`Exposed`). Between two events the disk may become any other one, and
    what writers have open may lead anywhere, so a batch may be written or fail in every way there is
    (`exists_altered_write`). Only a new writer comes to have a transport that holds a sender to it (`hasHolder_step`). -/

namespace LogDispatch

namespace File

/-- The same store with another disk, and with writers that write elsewhere. -/
def Store.altered (s : Store) (disk : Disk) (sinks : WriterId → Sink) : Store :=
  { s with disk, writers := s.writers.mapIdx fun w writer => { writer with sink := sinks w } }

section altered
variable {s : Store} {disk : Disk} {sinks : WriterId → Sink} {w : WriterId} {writer : Writer}

theorem Store.getElem?_altered (w : WriterId) : (s.altered disk sinks).writers[w]? =
    s.writers[w]?.map fun writer => { writer with sink := sinks w } := List.getElem?_mapIdx

@[simp] theorem Store.length_altered : (s.altered disk sinks).writers.length = s.writers.length := List.length_mapIdx

theorem Store.still_altered : s.Still (s.altered disk sinks) := by
  constructor <;> intro v
  · rw [queue, queue, getElem?_altered]
    cases s.writers[v]? <;> rfl
  · rw [isServing, isServing, getElem?_altered]
    cases s.writers[v]? <;> rfl

theorem Sink.write_of_find {path : Path} {fault : Disk.Fault} (h : disk.find path = .error fault) (mode : Nat)
    (batch : List Job) : Sink.write (.reopening path mode) disk batch = .error fault := by
  simp [Sink.write, Disk.openFile, h, bind, Except.bind]

theorem length_le_utf8ByteSize (cs : List Char) : cs.length ≤ (String.ofList cs).utf8ByteSize := by
  induction cs with
  | nil => exact Nat.zero_le _
  | cons c cs ih =>
    have hpos := c.utf8Size_pos
    rw [String.ofList_cons, String.utf8ByteSize_append, String.utf8ByteSize_singleton, List.length_cons]
    omega

theorem find_of_long {n : Nat} (h : Disk.pathLimit ≤ n) :
    disk.find ⟨String.ofList (List.replicate n 'a')⟩ = .error .nameTooLong := by
  have hsize : Disk.pathLimit ≤ (String.ofList (List.replicate n 'a')).utf8ByteSize := by
    refine Nat.le_trans h (Nat.le_trans ?_ (length_le_utf8ByteSize _))
    rw [List.length_replicate]
  have hnul : Path.hasNul ⟨String.ofList (List.replicate n 'a')⟩ = false := by
    simp only [Path.hasNul, String.toList_ofList, List.contains_eq_mem, decide_eq_false_iff_not]
    intro hmem
    exact absurd (List.eq_of_mem_replicate hmem) (by decide)
  have hempty : String.ofList (List.replicate n 'a') ≠ "" := by
    intro heq
    rw [heq] at hsize
    exact absurd hsize (by decide)
  unfold Disk.find
  rw [hnul, if_neg Bool.false_ne_true, if_neg hempty, if_pos hsize]

/-- There is a way for every fault, on a disk that has nothing but the directory of files. -/
theorem exists_faulty_path {fault : Disk.Fault} (h : fault ≠ .noSpace) :
    ∃ path, Disk.find { root := ⟨"/logs"⟩ } path = .error fault := by
  cases fault with
  | noSuchFile => exact ⟨⟨""⟩, by decide +kernel⟩
  | notDirectory => exact ⟨⟨"/dev/null/x"⟩, by decide +kernel⟩
  | isDirectory => exact ⟨⟨"/"⟩, by decide +kernel⟩
  | noSpace => exact absurd rfl h
  | nameTooLong => exact ⟨_, find_of_long (Nat.le_refl _)⟩
  | nulInName => exact ⟨⟨String.ofList [Char.ofNat 0]⟩, by decide +kernel⟩

theorem exists_write (result : Except Disk.Fault Unit) : ∃ (disk : Disk) (sink : Sink),
    ∀ batch, (sink.write disk batch).map (fun _ => ()) = result := by
  refine ⟨{ root := ⟨"/logs"⟩ }, ?_⟩
  cases result with
  | ok => exact ⟨.stream .null none, fun _ => rfl⟩
  | error fault =>
    by_cases h : fault = .noSpace
    · exact ⟨.stream .full none, fun _ => h ▸ rfl⟩
    · obtain ⟨path, hfind⟩ := exists_faulty_path h
      refine ⟨.reopening path 0, fun batch => ?_⟩
      rw [Sink.write_of_find hfind]
      rfl

/-- Whatever comes of writing a batch, it does so on some disk. -/
theorem Store.exists_altered_write (hw : s.writers[w]? = some writer) (batch : List Job)
    (result : Except Disk.Fault Unit) : ∃ disk sinks, ((s.altered disk sinks).write w batch).2 = result := by
  obtain ⟨disk, sink, hwrite⟩ := exists_write result
  refine ⟨disk, fun _ => sink, ?_⟩
  have hresult := hwrite batch
  have hwriter : (s.altered disk fun _ => sink).writers[w]? = some { writer with sink } := by
    rw [getElem?_altered, hw, Option.map_some]
  have hdisk : (s.altered disk fun _ => sink).disk = disk := rfl
  unfold write
  simp only [hwriter, hdisk]
  cases hcase : sink.write disk batch with
  | ok | error =>
    rw [hcase] at hresult
    exact hresult

end altered

/-- A file of the tables leads to the writer. -/
def Store.Leads (s : Store) (w : WriterId) : Prop :=
  ∃ table key shared, (s.tables table).get? key = some shared ∧ shared.writer = w

section leads
variable {s s' : Store} {w : WriterId} {n : Nat} {handles : Handles}

namespace Store

theorem leads_setTable (h : (s.setTable n handles).Leads w) :
    s.Leads w ∨ ∃ key shared, handles.get? key = some shared ∧ shared.writer = w := by
  obtain ⟨m, key, shared, hget, hw⟩ := h
  unfold setTable at hget
  dsimp only at hget
  split at hget
  · exact .inr ⟨key, shared, hget, hw⟩
  · exact .inl ⟨m, key, shared, hget, hw⟩

theorem leads_insert {key : String} {shared : Shared} (hhandles : handles = s.tables n)
    (h : (s.setTable n (handles.insert key shared)).Leads w) : s.Leads w ∨ shared.writer = w := by
  rcases leads_setTable h with hold | ⟨key', shared', hget, hw⟩
  · exact .inl hold
  · rw [Dict.get?_insert] at hget
    split at hget
    · exact .inr ((congrArg Shared.writer (Option.some.inj hget)).trans hw)
    · exact .inl ⟨n, key', shared', hhandles ▸ hget, hw⟩

theorem leads_closeWriter {v : WriterId} : (s.closeWriter v).Leads w ↔ s.Leads w := by
  unfold closeWriter
  split <;> rfl

theorem leads_release {o : Outlet} (h : (s.release o).1.Leads w) : s.Leads w := by
  unfold release at h
  split at h
  · exact leads_closeWriter.mp h
  · dsimp only at h
    split at h
    · exact h
    · rename_i shared hget
      split at h
      · exact (leads_insert rfl h).elim id fun hw => ⟨_, _, shared, hget, hw⟩
      · rcases leads_setTable (leads_closeWriter.mp h) with hold | ⟨key, shared', hget', hw⟩
        · exact hold
        · rw [Dict.get?_erase] at hget'
          split at hget'
          · cases hget'
          · exact ⟨_, key, shared', hget', hw⟩

theorem leads_retire {t : Transport} (h : (s.retire t).Leads w) : s.Leads w := by
  unfold retire at h
  split at h
  · exact leads_release h
  · exact h

/-- A new transport has a writer that a file of the tables leads to, or a new one. -/
theorem leads_create {path : Path} {options : Options} {o : Outlet}
    (h : s.create n path options = .ok (.ok (s', o))) :
    (s'.Leads w → s.Leads w ∨ w = s.writers.length) ∧ (o.writer = w → s.Leads w ∨ w = s.writers.length) := by
  cases creates h with
  | joins _ hget =>
    have hold : _ = w → s.Leads w := fun hw => ⟨n, path.key, _, hget, hw⟩
    exact ⟨fun hleads => .inl ((leads_insert rfl hleads).elim id hold), fun hw => .inl (hold hw)⟩
  | @opens disk target =>
    refine ⟨fun hleads => ?_, fun hw => .inr hw.symm⟩
    exact (leads_insert (s := ({ s with disk }.addWriter _ _).1) rfl hleads).imp id Eq.symm
  | own => exact ⟨.inl, fun hw => .inr hw.symm⟩

end Store

end leads

end File

namespace Engine

/-- The engine on another disk, with writers that write elsewhere. -/
def altered (e : Engine) (disk : File.Disk) (sinks : WriterId → File.Sink) : Engine :=
  { e with files := e.files.altered disk sinks }

/-- The events that lead from one state to another while others change the disk, and what writers have open. -/
inductive Exposed (e : Engine) : List Event → Engine → Prop
  | refl : Exposed e [] e
  | step {es : List Event} {e₁ e₂ : Engine} {op : Op} {fx : List Effect} :
      Exposed e es e₁ → e₁.step? op = some (e₂, fx) → Exposed e (es ++ [⟨e₁, op, e₂, fx⟩]) e₂
  | alter {es : List Event} {e₁ : Engine} (disk : File.Disk) (sinks : WriterId → File.Sink) :
      Exposed e es e₁ → Exposed e es (e₁.altered disk sinks)

section exposed
variable {e e' : Engine} {op : Op} {fx : List Effect} {es es' : List Event} {w : WriterId}

theorem Run.exposed (h : Run e es e') : Exposed e es e' := by
  induction h with
  | refl => exact .refl
  | step _ hs ih => exact ih.step hs

theorem Exposed.trans {e'' : Engine} (h : Exposed e es e') (h' : Exposed e' es' e'') : Exposed e (es ++ es') e'' := by
  induction h' with
  | refl => simpa using h
  | step _ hs ih =>
    rw [← List.append_assoc]
    exact ih.step hs
  | alter disk sinks _ ih => exact ih.alter disk sinks

theorem Exposed.step?_of_mem (h : Exposed e es e') {ev : Event} (hev : ev ∈ es) :
    ev.before.step? ev.op = some (ev.after, ev.effects) := by
  induction h with
  | refl => cases hev
  | step _ hs ih =>
    rcases List.mem_append.mp hev with hev | hev
    · exact ih hev
    · rw [List.mem_singleton.mp hev]
      exact hs
  | alter _ _ _ ih => exact ih hev

/-! ### Who holds senders -/

/-- A transport that has not been released holds a sender to the writer, or a file of the tables leads to it. -/
def HasHolder (w : WriterId) (e : Engine) : Prop :=
  (∃ t ∈ e.transports, ∃ o, t.outlet? = some o ∧ o.writer = w ∧ o.isReleased = false) ∨ e.files.Leads w

theorem outlet?_retired {t : Transport} {o : File.Outlet} (h : t.retired.outlet? = some o) : o.isReleased = true := by
  obtain ⟨device, isFreed⟩ := t
  cases device with
  | file => exact Option.some.inj h ▸ rfl
  | console | custom => cases h

theorem hasHolder_of_same (htransports : e'.transports = e.transports) (htables : e'.files.tables = e.files.tables) :
    HasHolder w e' ↔ HasHolder w e := by
  unfold HasHolder File.Store.Leads
  rw [htransports, htables]

/-- Only a new writer gets a first holder. -/
theorem hasHolder_step (hs : e.step? op = some (e', fx)) (h : HasHolder w e') :
    HasHolder w e ∨ w = e.files.writers.length := by
  cases traffic hs with
  | quiet _ _ hfiles htransports => exact .inl ((hasHolder_of_same htransports (congrArg File.Store.tables hfiles :)).mp h)
  | takes _ htake _ htransports => exact .inl ((hasHolder_of_same htransports (File.Store.Works.take htake).keeps.1).mp h)
  | @sends v job _ hfiles htransports =>
    have htables := (File.Store.Works.send (s := e.files) v job).keeps.1
    exact .inl ((hasHolder_of_same htransports ((congrArg File.Store.tables hfiles).trans htables)).mp h)
  | @writes v batch _ hfiles htransports =>
    have htables := (File.Store.Works.write (s := e.files) v batch).keeps.1
    exact .inl ((hasHolder_of_same htransports ((congrArg File.Store.tables hfiles).trans htables)).mp h)
  | @rests v _ hfiles htransports =>
    have htables := (File.Store.Works.rest (s := e.files) v).keeps.1
    exact .inl ((hasHolder_of_same htransports ((congrArg File.Store.tables hfiles).trans htables)).mp h)
  | @makes _ _ device _ _ hcrafts htransports =>
    dsimp only at hcrafts htransports
    have hnew : ∀ {P : Prop}, (∀ o, device = .file o → o.writer = w → P) → (e'.files.Leads w → P) →
        (HasHolder w e → P) → P := by
      intro P hfile htable hold
      rcases h with ⟨t, ht, o, ho, hw, hopen⟩ | hleads
      · rw [htransports] at ht
        rcases List.mem_append.mp ht with ht | ht
        · exact hold (.inl ⟨t, ht, o, ho, hw, hopen⟩)
        · rw [List.mem_singleton.mp ht] at ho
          refine hfile o ?_ hw
          cases device with
          | file => exact congrArg Device.file (Option.some.inj ho)
          | console | custom => cases ho
      · exact htable hleads
    generalize e'.files = files' at hcrafts hnew
    cases hcrafts with
    | console | custom => exact hnew nofun (fun hleads => .inl (.inr hleads)) .inl
    | file _ _ _ _ hcreate =>
      obtain ⟨hleads, hwriter⟩ := File.Store.leads_create hcreate
      refine hnew (fun o ho hw => ?_) (fun h => (hleads h).imp .inr id) .inl
      obtain rfl := Device.file.inj ho
      exact (hwriter hw).imp .inr id
  | @frees _ i t _ _ hfiles htransports =>
    dsimp only at hfiles htransports
    left
    rcases h with ⟨t', ht', o, ho, hw, hopen⟩ | hleads
    · rw [htransports] at ht'
      rcases List.mem_or_eq_of_mem_set ht' with ht' | rfl
      · exact .inl ⟨t', ht', o, ho, hw, hopen⟩
      · rw [outlet?_retired ho] at hopen
        cases hopen
    · rw [hfiles] at hleads
      exact .inr (File.Store.leads_retire hleads)

theorem length_writers_step (hs : e.step? op = some (e', fx)) : e.files.writers.length ≤ e'.files.writers.length := by
  have hcontinues : e.files.Continues e'.files := continues_step hs
  by_contra hlt
  obtain ⟨writer', hwriter', -⟩ := hcontinues e'.files.writers.length _ (List.getElem?_eq_getElem (Nat.lt_of_not_le hlt))
  exact absurd (List.getElem?_eq_some_iff.mp hwriter').1 (Nat.lt_irrefl _)

/-- What held senders to a writer is not replaced. -/
theorem Exposed.no_holder (h : Exposed e es e') (hw : w < e.files.writers.length) (hno : ¬HasHolder w e) :
    w < e'.files.writers.length ∧ ¬HasHolder w e' := by
  induction h with
  | refl => exact ⟨hw, hno⟩
  | step _ hs ih =>
    obtain ⟨hlt, hnone⟩ := ih
    refine ⟨Nat.lt_of_lt_of_le hlt (length_writers_step hs), fun hholder => ?_⟩
    exact (hasHolder_step hs hholder).elim hnone (Nat.ne_of_lt hlt)
  | alter _ _ _ ih =>
    obtain ⟨hlt, hnone⟩ := ih
    refine ⟨?_, hnone⟩
    rw [altered, File.Store.length_altered]
    exact hlt

/-- Nobody holds a sender to a writer that is closed. -/
theorem Run.no_holder_of_closed {setup : Setup} {files : File.Store} {config : Config} (hfiles : files.Unshared)
    (h : Run (start setup files config) es e) {writer : File.Writer} (hwriter : e.files.writers[w]? = some writer)
    (hclosed : writer.isClosed = true) : ¬HasHolder w e := by
  have hlends := h.lends hfiles
  have running : ∀ o ∈ e.outlets, o.writer ≠ w := by
    rintro o ho rfl
    obtain ⟨x, hx, hopen⟩ := hlends.accounts.running o ho
    obtain rfl := Option.some.inj (hwriter.symm.trans hx)
    rw [hclosed] at hopen
    cases hopen
  rintro (⟨t, ht, o, ho, rfl, hopen⟩ | ⟨table, key, shared, hget, rfl⟩)
  · obtain ⟨i, hi⟩ := List.mem_iff_getElem?.mp ht
    have hheld : t.held? = some o := by
      rw [Transport.held?, ← hlends.marked i t o hi ho, hopen, if_neg Bool.false_ne_true, ho]
    exact running o (List.mem_filterMap.mpr ⟨t, ht, hheld⟩) rfl
  · rcases Nat.eq_zero_or_pos (File.Store.shares table key e.outlets) with hzero | hpos
    · rw [hlends.accounts.closed table key hzero] at hget
      cases hget
    · obtain ⟨v, hget', hall⟩ := hlends.accounts.opened table key hpos
      obtain rfl := Option.some.inj (hget.symm.trans hget')
      obtain ⟨o, ho, hshare⟩ := File.Store.shares_pos_iff.mp hpos
      exact running o ho (hall o ho hshare)

end exposed

end Engine

end LogDispatch
