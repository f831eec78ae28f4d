import LogDispatch.File.Store
import LogDispatch.Proofs.Dict
import LogDispatch.Proofs.Outcomes

/-! Stores of files. What is shared is open (`File.Store.Sound`), and writers are never given up (`Keeps`). How a file
    is opened, a batch written and a transport made is read off `Disk.Opens`, `Sink.Writes` and `Store.Creates`. -/

namespace LogDispatch

namespace File

/-- How something is opened: a file has an entry from then on, which is empty if it is new or opened anew; a device
    is found and nothing else. -/
inductive Disk.Opens (d : Disk) (path : Path) (anew : Bool) : Disk → Target → Prop
  | file {name : String} {entry : Entry} : d.find path = .ok (.file name) →
      entry.content = (if anew then [] else ((d.files.get? name).map Entry.content).getD []) →
      Opens d path anew { d with files := d.files.insert name entry } (.file name)
  | device {target : Target} : d.find path = .ok target → (∀ name, target ≠ .file name) → Opens d path anew d target

theorem Disk.opens {d d' : Disk} {path : Path} {mode : Nat} {anew : Bool} {target : Target}
    (h : d.openFile path mode anew = .ok (d', target)) : d.Opens path anew d' target := by
  obtain ⟨found, hfind, h⟩ := bind_eq_ok h
  cases found with
  | file name =>
    obtain ⟨rfl, rfl⟩ := Prod.mk.inj (Except.ok.inj h)
    refine .file hfind ?_
    cases d.files.get? name <;> cases anew <;> rfl
  | null | full =>
    obtain ⟨rfl, rfl⟩ := Prod.mk.inj (Except.ok.inj h)
    exact .device hfind nofun

section find
variable {d d' : Disk} (hroot : d'.root = d.root)
include hroot

theorem Disk.directory?_of_root (p : Disk.Place) (name : String) : d'.directory? p name = d.directory? p name := by
  cases p <;> simp only [directory?, hroot]

theorem Disk.enter_of_root {p q : Disk.Place} {name : String} (h : d.enter p name = .ok q) : d'.enter p name = .ok q := by
  unfold enter at h ⊢
  rw [directory?_of_root hroot]
  by_cases hdots : name = "." ∨ name = ".."
  · rcases hdots with rfl | rfl <;> exact h
  · obtain ⟨hsame, habove⟩ := not_or.mp hdots
    rw [if_neg hsame, if_neg habove] at h ⊢
    split at h
    · cases h
    · rename_i hshort
      rw [if_neg hshort]
      split at h
      · exact h
      · cases h

theorem Disk.lookUp_of_root (p : Disk.Place) (name : String) : d'.lookUp p name = d.lookUp p name := by
  unfold lookUp
  have htarget : d'.target? p name = d.target? p name := by cases p <;> simp only [target?, hroot]
  rw [directory?_of_root hroot, htarget]

/-- Where a path leads does not depend on the files that there are. -/
theorem Disk.find_of_root {path : Path} {target : Disk.Target} (h : d.find path = .ok target) :
    d'.find path = .ok target := by
  have walk : ∀ (names : List String) (p q : Disk.Place), names.foldlM d.enter p = .ok q →
      names.foldlM d'.enter p = .ok q := by
    intro names
    induction names with
    | nil => exact fun _ _ h => h
    | cons name names ih =>
      intro p q h
      obtain ⟨place, hplace, h⟩ := bind_eq_ok h
      rw [List.foldlM_cons, enter_of_root hroot hplace]
      exact ih place q h
  unfold find at h ⊢
  split at h
  · cases h
  · rename_i hnul
    rw [if_neg hnul]
    split at h
    · cases h
    · rename_i hempty
      rw [if_neg hempty]
      split at h
      · cases h
      · rename_i hshort
        rw [if_neg hshort]
        split at h
        · cases h
        · obtain ⟨place, hplace, h⟩ := bind_eq_ok h
          simp only [walk _ _ _ hplace, lookUp_of_root hroot]
          exact h

end find

/-- How a sink writes a batch: to what it has open, or to what it opens for the batch. -/
inductive Sink.Writes (d : Disk) (bytes : List UInt8) : Sink → Disk → Sink → Prop
  | stream {target : Disk.Target} {position : Option Nat} {d' : Disk} : d.write target position bytes = .ok d' →
      Writes d bytes (.stream target position) d' (.stream target (position.map (· + bytes.length)))
  | reopening {path : Path} {mode : Nat} {target : Disk.Target} {opened d' : Disk} :
      d.openFile path mode false = .ok (opened, target) → opened.write target none bytes = .ok d' →
      Writes d bytes (.reopening path mode) d' (.reopening path mode)

theorem Sink.writes {d d' : Disk} {sink sink' : Sink} {batch : List Job} (h : sink.write d batch = .ok (d', sink')) :
    Writes d (batchBytes batch) sink d' sink' := by
  cases sink with
  | stream target position =>
    obtain ⟨d₁, hwrite, h⟩ := bind_eq_ok h
    obtain ⟨rfl, rfl⟩ := Prod.mk.inj (Except.ok.inj h)
    exact .stream hwrite
  | reopening path mode =>
    obtain ⟨⟨opened, target⟩, hopen, h⟩ := bind_eq_ok h
    obtain ⟨d₁, hwrite, h⟩ := bind_eq_ok h
    obtain ⟨rfl, rfl⟩ := Prod.mk.inj (Except.ok.inj h)
    exact .reopening hopen hwrite

theorem Outlet.sender?_eq_some {o : Outlet} {w : WriterId} :
    o.sender? = some w ↔ o.isReleased = false ∧ o.writer = w := by
  rw [sender?, Option.ite_none_left_eq_some, Option.some.injEq, Bool.not_eq_true]

namespace Store

/-- The files that are shared have writers, and somebody shares them. -/
def Sound (s : Store) : Prop :=
  ∀ n key shared, (s.tables n).get? key = some shared → shared.writer < s.writers.length ∧ 0 < shared.listeners

/-- The store has all writers it had, and shares the same files. -/
structure Keeps (s s' : Store) : Prop where
  tables : s'.tables = s.tables
  writers : s'.writers.length = s.writers.length

variable {s s' : Store}

theorem Keeps.sound (h : Keeps s s') (hs : s.Sound) : s'.Sound := by
  intro n key shared hget
  rw [h.tables] at hget
  rw [h.writers]
  exact hs n key shared hget

theorem keeps_setWriter (w : WriterId) (writer : Writer) : Keeps s (s.setWriter w writer) where
  tables := rfl
  writers := List.length_set

theorem keeps_closeWriter (w : WriterId) : Keeps s (s.closeWriter w) := by
  unfold closeWriter
  split
  · exact keeps_setWriter ..
  · exact ⟨rfl, rfl⟩

theorem keeps_send (w : WriterId) (job : Job) : Keeps s (s.send w job) := by
  unfold send
  split
  · exact keeps_setWriter ..
  · exact ⟨rfl, rfl⟩

theorem keeps_take? {w : WriterId} {n : Nat} {batch : List Job} (h : s.take? w n = some (s', batch)) : Keeps s s' := by
  unfold take? at h
  cases hw : s.writers[w]? with
  | none =>
    rw [hw] at h
    cases h
  | some writer =>
    cases hb : writer.take? n with
    | none => simp [hw, hb] at h
    | some r =>
      simp only [hw, hb, Option.bind_eq_bind, Option.bind_some, Option.some.injEq, Prod.mk.injEq] at h
      obtain ⟨rfl, -⟩ := h
      exact keeps_setWriter ..

theorem keeps_write (w : WriterId) (batch : List Job) : Keeps s (s.write w batch).1 := by
  unfold write
  split
  · exact ⟨rfl, rfl⟩
  · split
    · exact ⟨rfl, List.length_set⟩
    · exact ⟨rfl, rfl⟩

theorem keeps_rest (w : WriterId) : Keeps s (s.rest w) := by
  unfold rest
  split
  · exact keeps_setWriter ..
  · exact ⟨rfl, rfl⟩

theorem length_release (o : Outlet) : (s.release o).1.writers.length = s.writers.length := by
  unfold release
  split
  · exact (keeps_closeWriter _).writers
  · dsimp only
    split
    · rfl
    · split
      · rfl
      · exact (keeps_closeWriter _).writers

theorem sound_setTable {n : Nat} {handles : Handles} (hs : s.Sound)
    (h : ∀ key shared, handles.get? key = some shared → shared.writer < s.writers.length ∧ 0 < shared.listeners) :
    (s.setTable n handles).Sound := by
  intro k key shared hget
  unfold setTable at hget
  dsimp only at hget
  split at hget
  · exact h key shared hget
  · exact hs k key shared hget

theorem sound_release (hs : s.Sound) (o : Outlet) : (s.release o).1.Sound := by
  unfold release
  split
  · exact (keeps_closeWriter _).sound hs
  · rename_i share _
    dsimp only
    split
    · exact hs
    · rename_i shared hget
      split
      · rename_i hmore
        refine sound_setTable hs fun key shared' hget' => ?_
        rw [Dict.get?_insert] at hget'
        split at hget'
        · obtain rfl := Option.some.inj hget'
          exact ⟨(hs _ _ _ hget).1, Nat.sub_pos_of_lt hmore⟩
        · exact hs _ _ _ hget'
      · refine (keeps_closeWriter _).sound (sound_setTable hs fun key shared' hget' => ?_)
        rw [Dict.get?_erase] at hget'
        split at hget'
        · cases hget'
        · exact hs _ _ _ hget'

/-- A new transport has a writer, which may be one that is there already. -/
structure Provides (s s' : Store) (o : Outlet) : Prop where
  writers : s.writers.length ≤ s'.writers.length
  writer : s.Sound → o.writer < s'.writers.length
  sound : s.Sound → s'.Sound

/-- How a transport is made: it joins those that share its file, or opens the file, or gets a writer for itself. -/
inductive Creates (s : Store) (table : Nat) (path : Path) (options : Options) : Store → Outlet → Prop
  | joins {shared : Shared} : options.stream = true → (s.tables table).get? path.key = some shared →
      Creates s table path options
        (s.setTable table ((s.tables table).insert path.key { shared with listeners := shared.listeners + 1 }))
        ⟨shared.writer, some ⟨table, path.key⟩, false⟩
  | opens {disk : Disk} {target : Disk.Target} : options.stream = true → (s.tables table).get? path.key = none →
      s.disk.openFile path options.mode options.startsAnew = .ok (disk, target) →
      Creates s table path options
        (({ s with disk }.addWriter (.stream target (if options.startsAnew then some 0 else none)) options.lock).1.setTable
          table ((s.tables table).insert path.key ⟨s.writers.length, 1⟩))
        ⟨s.writers.length, some ⟨table, path.key⟩, false⟩
  | own : options.stream = false → Creates s table path options
      (s.addWriter (.reopening path options.mode) options.lock).1 ⟨s.writers.length, none, false⟩

theorem creates {table : Nat} {path : Path} {options : Options} {o : Outlet}
    (h : s.create table path options = .ok (.ok (s', o))) : Creates s table path options s' o := by
  unfold create at h
  split at h
  · rename_i hstream
    have h := Except.ok.inj h
    unfold acquire at h
    split at h
    · rename_i hget
      obtain ⟨rfl, rfl⟩ := Prod.mk.inj (Except.ok.inj h)
      exact .joins hstream hget
    · rename_i hget
      split at h
      · cases h
      · rename_i hopen
        obtain ⟨rfl, rfl⟩ := Prod.mk.inj (Except.ok.inj h)
        exact .opens hstream hget hopen
  · rename_i hstream
    split at h
    · cases h
    · obtain ⟨rfl, rfl⟩ := Prod.mk.inj (Except.ok.inj (Except.ok.inj h))
      exact .own (Bool.eq_false_iff.mpr hstream)

section
variable {disk : Disk} {sink : Sink} {lock : Bool}

theorem length_addWriter : ({ s with disk }.addWriter sink lock).1.writers.length = s.writers.length + 1 :=
  List.length_append

theorem sound_addWriter (hs : s.Sound) : ({ s with disk }.addWriter sink lock).1.Sound := fun n key shared hget =>
  ⟨length_addWriter ▸ Nat.lt_succ_of_lt (hs n key shared hget).1, (hs n key shared hget).2⟩

end

theorem provides_create {table : Nat} {path : Path} {options : Options} {o : Outlet}
    (h : s.create table path options = .ok (.ok (s', o))) : Provides s s' o := by
  cases creates h with
  | joins _ hget =>
    refine ⟨Nat.le_refl _, fun hs => (hs _ _ _ hget).1, fun hs => sound_setTable hs fun key shared' hget' => ?_⟩
    rw [Dict.get?_insert] at hget'
    split at hget'
    · obtain rfl := Option.some.inj hget'
      exact ⟨(hs _ _ _ hget).1, Nat.succ_pos _⟩
    · exact hs _ _ _ hget'
  | opens =>
    refine ⟨?_, fun _ => ?_, fun hs => ?_⟩
    · exact length_addWriter ▸ Nat.le_succ _
    · exact length_addWriter ▸ Nat.lt_succ_self _
    · refine sound_setTable (sound_addWriter hs) fun key shared' hget' => ?_
      rw [Dict.get?_insert] at hget'
      split at hget'
      · obtain rfl := Option.some.inj hget'
        exact ⟨length_addWriter ▸ Nat.lt_succ_self _, Nat.one_pos⟩
      · exact sound_addWriter hs _ _ _ hget'
  | own => exact ⟨length_addWriter ▸ Nat.le_succ _, fun _ => length_addWriter ▸ Nat.lt_succ_self _, sound_addWriter⟩

end Store

end File

end LogDispatch
