import LogDispatch.Proofs.Lending
import Mathlib.Data.List.Pairwise

/-! Leases of streamed files. Transports are made and released in any order, and writers work in between; at any time
    the tables count the transports that have not been released, file by file (`Accounts`). A file is locked as the
    transport asked for that opened it (`opener_decides_lock`). -/

namespace LogDispatch

namespace File

/-- The sink without the place it has come to. -/
def Sink.base : Sink → Sink
  | .stream target _ => .stream target none
  | s => s

@[simp] theorem Sink.base_stream {target : Disk.Target} {position : Option Nat} :
    (Sink.stream target position).base = .stream target none := rfl

theorem Sink.base_write {sink sink' : Sink} {d d' : Disk} {batch : List Job} (h : sink.write d batch = .ok (d', sink')) :
    sink'.base = sink.base := by
  cases writes h <;> rfl

/-- The same writer later: it goes to the same file under the same lock, and is not opened again. -/
structure Writer.Continues (w w' : Writer) : Prop where
  lock : w'.lock = w.lock
  sink : w'.sink.base = w.sink.base
  closed : w.isClosed = true → w'.isClosed = true

theorem Writer.Continues.refl (w : Writer) : w.Continues w := ⟨rfl, rfl, id⟩

theorem Writer.Continues.trans {w w' w'' : Writer} (h : w.Continues w') (h' : w'.Continues w'') : w.Continues w'' :=
  ⟨h'.lock.trans h.lock, h'.sink.trans h.sink, fun hclosed => h'.closed (h.closed hclosed)⟩

/-- Two transports have one writer only if they share a file. -/
def Outlet.Apart (o o' : Outlet) : Prop := o.writer = o'.writer → o.share = o'.share ∧ o.share.isSome

instance : Std.Symm Outlet.Apart where
  symm _ _ h hw := by
    obtain ⟨hshare, hsome⟩ := h hw.symm
    exact ⟨hshare.symm, hshare ▸ hsome⟩

namespace Store

/-- The writers there were go on. -/
def Continues (s s' : Store) : Prop :=
  ∀ (w : WriterId) (writer : Writer), s.writers[w]? = some writer →
    ∃ writer', s'.writers[w]? = some writer' ∧ writer.Continues writer'

/-- What writers do by themselves: they are given a line, take a batch, write it, and rest when it is answered for. -/
inductive Works (s : Store) : Store → Prop
  | send (w : WriterId) (job : Job) : Works s (s.send w job)
  | take {w : WriterId} {n : Nat} {s' : Store} {batch : List Job} : s.take? w n = some (s', batch) → Works s s'
  | write (w : WriterId) (batch : List Job) : Works s (s.write w batch).1
  | rest (w : WriterId) : Works s (s.rest w)

section continues
variable {s s' : Store} {w : WriterId} {writer writer' : Writer}

theorem Continues.refl (s : Store) : Continues s s := fun _ writer h => ⟨writer, h, .refl writer⟩

theorem Continues.trans {s'' : Store} (h : Continues s s') (h' : Continues s' s'') : Continues s s'' := by
  intro w writer hw
  obtain ⟨writer', hw', hc⟩ := h w writer hw
  obtain ⟨writer'', hw'', hc'⟩ := h' w writer' hw'
  exact ⟨writer'', hw'', hc.trans hc'⟩

/-- A writer is changed, and no other one. -/
theorem writers_setWriter (hw : s.writers[w]? = some writer') {i : WriterId} (hi : s.writers[i]? = some writer)
    (x : Writer) : ∃ y, (s.setWriter w x).writers[i]? = some y ∧ (y = writer ∨ (writer = writer' ∧ y = x)) := by
  by_cases h : w = i
  · subst h
    refine ⟨x, ?_, .inr ⟨Option.some.inj (hi.symm.trans hw), rfl⟩⟩
    exact List.getElem?_set_self (List.getElem?_eq_some_iff.mp hw).1
  · exact ⟨writer, (List.getElem?_set_ne h).trans hi, .inl rfl⟩

/-- A writer goes on as it does, and no other one is touched. -/
theorem continues_setWriter (hw : s.writers[w]? = some writer) (hc : writer.Continues writer') :
    Continues s (s.setWriter w writer') := by
  intro i x hi
  obtain ⟨y, hy, rfl | ⟨rfl, rfl⟩⟩ := writers_setWriter hw hi writer'
  · exact ⟨y, hy, .refl y⟩
  · exact ⟨y, hy, hc⟩

theorem continues_closeWriter (w : WriterId) : Continues s (s.closeWriter w) := by
  unfold closeWriter
  split
  · rename_i writer hw
    exact continues_setWriter hw ⟨rfl, rfl, fun _ => rfl⟩
  · exact .refl s

theorem continues_addWriter {disk : Disk} {sink : Sink} {lock : Bool} :
    Continues s ({ s with disk }.addWriter sink lock).1 := by
  intro i x hi
  exact ⟨x, (List.getElem?_append_left (List.getElem?_eq_some_iff.mp hi).1).trans hi, .refl x⟩

theorem continues_create {table : Nat} {path : Path} {options : Options} {o : Outlet}
    (h : s.create table path options = .ok (.ok (s', o))) : Continues s s' := by
  cases creates h with
  | joins => exact .refl s
  | opens | own => exact continues_addWriter

theorem continues_release (o : Outlet) : Continues s (s.release o).1 := by
  unfold release
  split
  · exact continues_closeWriter _
  · dsimp only
    split
    · exact .refl s
    · split
      · exact .refl s
      · exact continues_closeWriter (s := s.setTable _ _) _

/-- What writers do by themselves leaves the tables as they are, and none is closed by it. -/
theorem Works.keeps (h : Works s s') : s'.tables = s.tables ∧
    ∀ (w : WriterId) (writer : Writer), s.writers[w]? = some writer →
      ∃ writer', s'.writers[w]? = some writer' ∧ writer.Continues writer' ∧ writer'.isClosed = writer.isClosed := by
  have keep : ∀ {i : WriterId} {writer writer' : Writer}, s.writers[i]? = some writer → writer.Continues writer' →
      writer'.isClosed = writer.isClosed → ∀ (w : WriterId) (x : Writer), s.writers[w]? = some x →
        ∃ y, (s.setWriter i writer').writers[w]? = some y ∧ x.Continues y ∧ y.isClosed = x.isClosed := by
    intro i writer writer' hi hc hclosed w x hx
    obtain ⟨y, hy, rfl | ⟨rfl, rfl⟩⟩ := writers_setWriter hi hx writer'
    · exact ⟨y, hy, .refl y, rfl⟩
    · exact ⟨y, hy, hc, hclosed⟩
  have same : ∀ (w : WriterId) (x : Writer), s.writers[w]? = some x →
      ∃ y, s.writers[w]? = some y ∧ x.Continues y ∧ y.isClosed = x.isClosed := fun w x hx => ⟨x, hx, .refl x, rfl⟩
  cases h with
  | send w job =>
    unfold Store.send
    split
    · rename_i writer hw
      exact ⟨rfl, keep hw ⟨rfl, rfl, id⟩ rfl⟩
    · exact ⟨rfl, same⟩
  | take h =>
    unfold take? at h
    obtain ⟨writer, hw, h⟩ := Option.bind_eq_some_iff.mp h
    obtain ⟨⟨batch, writer'⟩, htake, h⟩ := Option.bind_eq_some_iff.mp h
    obtain ⟨rfl, -⟩ := Prod.mk.inj (Option.some.inj h)
    obtain ⟨-, htake⟩ := Option.ite_none_right_eq_some.mp htake
    obtain ⟨-, rfl⟩ := Prod.mk.inj (Option.some.inj htake)
    exact ⟨rfl, keep hw ⟨rfl, rfl, id⟩ rfl⟩
  | write w batch =>
    unfold Store.write
    split
    · exact ⟨rfl, same⟩
    · rename_i writer hw
      split
      · rename_i disk sink hwrite
        exact ⟨rfl, keep hw ⟨rfl, Sink.base_write hwrite, id⟩ rfl⟩
      · exact ⟨rfl, same⟩
  | rest w =>
    unfold Store.rest
    split
    · rename_i writer hw
      exact ⟨rfl, keep hw ⟨rfl, rfl, id⟩ rfl⟩
    · exact ⟨rfl, same⟩

theorem Works.continues (h : Works s s') : Continues s s' := by
  intro w writer hw
  obtain ⟨writer', hw', hc, -⟩ := h.keeps.2 w writer hw
  exact ⟨writer', hw', hc⟩

end continues

/-! ### The accounts -/

/-- Nothing is shared yet. -/
def Unshared (s : Store) : Prop := ∀ n, s.tables n = .empty

theorem Unshared.sound {s : Store} (h : s.Unshared) : s.Sound := by
  intro n key shared hget
  rw [h n] at hget
  cases hget

/-- What the tables say of the transports that have not been released. A file that nobody shares is not in its table;
    one that is shared has one writer for all that share it, and they are counted. Others do not have that writer, and
    no writer that is in use is closed. -/
structure Accounts (s : Store) (held : List Outlet) : Prop where
  closed : ∀ n key, shares n key held = 0 → (s.tables n).get? key = none
  opened : ∀ n key, 0 < shares n key held → ∃ w, (s.tables n).get? key = some ⟨w, shares n key held⟩ ∧
    ∀ o ∈ held, o.share = some ⟨n, key⟩ → o.writer = w
  apart : held.Pairwise Outlet.Apart
  running : ∀ o ∈ held, ∃ writer, s.writers[o.writer]? = some writer ∧ writer.isClosed = false

/-- The table counts the transports that stream to a path, whose writers are these. It has one writer for all of them,
    and none if there are none. -/
structure Counts (s : Store) (table : Nat) (path : Path) (writers : List WriterId) : Prop where
  listeners : s.listeners table path = writers.length
  entry : ((s.tables table).get? path.key).isSome = true ↔ 0 < writers.length
  one : ∀ w ∈ writers, ((s.tables table).get? path.key).map Shared.writer = some w

/-- The writers of those that share the file of this key. -/
def sharing (table : Nat) (key : String) (held : List Outlet) : List WriterId :=
  (held.filter fun o => o.share == some ⟨table, key⟩).map Outlet.writer

section accounts
variable {s s' : Store} {held held' : List Outlet} {o x : Outlet} {table n : Nat} {key : String} {shared : Shared}
  {path : Path} {options : Options}

theorem shares_pos_iff : 0 < shares n key held ↔ ∃ o ∈ held, o.share = some ⟨n, key⟩ := by
  simp [shares, List.countP_pos_iff]

theorem shares_pos (ho : o ∈ held) (hshare : o.share = some ⟨n, key⟩) : 0 < shares n key held :=
  shares_pos_iff.mpr ⟨o, ho, hshare⟩

namespace Accounts

theorem start (h : s.Unshared) : Accounts s [] where
  closed n key _ := by
    rw [h n]
    rfl
  opened _ _ h := absurd h (Nat.lt_irrefl 0)
  apart := .nil
  running _ h := absurd h List.not_mem_nil

theorem perm (h : Accounts s held) (hp : held.Perm held') : Accounts s held' := by
  have hshares : ∀ n key, shares n key held' = shares n key held := fun n key => (hp.countP_eq _).symm
  refine ⟨fun n key hzero => ?_, fun n key hpos => ?_, ?_, fun o ho => h.running o (hp.mem_iff.mpr ho)⟩
  · exact h.closed n key (hshares n key ▸ hzero)
  · rw [hshares] at hpos ⊢
    obtain ⟨w, hget, hsame⟩ := h.opened n key hpos
    exact ⟨w, hget, fun o ho => hsame o (hp.mem_iff.mpr ho)⟩
  · exact (hp.pairwise_iff fun hoo' => Std.Symm.symm _ _ hoo').mp h.apart

/-- A file is in its table if and only if somebody shares it. -/
theorem get?_eq_some (h : Accounts s held) (hget : (s.tables n).get? key = some shared) :
    0 < shares n key held ∧ shared.listeners = shares n key held ∧
      ∀ o ∈ held, o.share = some ⟨n, key⟩ → o.writer = shared.writer := by
  rcases Nat.eq_zero_or_pos (shares n key held) with hzero | hpos
  · rw [h.closed n key hzero] at hget
    cases hget
  · obtain ⟨w, hsome, hsame⟩ := h.opened n key hpos
    obtain rfl := Option.some.inj (hget.symm.trans hsome)
    exact ⟨hpos, rfl, hsame⟩

theorem lt_of_mem (h : Accounts s held) (ho : o ∈ held) : o.writer < s.writers.length := by
  obtain ⟨writer, hw, -⟩ := h.running o ho
  exact (List.getElem?_eq_some_iff.mp hw).1

/-- Who has the writer of a file that is shared shares the file. -/
theorem share_eq (h : Accounts s held) (hx : x ∈ held) (ho : o ∈ held) (hshare : o.share = some ⟨n, key⟩)
    (hw : x.writer = o.writer) : x.share = some ⟨n, key⟩ := by
  by_cases heq : x = o
  · rw [heq, hshare]
  · exact (h.apart.forall hx ho heq hw).1.trans hshare

/-- What is taken or given back concerns one file. -/
theorem put (h : Accounts s held) {value : Shared}
    (hothers : ∀ n k, ¬(n = table ∧ k = key) → shares n k held' = shares n k held)
    (hpos : 0 < shares table key held') (hvalue : value.listeners = shares table key held')
    (hsame : ∀ o ∈ held', o.share = some ⟨table, key⟩ → o.writer = value.writer)
    (hmem : ∀ n k, ¬(n = table ∧ k = key) → ∀ o ∈ held', o.share = some ⟨n, k⟩ → o ∈ held)
    (hapart : held'.Pairwise Outlet.Apart)
    (hrunning : ∀ o ∈ held', ∃ writer, s.writers[o.writer]? = some writer ∧ writer.isClosed = false) :
    Accounts (s.setTable table ((s.tables table).insert key value)) held' where
  closed n k hzero := by
    rw [get?_setTable_insert]
    split
    · rename_i heq
      obtain ⟨rfl, rfl⟩ := heq
      exact absurd hzero (Nat.ne_of_gt hpos)
    · rename_i hne
      exact h.closed n k (hothers n k hne ▸ hzero)
  opened n k hsome := by
    rw [get?_setTable_insert]
    split
    · rename_i heq
      obtain ⟨rfl, rfl⟩ := heq
      exact ⟨value.writer, by rw [← hvalue], hsame⟩
    · rename_i hne
      rw [hothers n k hne] at hsome ⊢
      obtain ⟨w, hget, hall⟩ := h.opened n k hsome
      exact ⟨w, hget, fun o ho hshare => hall o (hmem n k hne o ho hshare) hshare⟩
  apart := hapart
  running := hrunning

theorem addWriter (h : Accounts s held) (disk : Disk) (sink : Sink) (lock : Bool) :
    Accounts ({ s with disk }.addWriter sink lock).1 held where
  closed := h.closed
  opened := h.opened
  apart := h.apart
  running o ho := by
    obtain ⟨writer, hw, hopen⟩ := h.running o ho
    exact ⟨writer, (List.getElem?_append_left (h.lt_of_mem ho)).trans hw, hopen⟩

/-- A transport that shares a file is added. -/
theorem insert (h : Accounts s held) {w : WriterId} (ho : o = ⟨w, some ⟨table, key⟩, false⟩)
    (hsame : ∀ x ∈ held, x.share = some ⟨table, key⟩ → x.writer = w)
    (hapart : ∀ x ∈ held, x.writer = w → x.share = some ⟨table, key⟩)
    (hrunning : ∃ writer, s.writers[w]? = some writer ∧ writer.isClosed = false) :
    Accounts (s.setTable table ((s.tables table).insert key ⟨w, shares table key held + 1⟩)) (held ++ [o]) := by
  have hshare : o.share = some ⟨table, key⟩ := by rw [ho]
  have hwriter : o.writer = w := by rw [ho]
  have hone : shares table key (held ++ [o]) = shares table key held + 1 := by
    rw [shares_concat hshare, if_pos ⟨rfl, rfl⟩]
  refine h.put (fun n k hne => ?_) ?_ hone.symm (fun x hx hx' => ?_) (fun n k hne x hx hx' => ?_) ?_ fun x hx => ?_
  · rw [shares_concat hshare, if_neg hne, Nat.add_zero]
  · rw [hone]
    exact Nat.succ_pos _
  · rcases List.mem_append.mp hx with hx | hx
    · exact hsame x hx hx'
    · rw [List.mem_singleton.mp hx, hwriter]
  · rcases List.mem_append.mp hx with hx | hx
    · exact hx
    · rw [List.mem_singleton.mp hx, hshare] at hx'
      obtain ⟨rfl, rfl⟩ := Share.mk.inj (Option.some.inj hx')
      exact absurd ⟨rfl, rfl⟩ hne
  · refine List.pairwise_append.mpr ⟨h.apart, List.pairwise_singleton _ _, fun x hx y hy hw => ?_⟩
    rw [List.mem_singleton.mp hy, hwriter] at hw
    rw [List.mem_singleton.mp hy, hshare, hapart x hx hw]
    exact ⟨rfl, rfl⟩
  · rcases List.mem_append.mp hx with hx | hx
    · exact h.running x hx
    · rw [List.mem_singleton.mp hx, hwriter]
      exact hrunning

/-- A transport that has a writer for itself is added. -/
theorem own (h : Accounts s held) (disk : Disk) (sink : Sink) (lock : Bool) :
    Accounts ({ s with disk }.addWriter sink lock).1 (held ++ [⟨s.writers.length, none, false⟩]) := by
  have hadded := h.addWriter disk sink lock
  refine ⟨fun n k hzero => ?_, fun n k hpos => ?_, ?_, fun x hx => ?_⟩
  · rw [shares_concat_of_own rfl] at hzero
    exact hadded.closed n k hzero
  · rw [shares_concat_of_own rfl] at hpos ⊢
    obtain ⟨w, hget, hall⟩ := hadded.opened n k hpos
    refine ⟨w, hget, fun x hx hshare => ?_⟩
    rcases List.mem_append.mp hx with hx | hx
    · exact hall x hx hshare
    · rw [List.mem_singleton.mp hx] at hshare
      cases hshare
  · refine List.pairwise_append.mpr ⟨h.apart, List.pairwise_singleton _ _, fun x hx y hy hw => ?_⟩
    -- The number of the new writer is above those in use.
    rw [List.mem_singleton.mp hy] at hw
    exact absurd hw (Nat.ne_of_lt (h.lt_of_mem hx))
  · rcases List.mem_append.mp hx with hx | hx
    · exact hadded.running x hx
    · rw [List.mem_singleton.mp hx]
      exact ⟨_, List.getElem?_concat_length, rfl⟩

theorem create (h : Accounts s held) (hs : s.create table path options = .ok (.ok (s', o))) :
    Accounts s' (held ++ [o]) := by
  cases creates hs with
  | joins _ hget =>
    obtain ⟨hpos, hcount, hsame⟩ := h.get?_eq_some hget
    obtain ⟨o, ho, hshare⟩ := shares_pos_iff.mp hpos
    rw [hcount]
    refine h.insert rfl hsame (fun x hx hw => ?_) ?_
    · exact h.share_eq hx ho hshare (hw.trans (hsame o ho hshare).symm)
    · exact hsame o ho hshare ▸ h.running o ho
  | @opens disk target _ hget =>
    have hzero : shares table path.key held = 0 := by
      refine Nat.eq_zero_of_not_pos fun hpos => ?_
      obtain ⟨w, hsome, -⟩ := h.opened _ _ hpos
      rw [hget] at hsome
      cases hsome
    have hnone : ∀ x ∈ held, x.share ≠ some ⟨table, path.key⟩ := fun x hx hshare =>
      Nat.ne_of_gt (shares_pos hx hshare) hzero
    have hadded := h.addWriter disk (.stream target (if options.startsAnew then some 0 else none)) options.lock
    have hinsert := hadded.insert rfl (fun x hx hshare => absurd hshare (hnone x hx))
      (fun x hx hw => absurd hw (Nat.ne_of_lt (h.lt_of_mem hx))) ⟨_, List.getElem?_concat_length, rfl⟩
    rw [hzero] at hinsert
    exact hinsert
  | own => exact h.own s.disk _ _

/-- A writer is closed that nobody has any more. -/
theorem closeWriter (h : Accounts s held) {w : WriterId} (hw : ∀ x ∈ held, x.writer ≠ w) :
    Accounts (s.closeWriter w) held := by
  have htables : (s.closeWriter w).tables = s.tables := (keeps_closeWriter w).tables
  refine ⟨htables ▸ h.closed, htables ▸ h.opened, h.apart, fun x hx => ?_⟩
  obtain ⟨writer, hwriter, hopen⟩ := h.running x hx
  refine ⟨writer, ?_, hopen⟩
  unfold Store.closeWriter
  split
  · exact (List.getElem?_set_ne (Ne.symm (hw x hx))).trans hwriter
  · exact hwriter

/-- The last one who shares a file lets go of it. -/
theorem erase (h : Accounts s (o :: held)) (hshare : o.share = some ⟨table, key⟩) (hzero : shares table key held = 0) :
    Accounts (s.setTable table ((s.tables table).erase key)) held := by
  refine ⟨fun n k hnone => ?_, fun n k hpos => ?_, (List.pairwise_cons.mp h.apart).2,
    fun x hx => h.running x (List.mem_cons_of_mem _ hx)⟩
  · rw [get?_setTable_erase]
    split
    · rfl
    · rename_i hne
      refine h.closed n k ?_
      rw [shares_cons hshare, if_neg hne, hnone]
  · rw [get?_setTable_erase]
    split
    · rename_i heq
      obtain ⟨rfl, rfl⟩ := heq
      exact absurd hzero (Nat.ne_of_gt hpos)
    · rename_i hne
      have hsame : shares n k (o :: held) = shares n k held := by rw [shares_cons hshare, if_neg hne, Nat.add_zero]
      obtain ⟨w, hget, hall⟩ := h.opened n k (hsame ▸ hpos)
      exact ⟨w, hsame ▸ hget, fun x hx => hall x (List.mem_cons_of_mem _ hx)⟩

theorem release (h : Accounts s (o :: held)) : Accounts (s.release o).1 held := by
  obtain ⟨hapart, hrest⟩ := List.pairwise_cons.mp h.apart
  cases hshare : o.share with
  | none =>
    have hheld : Accounts s held := by
      refine ⟨fun n k hzero => h.closed n k ?_, fun n k hpos => ?_, hrest,
        fun x hx => h.running x (List.mem_cons_of_mem _ hx)⟩
      · rw [shares_cons_of_own hshare, hzero]
      · obtain ⟨w, hget, hall⟩ := h.opened n k (by rwa [shares_cons_of_own hshare])
        rw [shares_cons_of_own hshare] at hget
        exact ⟨w, hget, fun x hx => hall x (List.mem_cons_of_mem _ hx)⟩
    simp only [Store.release, hshare]
    refine hheld.closeWriter fun x hx hw => ?_
    have hsome := (hapart x hx hw.symm).2
    rw [hshare] at hsome
    cases hsome
  | some share =>
    obtain ⟨table, key⟩ := share
    have hone : shares table key (o :: held) = shares table key held + 1 := by rw [shares_cons hshare, if_pos ⟨rfl, rfl⟩]
    obtain ⟨w, hget, hall⟩ := h.opened table key (by rw [hone]; exact Nat.succ_pos _)
    simp only [Store.release, hshare, hget, hone]
    split
    · rename_i hmore
      refine h.put (fun n k hne => ?_) (Nat.lt_of_succ_lt_succ hmore) rfl
        (fun x hx => hall x (List.mem_cons_of_mem _ hx)) (fun _ _ _ x hx _ => List.mem_cons_of_mem _ hx) hrest
        fun x hx => h.running x (List.mem_cons_of_mem _ hx)
      rw [shares_cons hshare, if_neg hne, Nat.add_zero]
    · rename_i hlast
      have hzero : shares table key held = 0 := by omega
      refine (h.erase hshare hzero).closeWriter fun x hx hw => ?_
      have hwriter : o.writer = x.writer := (hall o List.mem_cons_self hshare).trans hw.symm
      have hsame : x.share = some ⟨table, key⟩ := (hapart x hx hwriter).1.symm.trans hshare
      exact Nat.ne_of_gt (shares_pos hx hsame) hzero

theorem works (h : Accounts s held) (hs : Works s s') : Accounts s' held := by
  obtain ⟨htables, hwriters⟩ := hs.keeps
  refine ⟨htables ▸ h.closed, htables ▸ h.opened, h.apart, fun o ho => ?_⟩
  obtain ⟨writer, hw, hopen⟩ := h.running o ho
  obtain ⟨writer', hw', -, hsame⟩ := hwriters _ _ hw
  exact ⟨writer', hw', hsame.trans hopen⟩

theorem length_sharing : (sharing n key held).length = shares n key held := by
  simp [sharing, shares, List.countP_eq_length_filter]

theorem counts (h : Accounts s held) (n : Nat) (path : Path) : s.Counts n path (sharing n path.key held) := by
  rcases Nat.eq_zero_or_pos (shares n path.key held) with hzero | hpos
  · have hnone := h.closed n path.key hzero
    have hnobody : sharing n path.key held = [] := List.length_eq_zero_iff.mp (length_sharing.trans hzero)
    rw [hnobody]
    exact ⟨by simp [listeners, hnone], by simp [hnone], nofun⟩
  · obtain ⟨w, hget, hsame⟩ := h.opened n path.key hpos
    refine ⟨by simp [listeners, hget, length_sharing], by simp [hget, length_sharing, hpos], fun w' hw' => ?_⟩
    obtain ⟨o, ho, rfl⟩ := List.mem_map.mp hw'
    obtain ⟨hheld, hshare⟩ := List.mem_filter.mp ho
    rw [hget, hsame o hheld (beq_iff_eq.mp hshare)]
    rfl

end Accounts

end accounts

end Store

/-! ### Leases -/

/-- A transport that was made through a table for a path. -/
structure Lease where
  table : Nat
  path : Path
  options : Options
  outlet : Outlet
  deriving DecidableEq, Repr

/-- The transport streams to the path of this key. -/
def Lease.streamsTo (table : Nat) (key : String) (l : Lease) : Bool :=
  l.options.stream && l.table == table && l.path.key == key

/-- What can be done with a store: a transport is made or cannot be made, or one is released, or writers work. -/
inductive Deal where
  | make (lease : Lease)
  | refuse (table : Nat) (path : Path) (options : Options)
  | free (lease : Lease)
  | work
  deriving DecidableEq, Repr

def Deal.apply (held : List Lease) : Deal → List Lease
  | .make lease => held ++ [lease]
  | .free lease => held.erase lease
  | .refuse .. | .work => held

/-- The transports that have been made and not released, in the order in which they were made. -/
def held (ds : List Deal) : List Lease := ds.foldl Deal.apply []

/-- How many transports stream to the path of a key. -/
def streams (table : Nat) (key : String) (ds : List Deal) : Nat := (held ds).countP (Lease.streamsTo table key)

/-- The writers of the transports that stream to the path of a key. -/
def writers (table : Nat) (key : String) (ds : List Deal) : List WriterId :=
  ((held ds).filter (Lease.streamsTo table key)).map fun l => l.outlet.writer

/-- The transport opened the file: nobody streamed to it before, and somebody has ever since. -/
def Opened (table : Nat) (key : String) (ds : List Deal) (opener : Lease) : Prop :=
  ∃ before after, ds = before ++ .make opener :: after ∧ opener.streamsTo table key = true ∧
    streams table key before = 0 ∧ ∀ later, later <+: after → 0 < streams table key (before ++ .make opener :: later)

/-- What becomes of a store in a row of deals. Only transports that are held can be released. -/
inductive Deals (s₀ : Store) : List Deal → Store → Prop
  | none : Deals s₀ [] s₀
  | make {ds : List Deal} {s s' : Store} {table : Nat} {path : Path} {options : Options} {outlet : Outlet} :
      Deals s₀ ds s → s.create table path options = .ok (.ok (s', outlet)) →
      Deals s₀ (ds ++ [.make ⟨table, path, options, outlet⟩]) s'
  | refuse {ds : List Deal} {s : Store} {table : Nat} {path : Path} {options : Options} :
      Deals s₀ ds s → (∀ r, s.create table path options ≠ .ok (.ok r)) →
      Deals s₀ (ds ++ [.refuse table path options]) s
  | free {ds : List Deal} {s : Store} {lease : Lease} :
      Deals s₀ ds s → lease ∈ held ds → Deals s₀ (ds ++ [.free lease]) (s.release lease.outlet).1
  | work {ds : List Deal} {s s' : Store} : Deals s₀ ds s → s.Works s' → Deals s₀ (ds ++ [.work]) s'

section deals
variable {s₀ s s' : Store} {ds : List Deal} {d : Deal} {l lease : Lease} {table n : Nat} {key : String} {path : Path}
  {options : Options} {outlet : Outlet}

@[simp] theorem held_concat : held (ds ++ [d]) = d.apply (held ds) := by simp [held]

theorem streams_pos_iff : 0 < streams n key ds ↔ ∃ l ∈ held ds, l.streamsTo n key = true := by
  simp [streams, List.countP_pos_iff]

theorem streamsTo_iff : l.streamsTo n key = true ↔ l.options.stream = true ∧ l.table = n ∧ l.path.key = key := by
  simp [Lease.streamsTo, and_assoc]

/-- A file that is open goes on to be open as long as somebody streams to it. -/
theorem Opened.concat (h : Opened n key ds l) (hpos : 0 < streams n key (ds ++ [d])) : Opened n key (ds ++ [d]) l := by
  obtain ⟨before, after, rfl, hl, hzero, hever⟩ := h
  refine ⟨before, after ++ [d], by simp, hl, hzero, fun later hlater => ?_⟩
  rcases List.prefix_concat_iff.mp hlater with rfl | hlater
  · simpa using hpos
  · exact hever later hlater

/-- A transport that finds nobody streaming to its path opens the file. -/
theorem opened_make (hl : l.streamsTo n key = true) (hzero : streams n key ds = 0) :
    Opened n key (ds ++ [.make l]) l := by
  refine ⟨ds, [], rfl, hl, hzero, fun later hlater => ?_⟩
  rw [List.prefix_nil.mp hlater]
  exact streams_pos_iff.mpr ⟨l, by simp [Deal.apply], hl⟩

namespace Store

/-- A streamed transport shares the file of its path, any other has a writer for itself. -/
theorem share_create (h : s.create table path options = .ok (.ok (s', outlet))) :
    outlet.share = if options.stream then some ⟨table, path.key⟩ else none := by
  cases creates h with
  | joins hstream | opens hstream | own hstream => rw [hstream]; rfl

theorem isReleased_create (h : s.create table path options = .ok (.ok (s', outlet))) : outlet.isReleased = false := by
  cases creates h <;> rfl

/-- The writer of a file is made as those options say by which it is opened. -/
theorem lock_create (h : s.create table path options = .ok (.ok (s', outlet)))
    (hnone : (s.tables table).get? path.key = none) :
    ∃ writer, s'.writers[outlet.writer]? = some writer ∧ writer.lock = options.lock := by
  cases creates h with
  | joins _ hget =>
    rw [hnone] at hget
    cases hget
  | opens | own => exact ⟨_, List.getElem?_concat_length, rfl⟩

end Store

namespace Deals

theorem share (h : Deals s₀ ds s) (hl : l ∈ held ds) :
    l.outlet.share = if l.options.stream then some ⟨l.table, l.path.key⟩ else Option.none := by
  induction h with
  | none => cases hl
  | make _ hcreate ih =>
    rw [held_concat] at hl
    rcases List.mem_append.mp hl with hl | hl
    · exact ih hl
    · rw [List.mem_singleton.mp hl]
      exact Store.share_create hcreate
  | free _ _ ih =>
    rw [held_concat] at hl
    exact ih (List.mem_of_mem_erase hl)
  | refuse _ _ ih | work _ _ ih =>
    rw [held_concat] at hl
    exact ih hl

theorem accounts (hs : s₀.Unshared) (h : Deals s₀ ds s) : s.Accounts ((held ds).map Lease.outlet) := by
  induction h with
  | none => exact .start hs
  | make _ hcreate ih =>
    rw [held_concat, Deal.apply, List.map_append]
    exact ih.create hcreate
  | free _ hlease ih =>
    rw [held_concat]
    exact (ih.perm ((List.perm_cons_erase hlease).map Lease.outlet)).release
  | refuse _ _ ih =>
    rw [held_concat]
    exact ih
  | work _ hworks ih =>
    rw [held_concat]
    exact ih.works hworks

theorem shares_eq (h : Deals s₀ ds s) (n : Nat) (key : String) :
    Store.shares n key ((held ds).map Lease.outlet) = streams n key ds := by
  rw [Store.shares, streams, List.countP_map]
  refine List.countP_congr fun l hl => ?_
  have hshare := h.share hl
  rw [Function.comp_apply, hshare, streamsTo_iff]
  cases l.options.stream <;> simp

theorem counts (hs : s₀.Unshared) (h : Deals s₀ ds s) (n : Nat) (path : Path) :
    s.Counts n path (writers n path.key ds) := by
  have hcounts := (h.accounts hs).counts n path
  have heq : Store.sharing n path.key ((held ds).map Lease.outlet) = writers n path.key ds := by
    rw [Store.sharing, writers, List.filter_map, List.map_map]
    refine congrArg (List.map _) (List.filter_congr fun l hl => ?_)
    have hshare := h.share hl
    rw [Function.comp_apply, hshare, Bool.eq_iff_iff, beq_iff_eq, streamsTo_iff]
    cases l.options.stream <;> simp
  rwa [heq] at hcounts

/-- Whoever streams to a path has the writer of its file. -/
theorem get?_of_mem (hs : s₀.Unshared) (h : Deals s₀ ds s) (hl : l ∈ held ds) (hstreams : l.streamsTo n key = true) :
    (s.tables n).get? key = some ⟨l.outlet.writer, streams n key ds⟩ := by
  obtain ⟨hstream, rfl, rfl⟩ := streamsTo_iff.mp hstreams
  have hshare := h.share hl
  rw [if_pos hstream] at hshare
  have hmem : l.outlet ∈ (held ds).map Lease.outlet := List.mem_map_of_mem hl
  obtain ⟨w, hget, hsame⟩ := (h.accounts hs).opened _ _ (Store.shares_pos hmem hshare)
  rw [hget, h.shares_eq, hsame _ hmem hshare]

/-- The writer of a file has a lock or not as the one asked for who opened it. -/
theorem lock (hs : s₀.Unshared) (h : Deals s₀ ds s) (hl : l ∈ held ds) (hstreams : l.streamsTo n key = true) :
    ∃ opener writer, Opened n key ds opener ∧ s.writers[l.outlet.writer]? = some writer ∧
      writer.lock = opener.options.lock := by
  -- Who held the transport before goes on to do so, whatever is done.
  have keep : ∀ {ds : List Deal} {d : Deal} {s s' : Store} {l : Lease}, s.Continues s' → l ∈ held (ds ++ [d]) →
      l.streamsTo n key = true →
      (∃ opener writer, Opened n key ds opener ∧ s.writers[l.outlet.writer]? = some writer ∧
        writer.lock = opener.options.lock) →
      ∃ opener writer, Opened n key (ds ++ [d]) opener ∧ s'.writers[l.outlet.writer]? = some writer ∧
        writer.lock = opener.options.lock := by
    intro ds d s s' l hcontinues hl hstreams
    rintro ⟨opener, writer, hopened, hw, hlock⟩
    obtain ⟨writer', hw', hc⟩ := hcontinues _ _ hw
    exact ⟨opener, writer', hopened.concat (streams_pos_iff.mpr ⟨l, hl, hstreams⟩), hw', hc.lock.trans hlock⟩
  induction h generalizing l with
  | none => cases hl
  | @make ds s s' table path options outlet hdeals hcreate ih =>
    have hmade := hdeals.make hcreate
    have hheld : l ∈ held ds ∨ l = ⟨table, path, options, outlet⟩ := by simpa [Deal.apply] using hl
    rcases hheld with hold | rfl
    · exact keep (Store.continues_create hcreate) hl hstreams (ih hold hstreams)
    · rcases Nat.eq_zero_or_pos (streams n key ds) with hzero | hpos
      · obtain ⟨hstream, rfl, rfl⟩ := streamsTo_iff.mp hstreams
        have hnone := (hdeals.accounts hs).closed table path.key (hdeals.shares_eq .. ▸ hzero)
        obtain ⟨writer, hw, hlock⟩ := Store.lock_create hcreate hnone
        exact ⟨_, writer, opened_make hstreams hzero, hw, hlock⟩
      · -- The new transport has the writer of one that was there before.
        obtain ⟨l, hold, hstreams'⟩ := streams_pos_iff.mp hpos
        have hmem : l ∈ held (ds ++ [.make ⟨table, path, options, outlet⟩]) := by simp [Deal.apply, hold]
        have hsame := (hmade.get?_of_mem hs hmem hstreams').symm.trans (hmade.get?_of_mem hs hl hstreams)
        have hwriter : l.outlet.writer = outlet.writer := congrArg Shared.writer (Option.some.inj hsame)
        rw [← hwriter]
        exact keep (Store.continues_create hcreate) hmem hstreams' (ih hold hstreams')
  | free _ _ ih =>
    have hold := List.mem_of_mem_erase (held_concat ▸ hl)
    exact keep (Store.continues_release _) hl hstreams (ih hold hstreams)
  | refuse _ _ ih => exact keep (.refl _) hl hstreams (ih (by simpa [Deal.apply] using hl) hstreams)
  | work _ hworks ih =>
    exact keep hworks.continues hl hstreams (ih (by simpa [Deal.apply] using hl) hstreams)

end Deals

end deals

/-- Transports that are made one after the other through a table. -/
def Store.lend? (s : Store) (table : Nat) : List (Path × Options) → Option (Store × List Lease)
  | [] => some (s, [])
  | (path, options) :: more => match s.create table path options with
    | .ok (.ok (s, outlet)) => (s.lend? table more).map fun (s, leases) => (s, ⟨table, path, options, outlet⟩ :: leases)
    | _ => none

theorem Deals.lend? {s₀ s s' : Store} {ds : List Deal} {table : Nat} {asked : List (Path × Options)}
    {leases : List Lease} (h : Deals s₀ ds s) (hl : s.lend? table asked = some (s', leases)) :
    Deals s₀ (ds ++ leases.map .make) s' := by
  induction asked generalizing ds s leases with
  | nil =>
    obtain ⟨rfl, rfl⟩ := Prod.mk.inj (Option.some.inj hl)
    simpa using h
  | cons x more ih =>
    obtain ⟨path, options⟩ := x
    unfold Store.lend? at hl
    split at hl
    · rename_i s₁ outlet hcreate
      obtain ⟨⟨s₂, made⟩, hmore, heq⟩ := Option.map_eq_some_iff.mp hl
      obtain ⟨rfl, rfl⟩ := Prod.mk.inj heq
      simpa using ih (h.make hcreate) hmore
    · cases hl

/-- Options of a streamed file. -/
def streamed (lock : Bool) : Options :=
  { fileName := "/logs/app.log", mode := defaultMode, stream := true, separate := false, resetFile := false
    masterSuffix := ".master", workerSuffix := ".worker", lock }

def emptyStore : Store := { disk := { root := ⟨"/logs"⟩ } }

/-- Two transports stream to one file, each with its own wish for a lock. -/
def paired (first second : Bool) : Option (Store × List Lease) :=
  emptyStore.lend? 0 [(⟨"/logs/app.log"⟩, streamed first), (⟨"/logs/app.log"⟩, streamed second)]

theorem deals_paired {first second : Bool} {s : Store} {leases : List Lease} (h : paired first second = some (s, leases)) :
    Deals emptyStore (leases.map .make) s := Deals.none.lend? h

end File

end LogDispatch
