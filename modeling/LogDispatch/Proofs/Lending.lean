import LogDispatch.Proofs.Bounds

/-! Shares in files. Transports that are made take shares in the files that are open, or open them; once all of
    them have been released, the same files are open for the same transports as before (`Lent.restored`). -/

namespace LogDispatch

namespace File.Store

/-- How many of the transports share a file. -/
def shares (table : Nat) (key : String) (held : List Outlet) : Nat :=
  held.countP fun o => o.share == some ⟨table, key⟩

section disk
variable {s s' : Store} {o : Outlet} {table : Nat} {path : Path} {options : Options}

/-- Making a transport changes the disk by opening a file, if its file is streamed. -/
theorem disk_create (h : s.create table path options = .ok (.ok (s', o))) : s'.disk = s.disk ∨
    (options.stream = true ∧ ∃ target, s.disk.openFile path options.mode options.startsAnew = .ok (s'.disk, target)) := by
  cases creates h with
  | joins | own => exact .inl rfl
  | opens hstream _ hopen => exact .inr ⟨hstream, _, hopen⟩

theorem disk_send (w : WriterId) (job : Job) : (s.send w job).disk = s.disk := by
  unfold send
  split <;> rfl

theorem disk_take? {w : WriterId} {n : Nat} {batch : List Job} (h : s.take? w n = some (s', batch)) :
    s'.disk = s.disk := by
  obtain ⟨writer, -, h⟩ := Option.bind_eq_some_iff.mp h
  obtain ⟨_, -, h⟩ := Option.bind_eq_some_iff.mp h
  obtain ⟨rfl, -⟩ := Prod.mk.inj (Option.some.inj h)
  rfl

theorem disk_rest (w : WriterId) : (s.rest w).disk = s.disk := by
  unfold rest
  split <;> rfl

theorem disk_closeWriter (w : WriterId) : (s.closeWriter w).disk = s.disk := by
  unfold closeWriter
  split <;> rfl

theorem disk_release : (s.release o).1.disk = s.disk := by
  unfold release
  split
  · exact disk_closeWriter _
  · dsimp only
    split
    · rfl
    · split
      · rfl
      · exact disk_closeWriter _

end disk

/-- The store with shares given to these transports. Files that were not open are open for them alone. -/
structure Lent (base s : Store) (held : List Outlet) : Prop where
  writers : ∃ more, s.writers = base.writers ++ more ∧ ∀ w ∈ more, w.queue = []
  keys : ∀ n, ∃ new, (s.tables n).keys = (base.tables n).keys ++ new
  shared : ∀ n key shared, (base.tables n).get? key = some shared →
    (s.tables n).get? key = some { shared with listeners := shared.listeners + shares n key held }
  opened : ∀ n key, (base.tables n).get? key = none →
    (shares n key held = 0 ∧ (s.tables n).get? key = none) ∨
      (0 < shares n key held ∧ ∃ w, base.writers.length ≤ w ∧
        (s.tables n).get? key = some ⟨w, shares n key held⟩)
  own : ∀ o ∈ held, o.share = none → base.writers.length ≤ o.writer

section shares
variable {s : Store} {table n : Nat} {key key' : String} {o : Outlet} {held : List Outlet} {value : Shared}

theorem shares_concat (h : o.share = some ⟨table, key⟩) :
    shares n key' (held ++ [o]) = shares n key' held + if n = table ∧ key' = key then 1 else 0 := by
  simp only [shares, List.countP_append, List.countP_singleton, h, beq_iff_eq, Option.some.injEq, Share.mk.injEq]
  simp only [eq_comm]

theorem shares_cons (h : o.share = some ⟨table, key⟩) :
    shares n key' (o :: held) = shares n key' held + if n = table ∧ key' = key then 1 else 0 := by
  simp only [shares, List.countP_cons, h, beq_iff_eq, Option.some.injEq, Share.mk.injEq]
  simp only [eq_comm]

theorem shares_concat_of_own (h : o.share = none) : shares n key (held ++ [o]) = shares n key held := by
  simp [shares, List.countP_append, h]

theorem shares_cons_of_own (h : o.share = none) : shares n key (o :: held) = shares n key held := by
  simp [shares, h]

theorem get?_setTable_insert : ((s.setTable table ((s.tables table).insert key value)).tables n).get? key' =
    if n = table ∧ key' = key then some value else (s.tables n).get? key' := by
  simp only [setTable]
  by_cases hn : n = table
  · subst hn
    simp [Dict.get?_insert]
  · simp [hn]

theorem get?_setTable_erase : ((s.setTable table ((s.tables table).erase key)).tables n).get? key' =
    if n = table ∧ key' = key then none else (s.tables n).get? key' := by
  simp only [setTable]
  by_cases hn : n = table
  · subst hn
    simp [Dict.get?_erase]
  · simp [hn]

theorem keys_setTable_insert (s : Store) (table : Nat) (key : String) (value : Shared) (n : Nat) : ∃ new,
    ((s.setTable table ((s.tables table).insert key value)).tables n).keys = (s.tables n).keys ++ new := by
  simp only [setTable]
  by_cases hn : n = table
  · subst hn
    rw [if_pos rfl, Dict.keys_insert]
    split
    · exact ⟨[], (List.append_nil _).symm⟩
    · exact ⟨[key], rfl⟩
  · rw [if_neg hn]
    exact ⟨[], (List.append_nil _).symm⟩

theorem keys_setTable_erase (n : Nat) : ((s.setTable table ((s.tables table).erase key)).tables n).keys =
    if n = table then (s.tables n).keys.filter (· != key) else (s.tables n).keys := by
  simp only [setTable]
  split
  · rename_i hn
    subst hn
    exact Dict.keys_erase
  · rfl

end shares

namespace Lent
variable {base s s' : Store} {held : List Outlet} {o : Outlet} {table : Nat} {path : Path} {options : Options}

theorem refl (base : Store) : Lent base base [] where
  writers := ⟨[], (List.append_nil _).symm, fun _ h => absurd h List.not_mem_nil⟩
  keys _ := ⟨[], (List.append_nil _).symm⟩
  shared _ _ _ h := h
  opened _ _ h := .inl ⟨rfl, h⟩
  own _ h := absurd h List.not_mem_nil

/-- The shares in one file change, and its table says so. -/
theorem put (h : Lent base s held) {key : String} {value : Shared} {held' : List Outlet}
    (hothers : ∀ n k, ¬(n = table ∧ k = key) → shares n k held' = shares n k held)
    (hshared : ∀ sh, (base.tables table).get? key = some sh →
      value = { sh with listeners := sh.listeners + shares table key held' })
    (hopened : (base.tables table).get? key = none →
      0 < shares table key held' ∧ ∃ w, base.writers.length ≤ w ∧ value = ⟨w, shares table key held'⟩)
    (hown : ∀ x ∈ held', x.share = none → x ∈ held) :
    Lent base (s.setTable table ((s.tables table).insert key value)) held' where
  writers := h.writers
  keys n := by
    obtain ⟨new, hnew⟩ := h.keys n
    obtain ⟨new', hnew'⟩ := keys_setTable_insert s table key value n
    exact ⟨new ++ new', by rw [hnew', hnew, List.append_assoc]⟩
  shared n k sh hbase := by
    rw [get?_setTable_insert]
    split
    · rename_i heq
      obtain ⟨rfl, rfl⟩ := heq
      rw [hshared sh hbase]
    · rename_i hne
      rw [hothers n k hne]
      exact h.shared n k sh hbase
  opened n k hbase := by
    rw [get?_setTable_insert]
    split
    · rename_i heq
      obtain ⟨rfl, rfl⟩ := heq
      obtain ⟨hpos, w, hw, hvalue⟩ := hopened hbase
      exact .inr ⟨hpos, w, hw, congrArg some hvalue⟩
    · rename_i hne
      rw [hothers n k hne]
      exact h.opened n k hbase
  own x hx hshare := h.own x (hown x hx hshare) hshare

/-- Another share in a file is taken. -/
theorem insert (h : Lent base s held) {key : String} {value : Shared} (ho : o.share = some ⟨table, key⟩)
    (hshared : ∀ sh, (base.tables table).get? key = some sh →
      value = { sh with listeners := sh.listeners + (shares table key held + 1) })
    (hopened : (base.tables table).get? key = none →
      ∃ w, base.writers.length ≤ w ∧ value = ⟨w, shares table key held + 1⟩) :
    Lent base (s.setTable table ((s.tables table).insert key value)) (held ++ [o]) := by
  have hone : shares table key (held ++ [o]) = shares table key held + 1 := by
    rw [shares_concat ho, if_pos ⟨rfl, rfl⟩]
  refine h.put (fun n k hne => ?_) (hone ▸ hshared) (fun hbase => ?_) fun x hx hshare => ?_
  · rw [shares_concat ho, if_neg hne, Nat.add_zero]
  · rw [hone]
    exact ⟨Nat.succ_pos _, hopened hbase⟩
  · rcases List.mem_append.mp hx with hx | hx
    · exact hx
    · rw [List.mem_singleton.mp hx, ho] at hshare
      cases hshare

theorem length_writers (h : Lent base s held) : base.writers.length ≤ s.writers.length := by
  obtain ⟨more, hmore, -⟩ := h.writers
  rw [hmore, List.length_append]
  exact Nat.le_add_right _ _

/-- One more writer without lines, on a disk that may have changed. -/
theorem addWriter (h : Lent base s held) (disk : Disk) (sink : Sink) (lock : Bool) :
    Lent base ({ s with disk }.addWriter sink lock).1 held where
  writers := by
    obtain ⟨more, hmore, hqueue⟩ := h.writers
    refine ⟨more ++ [({ sink, lock } : Writer)], ?_, fun w hw => ?_⟩
    · show s.writers ++ [({ sink, lock } : Writer)] = _
      rw [hmore, List.append_assoc]
    · rcases List.mem_append.mp hw with hw | hw
      · exact hqueue w hw
      · rw [List.mem_singleton.mp hw]
  keys := h.keys
  shared := h.shared
  opened := h.opened
  own := h.own

/-- A transport is lent a share in a file, or has a writer for itself. -/
theorem create (h : Lent base s held) (hs : s.create table path options = .ok (.ok (s', o))) :
    Lent base s' (held ++ [o]) := by
  cases creates hs with
  | joins _ hget =>
    refine h.insert rfl (fun sh hbase => ?_) fun hbase => ?_
    · obtain rfl := Option.some.inj (hget.symm.trans (h.shared _ _ sh hbase))
      rfl
    · rcases h.opened _ _ hbase with ⟨-, hnone⟩ | ⟨-, w, hw, hsome⟩
      · rw [hnone] at hget
        cases hget
      · obtain rfl := Option.some.inj (hget.symm.trans hsome)
        exact ⟨w, hw, rfl⟩
  | opens _ hget =>
    refine (h.addWriter _ _ _).insert rfl (fun sh hbase => ?_) fun hbase => ?_
    · rw [h.shared _ _ sh hbase] at hget
      cases hget
    · rcases h.opened _ _ hbase with ⟨hzero, -⟩ | ⟨-, w, -, hsome⟩
      · exact ⟨s.writers.length, h.length_writers, by rw [hzero]⟩
      · rw [hsome] at hget
        cases hget
  | own =>
    have hadded := h.addWriter s.disk (.reopening path options.mode) options.lock
    refine ⟨hadded.writers, hadded.keys, fun n key sh hbase => ?_, fun n key hbase => ?_, fun x hx hshare => ?_⟩
    · rw [shares_concat_of_own rfl]
      exact hadded.shared n key sh hbase
    · rw [shares_concat_of_own rfl]
      exact hadded.opened n key hbase
    · rcases List.mem_append.mp hx with hx | hx
      · exact h.own x hx hshare
      · rw [List.mem_singleton.mp hx]
        exact h.length_writers

theorem closeWriter (h : Lent base s held) {w : WriterId} (hw : base.writers.length ≤ w) :
    Lent base (s.closeWriter w) held := by
  unfold Store.closeWriter
  split
  · rename_i writer hwriter
    refine ⟨?_, h.keys, h.shared, h.opened, h.own⟩
    obtain ⟨more, hmore, hqueue⟩ := h.writers
    refine ⟨more.set (w - base.writers.length) writer.close, ?_, fun x hx => ?_⟩
    · show s.writers.set w writer.close = _
      rw [hmore, List.set_append_right _ _ hw]
    · rcases List.mem_or_eq_of_mem_set hx with hx | rfl
      · exact hqueue x hx
      · rw [hmore, List.getElem?_append_right hw] at hwriter
        exact hqueue writer (List.mem_of_getElem? hwriter)
  · exact h

/-- A share in a file is given back while others have shares in it. -/
theorem remove (h : Lent base s (o :: held)) {key : String} {value : Shared} (ho : o.share = some ⟨table, key⟩)
    (hget : (s.tables table).get? key = some value) (hmore : 1 < value.listeners) :
    Lent base (s.setTable table ((s.tables table).insert key { value with listeners := value.listeners - 1 })) held := by
  have hone : shares table key (o :: held) = shares table key held + 1 := by rw [shares_cons ho, if_pos ⟨rfl, rfl⟩]
  refine h.put (fun n k hne => ?_) (fun sh hbase => ?_) (fun hbase => ?_) fun x hx _ => List.mem_cons_of_mem _ hx
  · rw [shares_cons ho, if_neg hne, Nat.add_zero]
  · have hold := h.shared table key sh hbase
    rw [hone] at hold
    obtain rfl := Option.some.inj (hget.symm.trans hold)
    rfl
  · rcases h.opened table key hbase with ⟨hzero, -⟩ | ⟨-, w, hw, hsome⟩
    · rw [hone] at hzero
      cases hzero
    · rw [hone] at hsome
      obtain rfl := Option.some.inj (hget.symm.trans hsome)
      exact ⟨Nat.lt_of_succ_lt_succ hmore, w, hw, rfl⟩

/-- The last share in a file is given back: nobody had one before. -/
theorem erase (hb : base.Sound) (h : Lent base s (o :: held)) {key : String} {value : Shared}
    (ho : o.share = some ⟨table, key⟩) (hget : (s.tables table).get? key = some value) (hlast : ¬1 < value.listeners) :
    base.writers.length ≤ value.writer ∧ Lent base (s.setTable table ((s.tables table).erase key)) held := by
  have hone : shares table key (o :: held) = shares table key held + 1 := by rw [shares_cons ho, if_pos ⟨rfl, rfl⟩]
  have hnew : (base.tables table).get? key = none := by
    rw [Option.eq_none_iff_forall_ne_some]
    intro sh hbase
    have hpos := (hb table key sh hbase).2
    obtain rfl := Option.some.inj (hget.symm.trans (h.shared table key sh hbase))
    rw [hone] at hlast
    simp only at hlast
    omega
  rcases h.opened table key hnew with ⟨hzero, -⟩ | ⟨-, w, hw, hsome⟩
  · rw [hone] at hzero
    cases hzero
  obtain rfl := Option.some.inj (hget.symm.trans hsome)
  have hzero : shares table key held = 0 := by
    rw [hone] at hlast
    simp only at hlast
    omega
  refine ⟨hw, h.writers, fun n => ?_, fun n k sh hbase => ?_, fun n k hbase => ?_,
    fun x hx => h.own x (List.mem_cons_of_mem _ hx)⟩
  · obtain ⟨new, hkeys⟩ := h.keys n
    rw [keys_setTable_erase, hkeys]
    split
    · rename_i hn
      subst hn
      refine ⟨new.filter (· != key), ?_⟩
      rw [List.filter_append, List.filter_eq_self.mpr fun k hk => ?_]
      -- The key is not one of those there were before.
      rw [bne_iff_ne]
      rintro rfl
      obtain ⟨sh, hbase⟩ := Dict.mem_keys_iff.mp hk
      rw [hnew] at hbase
      cases hbase
    · exact ⟨new, rfl⟩
  · have hold := h.shared n k sh hbase
    rw [shares_cons ho] at hold
    rw [get?_setTable_erase]
    split
    · rename_i heq
      obtain ⟨rfl, rfl⟩ := heq
      rw [hnew] at hbase
      cases hbase
    · rename_i hne
      rwa [if_neg hne] at hold
  · have hold := h.opened n k hbase
    rw [shares_cons ho] at hold
    rw [get?_setTable_erase]
    split
    · rename_i heq
      obtain ⟨rfl, rfl⟩ := heq
      exact .inl ⟨hzero, rfl⟩
    · rename_i hne
      rwa [if_neg hne] at hold

theorem release (hb : base.Sound) (h : Lent base s (o :: held)) : Lent base (s.release o).1 held := by
  unfold Store.release
  split
  · rename_i hshare
    refine closeWriter ⟨h.writers, h.keys, fun n key sh hbase => ?_, fun n key hbase => ?_,
      fun x hx => h.own x (List.mem_cons_of_mem _ hx)⟩ (h.own o List.mem_cons_self hshare)
    · rw [← shares_cons_of_own hshare]
      exact h.shared n key sh hbase
    · rw [← shares_cons_of_own hshare]
      exact h.opened n key hbase
  · rename_i share hshare
    dsimp only
    split
    · rename_i hget
      -- The file is open, for this transport at least.
      have hone : shares share.table share.key (o :: held) = shares share.table share.key held + 1 := by
        rw [shares_cons hshare, if_pos ⟨rfl, rfl⟩]
      cases hbase : (base.tables share.table).get? share.key with
      | some sh =>
        rw [h.shared _ _ sh hbase] at hget
        cases hget
      | none =>
        rcases h.opened _ _ hbase with ⟨hzero, -⟩ | ⟨-, w, -, hsome⟩
        · rw [hone] at hzero
          cases hzero
        · rw [hsome] at hget
          cases hget
    · rename_i shared hget
      split
      · rename_i hmore
        exact h.remove hshare hget hmore
      · rename_i hlast
        obtain ⟨hw, hlent⟩ := h.erase hb hshare hget hlast
        exact hlent.closeWriter hw

/-- Once all shares are given back, the tables are as they were. -/
theorem restored (h : Lent base s []) : s.tables = base.tables := by
  funext n
  have hget : ∀ key, (s.tables n).get? key = (base.tables n).get? key := fun key => by
    cases hbase : (base.tables n).get? key with
    | some sh => exact h.shared n key sh hbase
    | none =>
      rcases h.opened n key hbase with ⟨-, hnone⟩ | ⟨hpos, -⟩
      · exact hnone
      · cases hpos
  refine Dict.ext_get? ?_ hget
  obtain ⟨new, hnew⟩ := h.keys n
  -- A key that is new would stand in the table as it was.
  cases new with
  | nil => rw [hnew, List.append_nil]
  | cons key new =>
    have hmem : key ∈ (s.tables n).keys := by rw [hnew]; simp
    obtain ⟨value, hvalue⟩ := Dict.mem_keys_iff.mp hmem
    have hold : key ∈ (base.tables n).keys := Dict.mem_keys_iff.mpr ⟨value, (hget key).symm.trans hvalue⟩
    have hnodup : (s.tables n).keys.Nodup := (s.tables n).nodup
    rw [hnew, List.nodup_append] at hnodup
    exact absurd rfl (hnodup.2.2 key hold key List.mem_cons_self)

end Lent

end File.Store

end LogDispatch
