import LogDispatch.Level
import LogDispatch.Proofs.LowerCase
import LogDispatch.Proofs.Outcomes
import Mathlib.Data.List.Nodup

/-! Level names and their ranks. A table has the normal forms of the names it is made of, in their order and each once
    (`LevelTable.ofNames?_eq_ok_iff`), so that a rank has one name and a name, however it is spelled, one rank
    (`LevelTable.ofNames?_ranks`). -/

namespace LogDispatch

theorem normalName_normalName (name : String) : normalName (normalName name) = normalName name := by
  rw [normalName, normalName, Text.trim_lower_trim, Text.lower_lower]

namespace LevelTable

variable {t : LevelTable} {taken names given result : List String} {name : String} {rank : Nat}

/-! ### Making a table -/

/-- The names are added behind those taken, unless one is blank or makes a repetition. -/
theorem extend?_eq_ok_iff (htaken : taken.Nodup) : extend? taken names = .ok result ↔
    (∀ name ∈ names, normalName name ≠ "") ∧ (taken ++ names.map normalName).Nodup ∧
      result = taken ++ names.map normalName := by
  induction names generalizing taken with
  | nil =>
    rw [List.map_nil, List.append_nil]
    refine ⟨fun h => ⟨fun _ hname => absurd hname List.not_mem_nil, htaken, (Except.ok.inj h).symm⟩, ?_⟩
    rintro ⟨-, -, rfl⟩
    rfl
  | cons name names ih =>
    have happend : taken ++ (name :: names).map normalName = taken ++ [normalName name] ++ names.map normalName := by
      simp
    rw [happend, List.forall_mem_cons]
    by_cases hempty : normalName name = ""
    · refine iff_of_false ?_ fun h => h.1.1 hempty
      rw [extend?, if_pos hempty]
      exact nofun
    · by_cases hrepeat : normalName name ∈ taken
      · refine iff_of_false ?_ fun ⟨_, hnodup, _⟩ => ?_
        · rw [extend?, if_neg hempty, if_pos hrepeat]
          exact nofun
        · have hapart := List.nodup_append.mp (List.nodup_append.mp hnodup).1
          exact hapart.2.2 _ hrepeat _ (List.mem_singleton_self _) rfl
      · have hnew : (taken ++ [normalName name]).Nodup := by
          refine List.nodup_append.mpr ⟨htaken, List.nodup_singleton _, fun x hx y hy => ?_⟩
          rw [List.mem_singleton.mp hy]
          exact fun heq => hrepeat (heq ▸ hx)
        rw [extend?, if_neg hempty, if_neg hrepeat, ih hnew]
        exact and_congr_left' ⟨fun hnames => ⟨hempty, hnames⟩, And.right⟩

theorem ofNames?_eq_ok_iff : ofNames? given = .ok t ↔
    given ≠ [] ∧ (∀ name ∈ given, normalName name ≠ "") ∧ (given.map normalName).Nodup ∧
      t = ⟨given.map normalName⟩ := by
  constructor
  · intro h
    obtain ⟨normal, hnormal, h⟩ := bind_eq_ok h
    obtain ⟨hnonempty, hnodup, rfl⟩ := (extend?_eq_ok_iff .nil).mp hnormal
    split at h
    · cases h
    · rename_i hsome
      obtain rfl := Except.ok.inj h
      refine ⟨?_, hnonempty, hnodup, rfl⟩
      rintro rfl
      exact hsome rfl
  · rintro ⟨hsome, hnonempty, hnodup, rfl⟩
    have hnormal : extend? [] given = .ok (given.map normalName) :=
      (extend?_eq_ok_iff .nil).mpr ⟨hnonempty, hnodup, rfl⟩
    rw [ofNames?, hnormal]
    refine if_neg ?_
    simpa using hsome

theorem nodup_ofNames? (h : ofNames? given = .ok t) : t.names.Nodup := by
  obtain ⟨-, -, hnodup, rfl⟩ := ofNames?_eq_ok_iff.mp h
  exact hnodup

/-! ### Ranks and names -/

theorem rank?_eq_some_iff (hnodup : t.names.Nodup) :
    t.rank? name = some rank ↔ t.name? rank = some (normalName name) := by
  rw [rank?, name?, List.findIdx?_eq_some_iff_getElem, List.getElem?_eq_some_iff]
  constructor
  · rintro ⟨hlt, hname, -⟩
    exact ⟨hlt, eq_of_beq hname⟩
  · rintro ⟨hlt, hname⟩
    refine ⟨hlt, beq_iff_eq.mpr hname, fun earlier hearlier hsame => ?_⟩
    have hbefore : earlier < t.names.length := Nat.lt_trans hearlier hlt
    have hrepeat : t.names[earlier] = t.names[rank] := (eq_of_beq hsame).trans hname.symm
    exact Nat.ne_of_lt hearlier (hnodup.getElem_inj_iff.mp hrepeat)

theorem rank?_congr {name' : String} (h : normalName name = normalName name') : t.rank? name = t.rank? name' := by
  rw [rank?, rank?, h]

theorem name?_eq_none_iff : t.name? rank = none ↔ t.size ≤ rank := List.getElem?_eq_none_iff

theorem resolve_rank_eq_ok_iff {r : Nat} : t.resolve (.rank rank) = .ok r ↔ rank < t.size ∧ r = rank := by
  simp only [resolve]
  split
  · rename_i hrank
    exact ⟨fun h => ⟨hrank, (Except.ok.inj h).symm⟩, fun h => congrArg Except.ok h.2.symm⟩
  · rename_i hrank
    exact iff_of_false nofun fun h => hrank h.1

theorem resolve_name_eq_ok_iff {r : Nat} : t.resolve (.name name) = .ok r ↔ t.rank? name = some r := by
  simp only [resolve]
  split <;> rename_i hrank <;> simp [hrank]

/-- How a table ranks the names that it was made of. -/
structure Ranks (t : LevelTable) (given : List String) : Prop where
  /-- There are as many ranks as names, and the names of the ranks are those given, normalised. -/
  size : t.size = given.length
  name : ∀ rank, t.name? rank = given[rank]?.map normalName
  /-- The names of the table and the ranks below its size belong together. -/
  rank_of_name : ∀ name ∈ t.names, ∃ rank, rank < t.size ∧ t.rank? name = some rank ∧ t.name? rank = some name
  name_of_rank : ∀ rank, rank < t.size → ∃ name, name ∈ t.names ∧ t.name? rank = some name ∧ t.rank? name = some rank
  no_name : ∀ rank, t.name? rank = none ↔ t.size ≤ rank
  /-- A name in any spelling has the rank of the name given that is the same when both are normalised. -/
  rank : ∀ name rank, t.rank? name = some rank ↔ (given.map normalName)[rank]? = some (normalName name)
  spelling : ∀ name name', normalName name = normalName name' → t.rank? name = t.rank? name'
  /-- What a call names as its level. -/
  resolve_rank : ∀ rank r, t.resolve (.rank rank) = .ok r ↔ rank < t.size ∧ r = rank
  resolve_name : ∀ name r, t.resolve (.name name) = .ok r ↔ t.rank? name = some r

theorem normalName_of_mem (hname : name ∈ given.map normalName) : normalName name = name := by
  obtain ⟨name, -, rfl⟩ := List.mem_map.mp hname
  exact normalName_normalName name

/-- A table is made of at least one name, where none is blank and no two are the same when normalised; it ranks the
    names in their order. -/
theorem ofNames?_ranks (given : List String) :
    ((∃ t, ofNames? given = .ok t) ↔
      given ≠ [] ∧ (∀ name ∈ given, normalName name ≠ "") ∧ (given.map normalName).Nodup) ∧
    ∀ t, ofNames? given = .ok t → t.Ranks given := by
  constructor
  · constructor
    · rintro ⟨t, ht⟩
      obtain ⟨hsome, hnonempty, hnodup, -⟩ := ofNames?_eq_ok_iff.mp ht
      exact ⟨hsome, hnonempty, hnodup⟩
    · rintro ⟨hsome, hnonempty, hnodup⟩
      exact ⟨_, ofNames?_eq_ok_iff.mpr ⟨hsome, hnonempty, hnodup, rfl⟩⟩
  · intro t ht
    obtain ⟨-, -, hnodup, rfl⟩ := ofNames?_eq_ok_iff.mp ht
    have hranked : ∀ {name rank}, (⟨given.map normalName⟩ : LevelTable).rank? name = some rank ↔
        (given.map normalName)[rank]? = some (normalName name) := rank?_eq_some_iff hnodup
    have hback : ∀ {name rank}, name ∈ given.map normalName → (given.map normalName)[rank]? = some name →
        (⟨given.map normalName⟩ : LevelTable).rank? name = some rank := fun hname hrank =>
      hranked.mpr ((normalName_of_mem hname).symm ▸ hrank)
    refine
      { size := List.length_map _
        name := fun rank => List.getElem?_map
        rank_of_name := fun name hname => ?_
        name_of_rank := fun rank hrank => ?_
        no_name := fun _ => name?_eq_none_iff
        rank := fun _ _ => hranked
        spelling := fun _ _ => rank?_congr
        resolve_rank := fun _ _ => resolve_rank_eq_ok_iff
        resolve_name := fun _ _ => resolve_name_eq_ok_iff }
    · obtain ⟨rank, hlt, hrank⟩ := List.getElem_of_mem hname
      have hplace := List.getElem?_eq_some_iff.mpr ⟨hlt, hrank⟩
      exact ⟨rank, hlt, hback hname hplace, hplace⟩
    · have hmem := List.getElem_mem (h := hrank)
      have hplace := List.getElem?_eq_some_iff.mpr ⟨hrank, rfl⟩
      exact ⟨_, hmem, hplace, hback hmem hplace⟩

/-- Names with capitals, blanks around them and a sigma at the end. -/
theorem ofNames?_ranks_sigma : ∃ t, ofNames? ["Trace", " NOTICE ", "ΣΑΣ"] = .ok t ∧
    t.Ranks ["Trace", " NOTICE ", "ΣΑΣ"] ∧ t.rank? "σας " = some 2 ∧ t.name? 2 = some "σας" := by
  obtain ⟨t, ht⟩ := (ofNames?_ranks ["Trace", " NOTICE ", "ΣΑΣ"]).1.mpr
    ⟨List.cons_ne_nil _ _, by decide +kernel, by decide +kernel⟩
  have hranks := (ofNames?_ranks _).2 t ht
  refine ⟨t, ht, hranks, (hranks.rank _ _).mpr (by decide +kernel), ?_⟩
  rw [hranks.name]
  decide +kernel

end LevelTable

end LogDispatch
