import LogDispatch.Dict

/-! What dictionaries hold. A dictionary is known by its keys in order and by what stands under each (`Dict.ext_get?`),
    and one of distinct keys is made of the entries that were put in (`Dict.entries_ofList`). -/

namespace LogDispatch

section
variable {α : Type} {key : String} {value : α} {es : List (String × α)} {entry : String × α}

theorem mem_putEntry (h : entry ∈ putEntry key value es) : entry = (key, value) ∨ entry ∈ es := by
  induction es with
  | nil => exact .inl (List.mem_singleton.mp h)
  | cons e es ih =>
    unfold putEntry at h
    split at h
    · rcases List.mem_cons.mp h with h | h
      · exact .inl h
      · exact .inr (List.mem_cons_of_mem _ h)
    · rcases List.mem_cons.mp h with rfl | h
      · exact .inr List.mem_cons_self
      · exact (ih h).imp_right (List.mem_cons_of_mem _)

theorem putEntry_of_notMem (h : key ∉ es.map (·.1)) : putEntry key value es = es ++ [(key, value)] := by
  induction es with
  | nil => rfl
  | cons e es ih =>
    rw [List.map_cons, List.mem_cons, not_or] at h
    rw [putEntry, if_neg (Ne.symm h.1), ih h.2, List.cons_append]

end

namespace Dict
variable {α : Type} {d d' : Dict α} {key key' : String} {value : α} {es : List (String × α)}

theorem ext_entries (h : d.entries = d'.entries) : d = d' := by
  cases d
  cases d'
  cases h
  rfl

/-! ### What stands under a key -/

theorem mem_of_get? (h : d.get? key = some value) : (key, value) ∈ d.entries := by
  obtain ⟨entry, hentry, rfl⟩ := Option.map_eq_some_iff.mp h
  have hkey : entry.1 = key := by simpa using List.find?_some hentry
  rw [← hkey]
  exact List.mem_of_find?_eq_some hentry

theorem get?_of_mem (h : (key, value) ∈ d.entries) : d.get? key = some value := by
  obtain ⟨es, hnodup⟩ := d
  simp only [get?] at h ⊢
  induction es with
  | nil => cases h
  | cons e es ih =>
    rw [List.map_cons, List.nodup_cons] at hnodup
    rw [List.find?_cons]
    rcases List.mem_cons.mp h with rfl | h
    · simp
    · have hne : e.1 ≠ key := fun heq => hnodup.1 (heq ▸ List.mem_map_of_mem (f := Prod.fst) h)
      simp only [beq_eq_false_iff_ne.mpr hne]
      exact ih hnodup.2 h

theorem get?_insert : (d.insert key value).get? key' = if key' = key then some value else d.get? key' := by
  simp only [get?, insert]
  induction d.entries with
  | nil =>
    by_cases h : key = key'
    · simp [putEntry, h]
    · simp [putEntry, h, Ne.symm h]
  | cons e es ih =>
    unfold putEntry
    by_cases he : e.1 = key
    · by_cases h : key = key'
      · simp [he, h]
      · simp [he, h, Ne.symm h]
    · rw [if_neg he]
      by_cases h : e.1 = key'
      · have hne : ¬key' = key := fun hk => he (h.trans hk)
        simp [h, hne]
      · simpa [List.find?_cons, h] using ih

theorem get?_erase : (d.erase key).get? key' = if key' = key then none else d.get? key' := by
  simp only [get?, erase, List.find?_filter]
  by_cases h : key' = key
  · subst h
    simp
  · rw [if_neg h]
    congr 2
    funext e
    by_cases he : e.1 = key'
    · simp [he, h]
    · simp [he]

/-! ### Keys -/

theorem keys_insert : (d.insert key value).keys = if key ∈ d.keys then d.keys else d.keys ++ [key] := keys_putEntry

theorem keys_erase : (d.erase key).keys = d.keys.filter (· != key) := by
  simp only [keys, erase, List.filter_map]
  rfl

theorem mem_keys_iff : key ∈ d.keys ↔ ∃ value, d.get? key = some value := by
  constructor
  · intro h
    obtain ⟨e, he, rfl⟩ := List.mem_map.mp h
    exact ⟨e.2, get?_of_mem he⟩
  · rintro ⟨value, h⟩
    exact List.mem_map_of_mem (f := Prod.fst) (mem_of_get? h)

theorem ext_get? (hkeys : d.keys = d'.keys) (hget : ∀ key, d.get? key = d'.get? key) : d = d' := by
  refine ext_entries (List.ext_getElem ?_ fun i hi hi' => ?_)
  · simpa [keys] using congrArg List.length hkeys
  · have hkey : d.entries[i].1 = d'.entries[i].1 := by
      have hi : i < d.keys.length := by simpa [keys] using hi
      have := List.getElem_of_eq hkeys hi
      simpa [keys] using this
    have hvalue : d.get? d.entries[i].1 = some d.entries[i].2 := get?_of_mem (List.getElem_mem hi)
    have hvalue' : d'.get? d'.entries[i].1 = some d'.entries[i].2 := get?_of_mem (List.getElem_mem hi')
    rw [hget, hkey, hvalue'] at hvalue
    exact Prod.ext hkey (Option.some.inj hvalue).symm

/-! ### Dictionaries of distinct keys -/

theorem entries_insertAll (h : ((d.entries ++ es).map (·.1)).Nodup) : (d.insertAll es).entries = d.entries ++ es := by
  induction es generalizing d with
  | nil => simp [insertAll]
  | cons e es ih =>
    have hkey : e.1 ∉ d.entries.map (·.1) := by
      rw [List.map_append, List.nodup_append] at h
      intro hmem
      exact h.2.2 _ hmem _ (by simp) rfl
    have hinsert : (d.insert e.1 e.2).entries = d.entries ++ [e] := putEntry_of_notMem hkey
    have := ih (d := d.insert e.1 e.2) (by rwa [hinsert, List.append_assoc])
    rwa [hinsert, List.append_assoc] at this

theorem entries_ofList (h : (es.map (·.1)).Nodup) : (ofList es).entries = es :=
  entries_insertAll (d := empty) h

/-! ### What was put in last -/

/-- Of the entries put in, the last one of the key counts. -/
theorem get?_insertAll :
    (d.insertAll es).get? key = ((es.reverse.find? (·.1 == key)).map (·.2)).or (d.get? key) := by
  induction es generalizing d with
  | nil => rfl
  | cons e es ih =>
    have hstep : d.insertAll (e :: es) = (d.insert e.1 e.2).insertAll es := rfl
    rw [hstep, ih, get?_insert, List.reverse_cons, List.find?_append, Option.map_or, Option.or_assoc]
    congr 1
    by_cases h : key = e.1
    · simp [h]
    · simp [h, Ne.symm h]

theorem get?_ofList : (ofList es).get? key = (es.reverse.find? (·.1 == key)).map (·.2) := by
  rw [ofList, get?_insertAll]
  exact Option.or_none

theorem get?_merge : (d.merge d').get? key = (d'.get? key).or (d.get? key) := by
  have hself : ofList d'.entries = d' := ext_entries (entries_ofList d'.nodup)
  rw [merge, get?_insertAll, ← get?_ofList, hself]

end Dict

end LogDispatch
