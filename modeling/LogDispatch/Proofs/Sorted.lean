import LogDispatch.Dict.Sorted
import Mathlib.Data.List.Nodup

/-! What sorted dictionaries hold. A dictionary is made of its own entries (`SortedDict.ofList_entries`). -/

namespace LogDispatch

section
variable {α : Type} {key : String} {value : α} {x : String × α} {es : List (String × α)}

theorem mem_insertSorted_self (es : List (String × α)) : (key, value) ∈ insertSorted key value es := by
  induction es with
  | nil => exact List.mem_singleton_self _
  | cons e es ih =>
    unfold insertSorted
    split
    · exact List.mem_cons_self
    · split
      · exact List.mem_cons_of_mem _ ih
      · exact List.mem_cons_self

theorem mem_insertSorted_of_ne (h : x ∈ es) (hne : x.1 ≠ key) : x ∈ insertSorted key value es := by
  induction es with
  | nil => cases h
  | cons e es ih =>
    unfold insertSorted
    split
    · exact List.mem_cons_of_mem _ h
    · rename_i hnotLt
      split
      · rcases List.mem_cons.mp h with rfl | h
        · exact List.mem_cons_self
        · exact List.mem_cons_of_mem _ (ih h)
      · rename_i hnotGt
        rcases List.mem_cons.mp h with rfl | h
        · exact absurd (String.le_antisymm (String.not_lt.mp hnotLt) (String.not_lt.mp hnotGt)).symm hne.symm
        · exact List.mem_cons_of_mem _ h

theorem insertSorted_of_forall_lt (h : ∀ e ∈ es, e.1 < key) : insertSorted key value es = es ++ [(key, value)] := by
  induction es with
  | nil => rfl
  | cons e es ih =>
    have hlt := h e List.mem_cons_self
    rw [insertSorted, if_neg (String.lt_asymm hlt), if_pos hlt, ih fun e' he' => h e' (List.mem_cons_of_mem e he'),
      List.cons_append]

theorem nodup_keys_filterMap {β γ : Type} {key : β → String} (f : β → Option γ) {xs : List β}
    (h : (xs.map key).Nodup) : ((xs.filterMap fun x => (f x).map fun v => (key x, v)).map (·.1)).Nodup := by
  have hkeys : (xs.filterMap fun x => (f x).map fun v => (key x, v)).map (·.1) =
      (xs.filter fun x => (f x).isSome).map key := by
    induction xs with
    | nil => rfl
    | cons x xs ih =>
      have ih := ih (List.nodup_cons.mp h).2
      cases hx : f x <;> simp [hx, ih]
  rw [hkeys]
  exact (List.filter_sublist.map key).nodup h

namespace SortedDict
variable {d : SortedDict α}

theorem mem_of_mem_foldl_insert (h : x ∈ (es.foldl (fun d e => d.insert e.1 e.2) d).entries) :
    x ∈ d.entries ∨ x ∈ es := by
  induction es generalizing d with
  | nil => exact .inl h
  | cons e es ih =>
    rcases ih h with h | h
    · exact (mem_insertSorted h).symm.imp_right fun heq => by simp [heq]
    · exact .inr (List.mem_cons_of_mem e h)

theorem mem_of_mem_ofList (h : x ∈ (ofList es).entries) : x ∈ es :=
  (mem_of_mem_foldl_insert h).resolve_left List.not_mem_nil

/-- Entries of different keys all stay. -/
theorem mem_foldl_insert (hnodup : (es.map (·.1)).Nodup) (h : x ∈ es ∨ x ∈ d.entries ∧ x.1 ∉ es.map (·.1)) :
    x ∈ (es.foldl (fun d e => d.insert e.1 e.2) d).entries := by
  induction es generalizing d with
  | nil => simpa using h
  | cons e es ih =>
    rw [List.map_cons, List.nodup_cons] at hnodup
    refine ih hnodup.2 ?_
    rcases h with h | ⟨h, hkey⟩
    · rcases List.mem_cons.mp h with rfl | h
      · exact .inr ⟨mem_insertSorted_self _, hnodup.1⟩
      · exact .inl h
    · rw [List.map_cons, List.mem_cons, not_or] at hkey
      exact .inr ⟨mem_insertSorted_of_ne h hkey.1, hkey.2⟩

theorem mem_ofList (hnodup : (es.map (·.1)).Nodup) : x ∈ (ofList es).entries ↔ x ∈ es :=
  ⟨mem_of_mem_ofList, fun h => mem_foldl_insert hnodup (.inl h)⟩

theorem nodup_keys : (d.entries.map (·.1)).Nodup :=
  List.pairwise_map.mpr (d.sorted.imp fun hlt => String.ne_of_lt hlt)

theorem mem_of_get? (h : d.get? key = some value) : (key, value) ∈ d.entries := by
  obtain ⟨entry, hentry, rfl⟩ := Option.map_eq_some_iff.mp h
  have hkey : entry.1 = key := by simpa using List.find?_some hentry
  rw [← hkey]
  exact List.mem_of_find?_eq_some hentry

theorem get?_eq_some_iff : d.get? key = some value ↔ (key, value) ∈ d.entries := by
  refine ⟨mem_of_get?, fun h => ?_⟩
  cases hget : d.get? key with
  | none =>
    simp only [get?, Option.map_eq_none_iff, List.find?_eq_none, beq_iff_eq] at hget
    exact absurd rfl (hget _ h)
  | some value' =>
    have heq := List.inj_on_of_nodup_map nodup_keys (mem_of_get? hget) h rfl
    rw [(Prod.mk.inj heq).2]

/-- Making a dictionary of what a function gives for some of the values. -/
theorem get?_ofList_filterMap {β : Type} (f : α → Option β) (d : SortedDict α) (key : String) :
    (ofList (d.entries.filterMap fun e => (f e.2).map fun v => (e.1, v))).get? key = (d.get? key).bind f := by
  ext value
  rw [get?_eq_some_iff, mem_ofList (nodup_keys_filterMap (fun e => f e.2) nodup_keys), List.mem_filterMap,
    Option.bind_eq_some_iff]
  constructor
  · rintro ⟨⟨k, v⟩, hmem, heq⟩
    obtain ⟨w, hw, heq⟩ := Option.map_eq_some_iff.mp heq
    obtain ⟨rfl, rfl⟩ := Prod.mk.inj heq
    exact ⟨v, get?_eq_some_iff.mpr hmem, hw⟩
  · rintro ⟨v, hget, hv⟩
    exact ⟨(key, v), get?_eq_some_iff.mp hget, by rw [hv]; rfl⟩

/-- Entries that come in order are put one behind the other. -/
theorem entries_foldl_insert (h : (d.entries ++ es).Pairwise (·.1 < ·.1)) :
    (es.foldl (fun d e => d.insert e.1 e.2) d).entries = d.entries ++ es := by
  induction es generalizing d with
  | nil => simp
  | cons e es ih =>
    have hinsert : (d.insert e.1 e.2).entries = d.entries ++ [e] :=
      insertSorted_of_forall_lt fun e' he' => (List.pairwise_append.mp h).2.2 e' he' e List.mem_cons_self
    have hsorted : ((d.insert e.1 e.2).entries ++ es).Pairwise (·.1 < ·.1) := by
      rwa [hinsert, List.append_assoc]
    rw [List.foldl_cons, ih hsorted, hinsert, List.append_assoc, List.singleton_append]

theorem eq_of_entries_eq {d' : SortedDict α} (h : d.entries = d'.entries) : d = d' := by
  cases d
  cases d'
  cases h
  rfl

theorem ofList_entries : ofList d.entries = d :=
  eq_of_entries_eq (entries_foldl_insert (d := empty) d.sorted)

end SortedDict

end

end LogDispatch
