/-! Lists by their places: what stands where after an element has been put at the end or in the place of another. -/

namespace LogDispatch

variable {α : Type} {xs : List α} {i j : Nat} {x y : α}

theorem getElem?_concat_eq_some (h : (xs ++ [x])[i]? = some y) :
    i = xs.length ∧ y = x ∨ xs[i]? = some y := by
  rw [List.getElem?_append] at h
  split at h
  · exact .inr h
  · rw [List.getElem?_singleton] at h
    split at h
    · exact .inl ⟨by omega, (Option.some.inj h).symm⟩
    · cases h

theorem getElem?_set_eq_some (h : (xs.set i y)[j]? = some x) : j = i ∧ x = y ∨ j ≠ i ∧ xs[j]? = some x := by
  by_cases hij : j = i
  · subst hij
    have hj : j < xs.length := by simpa using (List.getElem?_eq_some_iff.mp h).1
    rw [List.getElem?_set_self hj] at h
    exact .inl ⟨rfl, (Option.some.inj h).symm⟩
  · rw [List.getElem?_set_ne (Ne.symm hij)] at h
    exact .inr ⟨hij, h⟩

theorem set_of_getElem? (h : xs[i]? = some x) : xs.set i x = xs := by
  obtain ⟨hi, rfl⟩ := List.getElem?_eq_some_iff.mp h
  exact List.set_getElem_self hi

theorem mem_set_cases (h : x ∈ xs.set i y) : x = y ∨ ∃ j, j ≠ i ∧ xs[j]? = some x := by
  obtain ⟨j, hj⟩ := List.mem_iff_getElem?.mp h
  exact (getElem?_set_eq_some hj).imp And.right fun hj => ⟨j, hj⟩

theorem countP_set (p : α → Bool) (h : xs[i]? = some x) :
    (xs.set i y).countP p + (if p x then 1 else 0) = xs.countP p + (if p y then 1 else 0) := by
  obtain ⟨hi, rfl⟩ := List.getElem?_eq_some_iff.mp h
  have hle : (if p xs[i] then 1 else 0) ≤ xs.countP p := by
    split
    · rename_i hp
      exact List.countP_pos_iff.mpr ⟨_, List.getElem_mem hi, hp⟩
    · exact Nat.zero_le _
  rw [List.countP_set hi]
  omega

end LogDispatch
