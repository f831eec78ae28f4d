/-! Dictionaries whose keys stand in byte order. -/

namespace LogDispatch

/-- The entry takes its place among the sorted entries; an entry of the same key gives way. -/
def insertSorted {α : Type} (key : String) (value : α) : List (String × α) → List (String × α)
  | [] => [(key, value)]
  | e :: es =>
    if key < e.1 then (key, value) :: e :: es
    else if e.1 < key then e :: insertSorted key value es
    else (key, value) :: es

theorem mem_insertSorted {α : Type} {key : String} {value : α} {es : List (String × α)} {x : String × α}
    (h : x ∈ insertSorted key value es) : x = (key, value) ∨ x ∈ es := by
  induction es with
  | nil => simpa [insertSorted] using h
  | cons e es ih =>
    unfold insertSorted at h
    split at h
    · simpa using h
    · split at h
      · rcases List.mem_cons.mp h with h | h
        · exact Or.inr (h ▸ List.mem_cons_self)
        · exact (ih h).imp_right (List.mem_cons_of_mem _)
      · rcases List.mem_cons.mp h with h | h
        · exact Or.inl h
        · exact Or.inr (List.mem_cons_of_mem _ h)

theorem pairwise_insertSorted {α : Type} {key : String} {value : α} {es : List (String × α)}
    (h : es.Pairwise (·.1 < ·.1)) : (insertSorted key value es).Pairwise (·.1 < ·.1) := by
  induction es with
  | nil => simp [insertSorted]
  | cons e es ih =>
    have ⟨head, tail⟩ := List.pairwise_cons.mp h
    unfold insertSorted
    split
    · next lt =>
      refine List.pairwise_cons.mpr ⟨fun x hx => ?_, h⟩
      rcases List.mem_cons.mp hx with rfl | hx
      · exact lt
      · exact String.lt_trans lt (head x hx)
    · next notLt =>
      split
      · next lt =>
        refine List.pairwise_cons.mpr ⟨fun x hx => ?_, ih tail⟩
        rcases mem_insertSorted hx with rfl | hx
        · exact lt
        · exact head x hx
      · next notGt =>
        have same : key = e.1 := String.le_antisymm (String.not_lt.mp notGt) (String.not_lt.mp notLt)
        exact List.pairwise_cons.mpr ⟨fun x hx => same ▸ head x hx, tail⟩

/-- A dictionary in byte order of its keys. -/
structure SortedDict (α : Type) where
  entries : List (String × α)
  sorted : entries.Pairwise (·.1 < ·.1)

namespace SortedDict

variable {α β : Type}

def empty : SortedDict α := ⟨[], .nil⟩

instance : Inhabited (SortedDict α) := ⟨empty⟩

instance [BEq α] : BEq (SortedDict α) := ⟨fun a b => a.entries == b.entries⟩

/-- Sets a key, replacing what it held. -/
def insert (d : SortedDict α) (key : String) (value : α) : SortedDict α :=
  ⟨insertSorted key value d.entries, pairwise_insertSorted d.sorted⟩

/-- The last entry of each key, in order. -/
def ofList (es : List (String × α)) : SortedDict α :=
  es.foldl (fun d e => d.insert e.1 e.2) empty

def get? (d : SortedDict α) (key : String) : Option α :=
  (d.entries.find? (·.1 == key)).map (·.2)

def contains (d : SortedDict α) (key : String) : Bool :=
  d.entries.any (·.1 == key)

end SortedDict

end LogDispatch
