/-! Dictionaries that keep their keys in the order of first insertion. -/

namespace LogDispatch

/-- The entry replaces the one of its key in place, or goes to the end. -/
def putEntry {α : Type} (key : String) (value : α) : List (String × α) → List (String × α)
  | [] => [(key, value)]
  | e :: es => if e.1 = key then (key, value) :: es else e :: putEntry key value es

theorem keys_putEntry {α : Type} {key : String} {value : α} {es : List (String × α)} :
    (putEntry key value es).map (·.1) =
      if key ∈ es.map (·.1) then es.map (·.1) else es.map (·.1) ++ [key] := by
  induction es with
  | nil => simp [putEntry]
  | cons e es ih =>
    unfold putEntry
    by_cases h : e.1 = key
    · simp [h]
    · simp only [if_neg h, List.map_cons, ih, List.mem_cons]
      have h' : ¬ key = e.1 := fun x => h x.symm
      by_cases hm : key ∈ es.map (·.1) <;> simp [hm, h']

/-- A dictionary in insertion order: each key stands once. -/
structure Dict (α : Type) where
  entries : List (String × α)
  nodup : (entries.map (·.1)).Nodup

namespace Dict

variable {α : Type}

def empty : Dict α := ⟨[], .nil⟩

instance : Inhabited (Dict α) := ⟨empty⟩

instance [BEq α] : BEq (Dict α) := ⟨fun a b => a.entries == b.entries⟩

/-- Sets a key. A key that is already there keeps its place. -/
def insert (d : Dict α) (key : String) (value : α) : Dict α where
  entries := putEntry key value d.entries
  nodup := by
    rw [keys_putEntry]
    split
    · exact d.nodup
    · next h => exact List.nodup_append.mpr ⟨d.nodup, by simp, by
        intro a ha b hb
        rw [List.mem_singleton.mp hb]
        exact fun hab => h (hab ▸ ha)⟩

/-- The entries inserted one after the other. -/
def insertAll (d : Dict α) (es : List (String × α)) : Dict α :=
  es.foldl (fun d e => d.insert e.1 e.2) d

/-- The entries of `other` over those of `d`. -/
def merge (d other : Dict α) : Dict α := d.insertAll other.entries

def ofList (es : List (String × α)) : Dict α := empty.insertAll es

def erase (d : Dict α) (key : String) : Dict α where
  entries := d.entries.filter (·.1 != key)
  nodup := (List.filter_sublist.map _).nodup d.nodup

def get? (d : Dict α) (key : String) : Option α :=
  (d.entries.find? (·.1 == key)).map (·.2)

def contains (d : Dict α) (key : String) : Bool :=
  d.entries.any (·.1 == key)

def keys (d : Dict α) : List String := d.entries.map (·.1)

def values (d : Dict α) : List α := d.entries.map (·.2)

def size (d : Dict α) : Nat := d.entries.length

def isEmpty (d : Dict α) : Bool := d.entries.isEmpty

end Dict

end LogDispatch
