import LogDispatch.Json
import LogDispatch.Level

/-! Level tables as JSON. A stored table is taken as it is: its names are neither checked nor normalised. -/

namespace LogDispatch.LevelTable

def toJson (t : LevelTable) : Json := .object [("names", .array (t.names.map .string))]

/-- A table from an object with its names, or from a list that holds them as its only item. -/
def ofJson? (j : Json) : Option LevelTable := do
  let names ← match j with
    | .object _ => j.member? "names"
    | .array [names] => some names
    | _ => none
  let names ← (← names.items?).mapM Json.string?
  some ⟨names⟩

end LogDispatch.LevelTable
