import LogDispatch.Generation

/-! Channels: named sources of records, each with a table of the ranks from which the routes of one
    generation deliver its records. -/

namespace LogDispatch

/-- The lowest rank each route of a generation delivers for a channel. -/
structure RouteLevels where
  generation : GenerationId
  /-- One entry a route; none for a route that never delivers. -/
  thresholds : List (Option Nat)
  deriving DecidableEq, Repr

namespace RouteLevels

/-- The table of a module. A process of the wrong role delivers nothing. -/
def compute (g : Generation) (module : String) : RouteLevels :=
  ⟨g.id, g.routes.map fun r =>
    if g.admitsRole then r.filter.lowestRank? g.filter module g.levels.size else none⟩

/-- The places of the routes that deliver a rank. -/
def select (t : RouteLevels) (rank : Nat) : List Nat :=
  t.thresholds.zipIdx.filterMap fun (threshold, i) =>
    if threshold.any (· ≤ rank) then some i else none

/-- The names of the lowest levels, by route. -/
def names (t : RouteLevels) (g : Generation) : SortedDict String :=
  .ofList ((g.routes.zip t.thresholds).filterMap fun (r, threshold) =>
    (threshold.bind g.levels.name?).map fun name => (r.name, name))

end RouteLevels

structure Channel where
  /-- What rules match and templates read as `module`. -/
  module : String
  shownAs : String
  /-- The table worked out last. -/
  table : RouteLevels
  /-- Reloads recalculate the channel. -/
  isEnlisted : Bool := false
  /-- Someone can still log through the channel. -/
  isOpen : Bool := true

namespace Channel

def ofModule (g : Generation) (module : String) (shownAs : Option String) : Channel :=
  { module, shownAs := shownAs.getD module, table := .compute g module }

def frame (c : Channel) : Frame := Dict.ofList [("module", .text c.module)]

def recalc (c : Channel) (g : Generation) : Channel := { c with table := .compute g c.module }

/-- The table of the generation, when it is the one worked out last. -/
def tableFor? (c : Channel) (g : Generation) : Option RouteLevels :=
  if c.table.generation = g.id then some c.table else none

/-- Keeps a table that is newer than the one worked out last. -/
def refresh (c : Channel) (t : RouteLevels) : Channel :=
  if c.table.generation < t.generation then { c with table := t } else c

end Channel

end LogDispatch
