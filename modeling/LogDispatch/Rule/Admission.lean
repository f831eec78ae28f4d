import LogDispatch.Level
import LogDispatch.Rule

/-! From which rank on a route admits the records of a channel. -/

namespace LogDispatch

structure GlobalFilter where
  /-- The global level. -/
  floor : Option Nat := none
  policy : Policy := .everything
  includes : RuleSet := []
  excludes : RuleSet := []

/-- Settings of one route over those of the engine. A list of its own replaces the global one; an additive
    list is merged with the global one and counts only while the route has no list of its own. -/
structure RouteFilter where
  level : Option Nat := none
  policy : Option Policy := none
  includes : Option RuleSet := none
  moreIncludes : RuleSet := []
  excludes : Option RuleSet := none
  moreExcludes : RuleSet := []

namespace RouteFilter

variable (route : RouteFilter) (engine : GlobalFilter)

/-- The level of a route that no rule concerns. -/
def baseLevel : Nat := (route.level.or engine.floor).getD 0

/-- What the include lists say about a channel. -/
def includeFor (channel : String) : Option Threshold :=
  match route.includes with
  | some rules => rules.threshold? channel
  | none => Threshold.mergeInclude (engine.includes.threshold? channel) (route.moreIncludes.threshold? channel)

/-- What the exclude lists say about a channel. -/
def excludeFor (channel : String) : Option Threshold :=
  match route.excludes with
  | some rules => rules.threshold? channel
  | none => Threshold.mergeExclude (engine.excludes.threshold? channel) (route.moreExcludes.threshold? channel)

/-- An open route: an exclude raises its level past the excluded rank or closes it, an include lowers the
    level again or reopens the route for all ranks. -/
def openLevel (start : Nat) (inc exc : Option Threshold) : Option Nat :=
  let raised := match exc with
    | none => some start
    | some (.rank e) => some (nextRank e)
    | some .always => none
  match inc with
  | none => raised
  | some (.rank i) => raised.map (min · i)
  | some .always => some 0

/-- A closed route: an include opens it, from the route's level unless it names a rank above zero; an exclude
    raises the level of an opened route or closes it again. -/
def closedLevel (start : Nat) (inc exc : Option Threshold) : Option Nat :=
  let opened := match inc with
    | none => none
    | some (.rank i) => if 0 < i then some i else some start
    | some .always => some start
  match opened, exc with
  | some level, some (.rank e) => some (max level e)
  | some _, some .always => none
  | level, _ => level

/-- The lowest rank the route delivers for a channel, if it delivers any of the `levels` ranks. -/
def lowestRank? (channel : String) (levels : Nat) : Option Nat :=
  let inc := route.includeFor engine channel
  let exc := route.excludeFor engine channel
  let start := route.baseLevel engine
  let lowest := match route.policy.getD engine.policy with
    | .everything => openLevel start inc exc
    | .nothing => closedLevel start inc exc
  lowest.filter (· < levels)

end RouteFilter

end LogDispatch
