import LogDispatch.Decimal.Binary

/-! Counters of what an engine did with the calls it received. -/

namespace LogDispatch

structure Metrics where
  /-- Calls that were let through. -/
  accepted : Nat := 0
  /-- Calls refused before any route was chosen. -/
  rejected : Nat := 0
  /-- Accepted calls without a route. -/
  unrouted : Nat := 0
  /-- Deliveries that were acknowledged as written. -/
  delivered : Nat := 0
  /-- Deliveries that failed or were abandoned. -/
  failed : Nat := 0
  /-- Generations swapped in. -/
  reloads : Nat := 0
  deriving DecidableEq, Repr, Inhabited

namespace Metrics

def countAccepted (m : Metrics) : Metrics := { m with accepted := m.accepted + 1 }

def countRejected (m : Metrics) : Metrics := { m with rejected := m.rejected + 1 }

def countUnrouted (m : Metrics) : Metrics := { m with unrouted := m.unrouted + 1 }

def countDelivered (m : Metrics) : Metrics := { m with delivered := m.delivered + 1 }

def countFailed (m : Metrics) : Metrics := { m with failed := m.failed + 1 }

def countReload (m : Metrics) : Metrics := { m with reloads := m.reloads + 1 }

/-- Failed deliveries in percent of all finished ones; zero before the first has finished. -/
def failureRate (m : Metrics) : Float :=
  let failed := Decimal.ofInt m.failed
  let total := Decimal.ofInt m.delivered + failed
  if total == 0.0 then 0.0 else failed / total * 100.0

end Metrics

end LogDispatch
