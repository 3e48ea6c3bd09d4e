import ChatRelay.Monitor.Log
import ChatRelay.Monitor.Metrics
/-!
# The monitor

The metrics and the log of a running program.
-/

namespace ChatRelay

structure Monitor where
  metrics : Metrics := []
  /-- The newest record first. -/
  records : List Record := []
  deriving DecidableEq, Repr, Inhabited

namespace Monitor

def count (m : Monitor) (metric : Metric) (n : Int) : Monitor :=
  { m with metrics := m.metrics.count metric n }

def record (m : Monitor) (r : Record) : Monitor :=
  { m with records := r :: m.records }

def recordAll (m : Monitor) (rs : List Record) : Monitor := rs.foldl record m

/-- The records in order. -/
def log (m : Monitor) : List Record := m.records.reverse

def clear (m : Monitor) : Monitor := { m with records := [] }

end Monitor
end ChatRelay
