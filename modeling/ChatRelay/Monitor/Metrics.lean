/-!
# Metrics

Named counters. A counter exists from the first time it is touched, even if zero
is added.
-/

namespace ChatRelay

/-- The quantities that are counted. -/
inductive Metric where
  /-- Accepted connections. -/
  | accepted
  /-- Connections being served. -/
  | active
  /-- Calls per route. -/
  | calls (method pattern : String)
  /-- Calls without a route. -/
  | notFound (method : String)
  /-- Frames that are not requests. -/
  | badFrames
  /-- Deliveries of events. -/
  | published (type : String)
  /-- Events dropped because of a full channel. -/
  | dropped (type : String)
  deriving DecidableEq, Repr

namespace Metric

/-- The label of a method. Unusual methods share one label, so that clients
cannot create counters. -/
def methodLabel (method : String) : String :=
  if method ∈ ["GET", "POST", "PUT", "PATCH", "DELETE", "HEAD",
    "OPTIONS"] then method
  else "other"

def labelled (name : String) (labels : List (String × String)) : String :=
  name ++ "\x7b" ++ ",".intercalate (labels.map fun l => l.1 ++ "=" ++ l.2) ++
    "\x7d"

def name : Metric → String
  | accepted => "tcpchat.connections.accepted"
  | active => "tcpchat.connections.active"
  | calls method pattern =>
    labelled "tcpchat.router.calls" [("method", method), ("pattern", pattern)]
  | notFound method =>
    labelled "tcpchat.router.not_found" [("method", methodLabel method)]
  | badFrames => "tcpchat.router.bad_frames"
  | published type => labelled "tcpchat.bus.published" [("type", type)]
  | dropped type => labelled "tcpchat.bus.dropped" [("type", type)]

end Metric

/-- The counters that were touched, by name. -/
abbrev Metrics := List (String × Int)

namespace Metrics

def add (name : String) (n : Int) : Metrics → Metrics
  | [] => [(name, n)]
  | (k, v) :: rest =>
    if k = name then (k, v + n) :: rest else (k, v) :: add name n rest

def count (metrics : Metrics) (metric : Metric) (n : Int) : Metrics :=
  metrics.add metric.name n

end Metrics
end ChatRelay
