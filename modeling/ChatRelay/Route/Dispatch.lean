import ChatRelay.Route.Mux
import ChatRelay.Route.Service
/-!
# Dispatching calls

A request is dispatched to the service of its route, together with the matched
pattern and the segments captured by its wildcards.
-/

namespace ChatRelay.Mux

variable {σ : Type}

def route? (mux : Mux (Service σ)) (request : Request) :
    Option (Route.Table.Match (Service σ)) :=
  mux.table.find? request.method request.url

def metric (mux : Mux (Service σ)) (request : Request) : Metric :=
  match mux.route? request with
  | some found => .calls found.pattern.method found.pattern.url
  | none => .notFound request.method

/-- Call the service of a request, if it has a route. -/
def call (mux : Mux (Service σ)) (now : Time) (context : Context)
    (request : Request) (s : σ) : Option (Reply × σ) :=
  (mux.route? request).map fun found =>
    found.value now
      { request, context, pattern := some found.pattern, taken := found.taken }
      s

end ChatRelay.Mux
