import ChatRelay.Route.Tree
/-!
# The router

A router registers services under patterns. A layer applies to the services that
are registered after it. The layer added last is outermost.
-/

namespace ChatRelay

/-- A router for services of an arbitrary type. -/
structure Mux (ρ : Type) where
  table : Route.Table ρ := {}
  /-- The layers in order of registration. -/
  layers : List (ρ → ρ) := []

namespace Mux

variable {ρ : Type}

instance : Inhabited (Mux ρ) := ⟨{}⟩

def empty : Mux ρ := {}

def layer (mux : Mux ρ) (l : ρ → ρ) : Mux ρ :=
  { mux with layers := mux.layers ++ [l] }

/-- A service inside the current layers. -/
def wrap (mux : Mux ρ) (service : ρ) : ρ :=
  mux.layers.foldl (fun service l => l service) service

/-- Register a service under a method and a url pattern. -/
def handle (mux : Mux ρ) (method url : String) (service : ρ) :
    Except RegistrationError (Mux ρ) := do
  let pattern ← Route.Pattern.parse method url
  let table ← mux.table.insert pattern (mux.wrap service)
  return { mux with table }

def size (mux : Mux ρ) : Nat := mux.table.size

def isEmpty (mux : Mux ρ) : Bool := mux.size = 0

/-- The debug representation of a router. -/
def describe (mux : Mux ρ) : String :=
  "Mux \x7b routes: " ++ toString mux.size ++ ", layers: " ++
    toString mux.layers.length ++ " \x7d"

end Mux
end ChatRelay
