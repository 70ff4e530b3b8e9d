import PeerFleet.Fleet.Effect
import PeerFleet.Worker.Manager

/-! # The status API

What the service tells about itself over HTTP: that it is alive, its eligible nodes, their
health, and its workers. Everything is read only.
-/

namespace PeerFleet.Status

open Fleet

/-- What the answers are made from, besides the store: the health records if they are kept,
and the workers. -/
structure View where
  health : Option (List NodeHealth)
  workers : List WorkerStatus

inductive Route where
  | alive
  | nodes
  | health
  | workers
  deriving DecidableEq, Repr

namespace Route

def path : Route → String
  | .alive => "/health"
  | .nodes => "/v1/nodes"
  | .health => "/v1/nodes/health"
  | .workers => "/v1/workers"

def all : List Route :=
  [alive, nodes, health, workers]

def pathOf (target : String) : String :=
  String.ofList (target.toList.takeWhile fun c => c != '?' && c != '#')

def ofTarget? (target : String) : Option Route :=
  all.find? (·.path = pathOf target)

end Route

/-- An answer: a status, and a body if there is one. -/
structure Response where
  status : Nat
  body : Option Json := none

def healthJson (records : List NodeHealth) : Json :=
  .object [("status", .string (HealthRecords.status records)),
    ("nodes", .array (records.map NodeHealth.toJson))]

/-- The answer of a route. -/
def Route.answer (v : View) : Route → FleetProgram Response
  | .alive => return { status := 200 }
  | .nodes => do
    match ← askStore .listEligible with
    | .ok ns => return { status := 200, body := some (.array (ns.map Node.toJson)) }
    | .error e =>
      error s!"Status API could not list nodes: {e.message}"
      return { status := 500 }
  | .health => return { status := 200, body := some (healthJson (v.health.getD [])) }
  | .workers =>
    return { status := 200, body := some (.array (v.workers.map WorkerStatus.toJson)) }

/-- The answer to a request. Asking for the head alone is answered without a body. -/
def respond (v : View) (method target : String) : FleetProgram Response :=
  match Route.ofTarget? target with
  | none => return { status := 404 }
  | some route =>
    if method = "GET" then route.answer v
    else if method = "HEAD" then do
      let response ← route.answer v
      return { response with body := none }
    else return { status := 405 }

end PeerFleet.Status
