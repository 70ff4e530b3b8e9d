/-! # Failures of workers -/

namespace PeerFleet

inductive WorkerError where
  | alreadyRunning (name : String)
  | invalidSchedule (reason : String)
  | failed (name cause : String)
  deriving DecidableEq, Repr, Inhabited

namespace WorkerError

def message : WorkerError → String
  | .alreadyRunning name => s!"Worker '{name}' is already running"
  | .invalidSchedule reason => s!"Invalid schedule: {reason}"
  | .failed name cause => s!"Worker '{name}' failed: {cause}"

end WorkerError

/-- The workers that did not stop, in the order they were stopped, with their failures. -/
structure StopFailures where
  failures : List (String × WorkerError)
  deriving DecidableEq, Repr

namespace StopFailures

def message (e : StopFailures) : String :=
  let parts := e.failures.map fun (name, err) => s!"{name} ({err.message})"
  s!"{e.failures.length} worker(s) failed to stop: " ++ ", ".intercalate parts

end StopFailures

end PeerFleet
