import PeerFleet.Json.Basic
import PeerFleet.Program
import PeerFleet.Record
import PeerFleet.Worker.Error

/-! # Driving workers together

Workers are started in the order in which they were added, up to the first that fails,
and all are stopped in the reverse order, whatever fails.
-/

namespace PeerFleet

/-- A row of the listing of workers. -/
structure WorkerStatus where
  name : String
  schedule : String
  completedRuns : Nat := 0
  panickedRuns : Nat := 0
  deriving DecidableEq, Repr

namespace WorkerStatus

def toJson (s : WorkerStatus) : Json :=
  .object [("name", .string s.name), ("schedule", .string s.schedule),
    ("completed_runs", Json.ofNat s.completedRuns), ("panicked_runs", Json.ofNat s.panickedRuns)]

end WorkerStatus

/-- What a manager asks of its workers, which it knows by number. -/
inductive WorkerCall where
  | start (index : Nat)
  | stop (index : Nat)
  deriving DecidableEq, Repr

def Workers : Interface :=
  ⟨WorkerCall, fun _ => Except WorkerError Unit⟩

namespace Manager

def info (text : String) : Program Workers Unit :=
  Program.log ⟨.info, text⟩

def error (text : String) : Program Workers Unit :=
  Program.log ⟨.error, text⟩

def startAll : List (Nat × String) → Program Workers (Except WorkerError Unit)
  | [] => return .ok ()
  | (index, name) :: rest => do
    match ← Program.ask (I := Workers) (.start index) with
    | .error e =>
      error s!"Failed to start worker {name}: {e.message}"
      return .error e
    | .ok () =>
      info s!"Started worker {name}"
      startAll rest

/-- Stops the workers of a list; those that failed to stop, with their failures. -/
def stopEach : List (Nat × String) → Program Workers (List (String × WorkerError))
  | [] => return []
  | (index, name) :: rest => do
    match ← Program.ask (I := Workers) (.stop index) with
    | .ok () =>
      info s!"Stopped worker {name}"
      stopEach rest
    | .error e =>
      error s!"Worker {name} failed to stop: {e.message}"
      return (name, e) :: (← stopEach rest)

/-- Numbers the workers in the order in which they were added. -/
def numbered (names : List String) : List (Nat × String) :=
  names.zipIdx.map fun (name, i) => (i, name)

def start (names : List String) : Program Workers (Except WorkerError Unit) :=
  startAll (numbered names)

/-- Stops every worker, the one added last first. -/
def stop (names : List String) : Program Workers (Except StopFailures Unit) := do
  match ← stopEach (numbered names).reverse with
  | [] => return .ok ()
  | failures => return .error ⟨failures⟩

end Manager

end PeerFleet
