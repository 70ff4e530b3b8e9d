import PeerFleet.Jobs.Job
import PeerFleet.Worker.Loop
import PeerFleet.Worker.Manager
import PeerFleet.Worker.Ticker

/-! # Workers of a simulation

Besides the fleet's jobs there are two scripted kinds: workers whose passes only take their
time, and workers without a loop that start and stop as they are told.
-/

namespace PeerFleet.Simulation

/-- How the passes of a ticking worker end. -/
inductive Ending where
  | quiet
  | fixedText
  | ownText
  | noText
  deriving DecidableEq, Repr

namespace Ending

def ofName? : String → Option Ending
  | "" => some .quiet
  | "str" => some .fixedText
  | "string" => some .ownText
  | "any" => some .noText
  | _ => none

def report? (worker : String) : Ending → Option String
  | .quiet => none
  | .fixedText => some "fixed text"
  | .ownText => some s!"formatted {worker}"
  | .noText => some "unknown panic"

end Ending

inductive Duty where
  /-- Passes that take the given times in milliseconds, and none after those. -/
  | tick (millis : List Nat) (ending : Ending)
  | job (j : Job)
  deriving DecidableEq, Repr

structure LoopWorker where
  name : String
  schedule : Schedule
  duty : Duty
  state : WorkerState := {}
  deriving DecidableEq, Repr

inductive SimulatedWorker where
  | loop (w : LoopWorker)
  | scripted (name : String) (startFailure stopFailure : Option WorkerError)
  deriving DecidableEq, Repr

namespace SimulatedWorker

def name : SimulatedWorker → String
  | .loop w => w.name
  | .scripted name _ _ => name

def status : SimulatedWorker → WorkerStatus
  | .loop w =>
    { name := w.name
      schedule := w.schedule.render
      completedRuns := w.state.completed
      panickedRuns := w.state.panicked }
  | .scripted name _ _ => { name, schedule := "" }

def isRunning : SimulatedWorker → Bool
  | .loop w => w.state.slot.isSome
  | .scripted _ _ _ => false

def setEnding (ending : Ending) : SimulatedWorker → SimulatedWorker
  | .loop w =>
    match w.duty with
    | .tick millis _ => .loop { w with duty := .tick millis ending }
    | .job _ => .loop w
  | w => w

end SimulatedWorker

end PeerFleet.Simulation
