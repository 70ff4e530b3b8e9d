import PeerFleet.Simulation.Worker
import PeerFleet.Simulation.World

/-! # Simulated time

Time stands still while anything can run, and then moves to the next moment at which
something is due. The caller runs first of all that is due at once; while the caller waits,
new loops take their turns in the order in which they were spawned, then the others. A turn
lasts until its loop has to wait.
-/

namespace PeerFleet.Simulation

/-- The turns of one loop of a worker. -/
structure LoopTask where
  worker : Nat
  serial : Nat
  ticker : Option Ticker := none
  wake : Option Nat := none
  broken : Option String := none
  deriving DecidableEq, Repr

structure Runtime where
  world : World := {}
  millis : Nat := 0
  clock : Instant := .epoch
  workers : List SimulatedWorker := []
  tasks : List LoopTask := []

namespace Runtime

def write (line : LogLine) (r : Runtime) : Runtime :=
  { r with world := r.world.write line }

def see (r : Runtime) (e : Event) : Runtime :=
  { r with world := r.world.see e }

def info (r : Runtime) (text : String) : Runtime :=
  r.write ⟨.info, text⟩

def run {α : Type} (r : Runtime) (p : FleetProgram α) : α × Runtime :=
  let (a, world) := r.world.run p
  (a, { r with world })

def addWorker (r : Runtime) (w : SimulatedWorker) : Runtime :=
  { r with workers := r.workers ++ [w] }

def names (r : Runtime) : List String :=
  r.workers.map SimulatedWorker.name

def statuses (r : Runtime) : List WorkerStatus :=
  r.workers.map SimulatedWorker.status

def setWorker (r : Runtime) (index : Nat) (w : SimulatedWorker) : Runtime :=
  { r with workers := r.workers.set index w }

def setEnding (r : Runtime) (index : Nat) (ending : Ending) : Runtime :=
  { r with workers := r.workers.modify index (·.setEnding ending) }

def loopWorker? (r : Runtime) (index : Nat) : Option LoopWorker :=
  match r.workers[index]? with
  | some (.loop w) => some w
  | _ => none

/-- How a step of a loop leaves it. -/
inductive Turn where
  | goesOn (t : LoopTask)
  | waits (t : LoopTask)
  | leaves

def beginLoop (r : Runtime) (w : LoopWorker) (t : LoopTask) : Runtime × Turn :=
  let r := r.info s!"Worker {w.name} started, running {w.schedule.render}"
  let r := match w.state.enter t.serial with
    | some state => r.setWorker t.worker (.loop { w with state })
    | none => r
  let ticker := match w.schedule with
    | .every period => some (Ticker.begin (.ofMillis r.millis) period)
    | .daily _ _ => none
  (r, .goesOn { t with ticker })

def endLoop (r : Runtime) (w : LoopWorker) (t : LoopTask) : Runtime × Turn :=
  match w.state.leave t.serial with
  | some state =>
    ((r.setWorker t.worker (.loop { w with state })).info s!"Worker {w.name} stopped", .leaves)
  | none => (r, .leaves)

/-- What a pass does at its beginning: the time it takes, and what it breaks off with if
that is settled already. -/
def serve (r : Runtime) (w : LoopWorker) : (Nat × Option String) × Runtime :=
  match w.duty with
  | .tick millis _ => ((millis[w.state.begun]?.getD 0, none), r.see (.pass w.name r.millis))
  | .job j =>
    match r.run (j.run r.clock) with
    | (.ok (), r) => ((0, none), r)
    | (.error text, r) => ((0, some text), r)

def beginPass (r : Runtime) (w : LoopWorker) (t : LoopTask) : Runtime × Turn :=
  match w.state.beginPass t.serial with
  | none => (r, .waits t)
  | some state =>
    let ((millis, broken), r) := (r.setWorker t.worker (.loop { w with state })).serve w
    (r, .goesOn { t with wake := some (r.millis + millis), broken })

def endPass (r : Runtime) (w : LoopWorker) (t : LoopTask) : Runtime × Turn :=
  let report := match w.duty with
    | .tick _ ending => ending.report? w.name
    | .job _ => t.broken
  let outcome := if report.isSome then PassOutcome.panicked else .completed
  let r := match w.state.endPass t.serial outcome with
    | some state => r.setWorker t.worker (.loop { w with state })
    | none => r
  let r := match report with
    | some text => r.write ⟨.error, s!"Worker {w.name} pass panicked: {text}"⟩
    | none => r
  (r, .goesOn { t with wake := none, broken := none })

def awaitTick (r : Runtime) (w : LoopWorker) (t : LoopTask) : Runtime × Turn :=
  match t.ticker with
  | none => (r, .waits { t with wake := none })
  | some ticker =>
    if ticker.dueMillis ≤ r.millis then
      match w.state.tick t.serial with
      | some state =>
        (r.setWorker t.worker (.loop { w with state }),
          .goesOn { t with ticker := some (ticker.next (.ofMillis r.millis)) })
      | none => (r, .waits t)
    else (r, .waits { t with wake := some ticker.dueMillis })

def isDue (r : Runtime) (t : LoopTask) : Bool :=
  t.wake.any (· ≤ r.millis)

def stepLoop (r : Runtime) (t : LoopTask) : Runtime × Turn :=
  match r.loopWorker? t.worker with
  | none => (r, .leaves)
  | some w =>
    match w.state.loop? t.serial with
    | none => (r, .leaves)
    | some l =>
      match l.phase with
      | .fresh => r.beginLoop w t
      | .called => r.beginPass w t
      | .passing => if r.isDue t then r.endPass w t else (r, .waits t)
      | .waiting => if l.shutdown then r.endLoop w t else r.awaitTick w t

/-- More than the steps of a turn: a loop that catches up does so for five milliseconds at
most, that is for five million ticks of a nanosecond, with three steps to a pass. -/
def turnSteps : Nat := 20000000

def runSteps : Nat → Runtime → LoopTask → Runtime × Option LoopTask
  | 0, r, t => (r, some t)
  | fuel + 1, r, t =>
    match r.stepLoop t with
    | (r, .goesOn t) => runSteps fuel r t
    | (r, .waits t) => (r, some t)
    | (r, .leaves) => (r, none)

def fileTask (t : LoopTask) (next : Option LoopTask) (ts : List LoopTask) : List LoopTask :=
  ts.flatMap fun s => if s.worker = t.worker ∧ s.serial = t.serial then next.toList else [s]

def takeTurn (r : Runtime) (t : LoopTask) : Runtime :=
  let (r, next) := runSteps turnSteps r t
  { r with tasks := fileTask t next r.tasks }

def loop? (r : Runtime) (t : LoopTask) : Option WorkerLoop :=
  (r.loopWorker? t.worker).bind (·.state.loop? t.serial)

def isFresh (r : Runtime) (t : LoopTask) : Bool :=
  (r.loop? t).any (·.phase = .fresh)

def isReady (r : Runtime) (t : LoopTask) : Bool :=
  r.isDue t || (r.loop? t).any fun l => l.phase = .waiting && l.shutdown

def ready? (r : Runtime) : Option LoopTask :=
  r.tasks.find? r.isFresh <|> r.tasks.find? r.isReady

def settle : Nat → Runtime → Runtime
  | 0, r => r
  | fuel + 1, r =>
    match r.ready? with
    | some t => settle fuel (r.takeTurn t)
    | none => r

def runReady (r : Runtime) : Runtime :=
  r.settle r.tasks.length

def nextWake (r : Runtime) : Option Nat :=
  (r.tasks.filterMap (·.wake)).min?

def advance (target : Nat) : Nat → Runtime → Runtime
  | 0, r => r
  | fuel + 1, r =>
    let r := r.runReady
    match r.nextWake with
    | some wake =>
      if wake < target then advance target fuel { r with millis := wake }
      else { r with millis := target }
    | none => { r with millis := target }

def sleep (r : Runtime) (millis : Nat) : Runtime :=
  if millis = 0 then r else advance (r.millis + millis) (millis + 1) r

def awaitLoop (index serial : Nat) : Nat → Runtime → Runtime
  | 0, r => r
  | fuel + 1, r =>
    let r := r.runReady
    if (r.loopWorker? index).all (·.state.gone serial) then r
    else
      match r.nextWake with
      | some wake => awaitLoop index serial fuel { r with millis := wake }
      | none => r

def remaining (r : Runtime) (index serial : Nat) : Nat :=
  match r.tasks.find? fun t => t.worker = index ∧ t.serial = serial with
  | some t => t.wake.getD 0 - r.millis
  | none => 0

def start (r : Runtime) (index : Nat) : Except WorkerError Unit × Runtime :=
  match r.workers[index]? with
  | none => (.ok (), r)
  | some (.scripted name failure _) =>
    let outcome := match failure with
      | some e => .error e
      | none => .ok ()
    (outcome, r.see (.start name))
  | some (.loop w) =>
    match w.state.start w.name w.schedule with
    | (.error e, _) => (.error e, r)
    | (.ok (), state) =>
      let r := r.setWorker index (.loop { w with state })
      (.ok (), { r with tasks := r.tasks ++ [{ worker := index, serial := w.state.spawned }] })

def stop (r : Runtime) (index : Nat) : Except WorkerError Unit × Runtime :=
  match r.workers[index]? with
  | none => (.ok (), r)
  | some (.scripted name _ failure) =>
    let outcome := match failure with
      | some e => .error e
      | none => .ok ()
    (outcome, r.see (.stop name))
  | some (.loop w) =>
    match w.state.beginStop with
    | (none, _) => (.ok (), r)
    | (some serial, state) =>
      let r := r.setWorker index (.loop { w with state })
      (.ok (), r.awaitLoop index serial (r.remaining index serial + 2))

def handleWorker : (c : WorkerCall) → Runtime → Except WorkerError Unit × Runtime
  | .start index, r => r.start index
  | .stop index, r => r.stop index

def runManager {α : Type} (r : Runtime) (p : Program Workers α) : α × Runtime :=
  Program.run handleWorker write p r

def startAll (r : Runtime) : Except WorkerError Unit × Runtime :=
  r.runManager (Manager.start r.names)

def stopAll (r : Runtime) : Except StopFailures Unit × Runtime :=
  r.runManager (Manager.stop r.names)

end Runtime

end PeerFleet.Simulation
