import PeerFleet.Command.Run
import PeerFleet.Service.Standalone
import PeerFleet.Worker.Ticker
import Std.Time.Format

/-! # The executable

The process around the program: its files, its variables, its clock, and one task to each
worker. It has no network, so a service runs standalone and its status API cannot be
opened. A service is told to stop by a line on its standard input, or by the end of that.
-/

namespace PeerFleet.Main

open Command

structure Host where
  verbose : Nat
  /-- Variables that were set after the process was started. -/
  overlay : IO.Ref (List (String × String))
  service : IO.Ref Standalone
  jobs : IO.Ref (Array (Job × Schedule))
  tasks : IO.Ref (Array (Nat × Task (Except IO.Error Unit)))

namespace Host

def create (verbose : Nat) : IO Host := do
  return {
    verbose
    overlay := ← IO.mkRef []
    service := ← IO.mkRef {}
    jobs := ← IO.mkRef #[]
    tasks := ← IO.mkRef #[] }

def now : IO Instant := do
  let t ← Std.Time.Timestamp.now
  let nanos := t.toNanosecondsSinceUnixEpoch.val
  return (Instant.epoch.shift? nanos).getD .epoch

def isShown (h : Host) (line : LogLine) : Bool :=
  line.level != .info || h.verbose > 0

def write (h : Host) (line : LogLine) : IO Unit := do
  if h.isShown line then
    IO.println s!"{(← now).render} {line.render}"

def runFleet {α : Type} (h : Host) (p : FleetProgram α) : IO α := do
  let (a, lines) ← h.service.modifyGet fun s =>
    let (a, s) := s.run p
    ((a, s.log), { s with log := [] })
  lines.forM h.write
  return a

/-- Sleeps in short spells, until a moment on the clock or until the task is cancelled. -/
partial def sleepUntil (millis : Nat) : IO Unit := do
  let present ← IO.monoMsNow
  if present < millis ∧ !(← IO.checkCanceled) then
    IO.sleep (UInt32.ofNat (min 50 (millis - present)))
    sleepUntil millis

def runPass (h : Host) (job : Job) : IO Unit := do
  match ← h.runFleet (job.run (← now)) with
  | .ok () => return ()
  | .error text => h.write ⟨.error, s!"Worker {job.name} pass panicked: {text}"⟩

def nextPass (schedule : Schedule) (ticker : Option Ticker) : IO Nat := do
  match ticker with
  | some ticker => return ticker.dueMillis
  | none =>
    let delay := ((schedule.nextDelay (← now)).getD ⟨0⟩).nanos
    return (← IO.monoMsNow) + delay / 1000000 + 1

partial def passes (h : Host) (job : Job) (schedule : Schedule) (ticker : Option Ticker) :
    IO Unit := do
  sleepUntil (← nextPass schedule ticker)
  if !(← IO.checkCanceled) then
    let present := Span.ofMillis (← IO.monoMsNow)
    h.runPass job
    passes h job schedule (ticker.map (·.next present))

def runLoop (h : Host) (job : Job) (schedule : Schedule) : IO Unit := do
  h.write ⟨.info, s!"Worker {job.name} started, running {schedule.render}"⟩
  let ticker ← match schedule with
    | .every period => pure (some (Ticker.begin (.ofMillis (← IO.monoMsNow)) period))
    | .daily _ _ => pure none
  h.passes job schedule ticker
  h.write ⟨.info, s!"Worker {job.name} stopped"⟩

def startWorker (h : Host) (index : Nat) : IO (Except WorkerError Unit) := do
  match (← h.jobs.get)[index]? with
  | none => return .ok ()
  | some (job, schedule) =>
    match schedule.validate with
    | .error e => return .error e
    | .ok () =>
      if (← h.tasks.get).any (·.1 = index) then return .error (.alreadyRunning job.name)
      let task ← IO.asTask (h.runLoop job schedule) .dedicated
      h.tasks.modify (·.push (index, task))
      return .ok ()

def stopWorker (h : Host) (index : Nat) : IO (Except WorkerError Unit) := do
  match (← h.tasks.get).find? (·.1 = index) with
  | none => return .ok ()
  | some (_, task) =>
    h.tasks.modify fun ts => ts.filter (·.1 != index)
    IO.cancel task
    match ← IO.wait task with
    | .ok () => return .ok ()
    | .error e =>
      let name := ((← h.jobs.get)[index]?.map (·.1.name)).getD ""
      return .error (.failed name (toString e))

def contents (path : String) : IO (Except String (List UInt8)) := do
  try return .ok (← IO.FS.readBinFile path).toList
  catch e => return .error (toString e)

def lookUp (h : Host) (name : String) : IO (Option String) := do
  match ← IO.getEnv name with
  | some value => return some value
  | none => return (← h.overlay.get).lookup name

def setUp (h : Host) (c : FleetConfig) : IO Unit := do
  h.service.set { store := .ofNodes c.nodes }
  match c.jobs with
  | .ok jobs => h.jobs.set jobs.toArray
  | .error _ => return ()

def answerServe (h : Host) : (c : ServeCall) → IO c.Answer
  | .worker (.start index) => h.startWorker index
  | .worker (.stop index) => h.stopWorker index
  | .fleet e => h.runFleet (Program.ask (I := Effects) e)
  | .listen _ => return .error Standalone.unreachable
  | .awaitSignal => do
    let _ ← (← IO.getStdin).getLine
    return .ok ()
  | .hangUp => return ()

def answer (h : Host) : (c : ProcessCall) → IO c.Answer
  | .contents path => contents path
  | .variable name => h.lookUp name
  | .setVariable name value => h.overlay.modify (· ++ [(name, value)])
  | .home => h.lookUp "HOME"
  | .print text => IO.print text
  | .complain text => IO.eprint text
  | .setUp c => h.setUp c
  | .serving c => h.answerServe c

def run {α : Type} (h : Host) : Program Process α → IO α
  | .done a => return a
  | .note line rest => do
    h.write line
    run h rest
  | .call c rest => do run h (rest (← h.answer c))

end Host

end PeerFleet.Main

open PeerFleet in
def main (args : List String) : IO UInt32 := do
  let h ← Main.Host.create (Command.verbosity args)
  h.run (Command.run args)
