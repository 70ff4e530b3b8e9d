import PeerFleet.Schedule

/-! # The loop of a worker

A worker runs its job in a loop of its own, on a schedule. Starting spawns a loop and files
it in the worker's slot; stopping takes it out of the slot, tells it to shut down and waits
until it is gone. A loop that has been told so ends its pass first, and begins no other.
Each step here is taken as a whole; callers and loops take turns between them.
-/

namespace PeerFleet

inductive LoopPhase where
  | fresh
  | waiting
  /-- The schedule has called, and the pass has not begun yet. -/
  | called
  | passing
  deriving DecidableEq, Repr

structure WorkerLoop where
  serial : Nat
  phase : LoopPhase := .fresh
  shutdown : Bool := false
  deriving DecidableEq, Repr

/-- How a pass came to its end. -/
inductive PassOutcome where
  | completed
  | panicked
  deriving DecidableEq, Repr

structure WorkerState where
  slot : Option Nat := none
  loops : List WorkerLoop := []
  spawned : Nat := 0
  begun : Nat := 0
  completed : Nat := 0
  panicked : Nat := 0
  deriving DecidableEq, Repr, Inhabited

namespace WorkerState

def loop? (s : WorkerState) (serial : Nat) : Option WorkerLoop :=
  s.loops.find? (·.serial = serial)

def setLoop (s : WorkerState) (l : WorkerLoop) : WorkerState :=
  { s with loops := s.loops.map fun m => if m.serial = l.serial then l else m }

/-- The passes under way. -/
def inFlight (s : WorkerState) : Nat :=
  (s.loops.filter (·.phase = .passing)).length

/-- Spawns a loop, unless the schedule is unusable or the slot is taken. -/
def start (s : WorkerState) (name : String) (schedule : Schedule) :
    Except WorkerError Unit × WorkerState :=
  match schedule.validate with
  | .error e => (.error e, s)
  | .ok () =>
    if s.slot.isSome then (.error (.alreadyRunning name), s)
    else
      let l : WorkerLoop := { serial := s.spawned }
      (.ok (), { s with slot := some l.serial, loops := s.loops ++ [l], spawned := s.spawned + 1 })

def take (s : WorkerState) : Option Nat × WorkerState :=
  (s.slot, { s with slot := none })

def tell (s : WorkerState) (serial : Nat) : WorkerState :=
  match s.loop? serial with
  | some l => s.setLoop { l with shutdown := true }
  | none => s

/-- Takes the loop out of the slot and tells it to shut down; the caller then waits until
it is gone. -/
def beginStop (s : WorkerState) : Option Nat × WorkerState :=
  match s.take with
  | (none, s) => (none, s)
  | (some serial, s) => (some serial, s.tell serial)

def gone (s : WorkerState) (serial : Nat) : Bool :=
  (s.loop? serial).isNone

def enter (s : WorkerState) (serial : Nat) : Option WorkerState :=
  match s.loop? serial with
  | some l => if l.phase = .fresh then some (s.setLoop { l with phase := .waiting }) else none
  | none => none

def tick (s : WorkerState) (serial : Nat) : Option WorkerState :=
  match s.loop? serial with
  | some l =>
    if l.phase = .waiting ∧ l.shutdown = false then some (s.setLoop { l with phase := .called })
    else none
  | none => none

def beginPass (s : WorkerState) (serial : Nat) : Option WorkerState :=
  match s.loop? serial with
  | some l =>
    if l.phase = .called then
      some { s.setLoop { l with phase := .passing } with begun := s.begun + 1 }
    else none
  | none => none

/-- A pass comes to its end and is counted. -/
def endPass (s : WorkerState) (serial : Nat) (outcome : PassOutcome) : Option WorkerState :=
  match s.loop? serial with
  | some l =>
    if l.phase = .passing then
      let s := s.setLoop { l with phase := .waiting }
      match outcome with
      | .completed => some { s with completed := s.completed + 1 }
      | .panicked => some { s with panicked := s.panicked + 1 }
    else none
  | none => none

/-- A waiting loop that has been told to shut down leaves. -/
def leave (s : WorkerState) (serial : Nat) : Option WorkerState :=
  match s.loop? serial with
  | some l =>
    if l.phase = .waiting ∧ l.shutdown = true then
      some { s with loops := s.loops.filter (·.serial != serial) }
    else none
  | none => none

end WorkerState

end PeerFleet
