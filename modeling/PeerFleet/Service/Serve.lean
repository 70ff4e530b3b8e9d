import PeerFleet.Config.Basic
import PeerFleet.Fleet.Lifecycle
import PeerFleet.Jobs.Job
import PeerFleet.Worker.Manager

/-! # Running the service

The workers are started, the status API listens if it has an address, and everything is
torn down when the service is told to stop.
-/

namespace PeerFleet

/-- The jobs of a configuration and when they run, in the order in which their workers are
started. -/
def FleetConfig.jobs (c : FleetConfig) : Except WorkerError (List (Job × Schedule)) := do
  let w := c.workers
  let expiration ← w.expirationSchedule
  let notification ← w.notificationSchedule
  let always : List (Job × Schedule) :=
    [(.expiration, expiration), (.reminder w.notifyDays, notification),
      (.health c.admins, w.healthSchedule), (.provisioning, w.provisioningSchedule)]
  if w.peerCountEnabled then return always ++ [(.peerCount, w.peerCountSchedule)]
  else return always

/-- What a running service asks of the process it runs in. -/
inductive ServeCall where
  | worker (c : WorkerCall)
  | fleet (e : Effect)
  | listen (address : String)
  | awaitSignal
  /-- Closes the status API once its last request has been answered. -/
  | hangUp

def ServeCall.Answer : ServeCall → Type
  | .worker _ => Except WorkerError Unit
  | .fleet e => e.Answer
  | .listen _ | .awaitSignal => Except String Unit
  | .hangUp => Unit

def Serving : Interface := ⟨ServeCall, ServeCall.Answer⟩

namespace Serve

def info (text : String) : Program Serving Unit :=
  Program.log ⟨.info, text⟩

def warn (text : String) : Program Serving Unit :=
  Program.log ⟨.warn, text⟩

def error (text : String) : Program Serving Unit :=
  Program.log ⟨.error, text⟩

def onWorkers {α : Type} (p : Program Workers α) : Program Serving α :=
  p.interpret fun c => Program.ask (I := Serving) (.worker c)

def onFleet {α : Type} (p : FleetProgram α) : Program Serving α :=
  p.interpret fun e => Program.ask (I := Serving) (.fleet e)

def listen (address : String) : Program Serving (Except String Unit) :=
  Program.ask (I := Serving) (.listen address)

def awaitSignal : Program Serving (Except String Unit) :=
  Program.ask (I := Serving) .awaitSignal

def hangUp : Program Serving Unit :=
  Program.ask (I := Serving) .hangUp

def abandon (names : List String) : Program Serving Unit := do
  match ← onWorkers (Manager.stop names) with
  | .error e => error e.message
  | .ok () => pure ()
  onFleet Fleet.close

def announce (address : String) : Program Serving Unit := do
  info s!"Status API listening on {address}"
  info "Endpoints:"
  info "  GET  /health           - Liveness"
  info "  GET  /v1/nodes         - Eligible nodes"
  info "  GET  /v1/nodes/health  - Node health"
  info "  GET  /v1/workers       - Worker status"

def openStatus : Option String → Program Serving (Except String Bool)
  | none => return .ok false
  | some address => do
    match ← listen address with
    | .error cause => return .error s!"Failed to bind status API to {address}: {cause}"
    | .ok () =>
      announce address
      return .ok true

def shutDown (names : List String) (listening : Bool) :
    Program Serving (Except String Unit) := do
  match ← awaitSignal with
  | .error cause => return .error s!"Failed to listen for the shutdown signal: {cause}"
  | .ok () =>
    info "Shutting down"
    if listening then hangUp
    let stopped ← onWorkers (Manager.stop names)
    onFleet Fleet.close
    match stopped with
    | .error e => return .error e.message
    | .ok () =>
      info "Shutdown complete"
      return .ok ()

/-- Runs the workers of the given names, and the status API if it has an address. -/
def runWorkers (names : List String) (statusAddr : Option String) :
    Program Serving (Except String Unit) := do
  match ← onWorkers (Manager.start names) with
  | .error e =>
    abandon names
    return .error e.message
  | .ok () =>
    match ← openStatus statusAddr with
    | .error reason => return .error reason
    | .ok listening => shutDown names listening

/-- Runs the service of a configuration. The address of the status API on the command line
wins over the configured one. -/
def run (c : FleetConfig) (statusAddr : Option String) :
    Program Serving (Except String Unit) := do
  if c.telegram.token.isNone then
    warn "No bot token configured; messages will only be logged"
  match c.jobs with
  | .error e => return .error e.message
  | .ok jobs =>
    let names := jobs.map (·.1.name)
    info <| s!"Loaded {c.nodes.length} nodes, starting workers: " ++ ", ".intercalate names
    runWorkers names (statusAddr <|> c.status.bindAddr)

end Serve

end PeerFleet
