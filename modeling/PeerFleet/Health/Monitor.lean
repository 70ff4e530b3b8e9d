import PeerFleet.Fleet.Effect
import PeerFleet.Text.Escaped

/-! # Health monitoring

A pass probes every eligible node that can be probed, and feeds each outcome into the
node's record. Admins get one message when a node goes down, edits of it while it stays
down, and one more when it is back.
-/

namespace PeerFleet.Health

open Fleet
open Telegram (MessageId)

def downText (n : Node) (failures : UInt32) (probe : ProbeResult) : String :=
  s!"Node {n.name} (#{n.id}) is DOWN\nFailed checks: {failures}\n" ++
    "Last error: " ++ probe.error.getD "unhealthy"

def recoveredText (n : Node) (downtime : Span) : String :=
  s!"Node {n.name} (#{n.id}) recovered after {downtime.brief} of downtime"

/-- Brings one admin's report up to date: edits it, or sends it if there is none. -/
def reportTo (existing : Reports) (text : String) (reports : Reports) (admin : UserId) :
    FleetProgram Reports := do
  match existing.lookup admin with
  | some id =>
    match ← editMessage admin id text with
    | .ok () => return reports.set admin id
    | .error e =>
      warn s!"Failed to update outage report for admin {admin}: {e.message}"
      return reports.set admin id
  | none =>
    match ← sendMessage admin text with
    | .ok id => return reports.set admin id
    | .error e =>
      error s!"Failed to send outage report to admin {admin}: {e.message}"
      return reports

/-- Brings every admin's report up to date; the messages that now report the outage. -/
def report (existing : Reports) (text : String) (reports : Reports) :
    List UserId → FleetProgram Reports
  | [] => return reports
  | admin :: admins => do
    report existing text (← reportTo existing text reports admin) admins

def announce (n : Node) (text : String) : List UserId → FleetProgram Unit
  | [] => return ()
  | admin :: admins => do
    match ← sendMessage admin text with
    | .ok _ => announce n text admins
    | .error e =>
      error s!"Failed to notify admin {admin} of node {n.id} recovery: {e.message}"
      announce n text admins

/-- Files the outcome of one probe and tells the admins what it means. -/
def observe (admins : List UserId) (n : Node) (probe : ProbeResult) (at_ : Instant) :
    FleetProgram Transition := do
  let (transition, health) ← askHealth (.record n probe at_)
  match transition with
  | .cameUp => info s!"Node {n.id} ({n.name}) is up"
  | .stayedUp => return transition
  | .wentDown =>
    warn s!"Node {n.id} ({n.name}) is down: {Text.quotedOption probe.error}"
    let reports ← report [] (downText n health.failures probe) [] admins
    askHealth (.remember n.id reports)
  | .stayedDown failures =>
    let reports ← report health.reports (downText n failures probe) [] admins
    askHealth (.remember n.id reports)
  | .recovered downtime =>
    info s!"Node {n.id} ({n.name}) recovered after {downtime.brief}"
    announce n (recoveredText n downtime) admins
  return transition

def probeAll : List Node → FleetProgram (List (Node × ProbeResult))
  | [] => return []
  | n :: ns => do
    let result ← probeHealth (n.healthUrl.getD "")
    return (n, result) :: (← probeAll ns)

def observeAll (admins : List UserId) (now : Instant) :
    List (Node × ProbeResult) → FleetProgram Unit
  | [] => return ()
  | (n, result) :: rest => do
    let _ ← observe admins n result now
    observeAll admins now rest

/-- One pass at an instant: how many nodes were probed. Nodes that are no longer probed
are forgotten. -/
def runAt (admins : List UserId) (now : Instant) : Pass Nat := do
  let eligible : List Node ← listFrom .listEligible
  let ns := eligible.filter fun n => n.healthUrl.isSome
  let results ← probeAll ns
  observeAll admins now results
  askHealth (.retain (ns.map Node.id))
  return results.length

def run (admins : List UserId) (now : Instant) : FleetProgram Unit := do
  match ← (runAt admins now).run with
  | .ok _ => return ()
  | .error e => error s!"Health pass could not list nodes: {e.message}"

end PeerFleet.Health
