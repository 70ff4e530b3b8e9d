import PeerFleet.Fleet.Lifecycle

/-! # Provisioning

A pass over the paid subscriptions without a peer. A pass ends early when the fleet is
full. A peer whose binding could not be stored is removed again.
-/

namespace PeerFleet

structure ProvisioningReport where
  provisioned : Nat := 0
  failed : Nat := 0
  full : Bool := false
  deriving DecidableEq, Repr

namespace Provisioning

open Fleet

def undo (b : Binding) : FleetProgram Unit := do
  match ← (discardBinding b).run with
  | .ok () => return ()
  | .error e =>
    error <| s!"Peer {b.peerId} on node {b.nodeId} is orphaned and must be removed by hand: " ++
      e.message

def save (sub : Subscription) (b : Binding) : Attempt Unit :=
  ExceptT.mk do
    match ← askStore (.setBinding sub.id (some b)) with
    | .ok _ => return .ok ()
    | .error e =>
      error <| s!"Peer {b.peerId} created on node {b.nodeId} for subscription {sub.id} " ++
        s!"but the binding was not saved: {e.message}"
      undo b
      return .error (.store e)

def deliver (sub : Subscription) (b : Binding) : FleetProgram Unit := do
  let text :=
    s!"Your VPN access is ready.\nAddress: {b.artifact.clientIp}\n\n{b.artifact.config}"
  match ← sendMessage sub.userId text with
  | .ok _ => return ()
  | .error e =>
    warn <| s!"Subscription {sub.id} provisioned but user {sub.userId} was not notified: " ++
      e.message

def provision (sub : Subscription) : Attempt Bool := do
  let current : Option Subscription ← fromStore (.getSubscription sub.id)
  if current.any Subscription.needsProvisioning then
    let b ← createClient sub.userId
    save sub b
    info <| s!"Provisioned subscription {sub.id} (user {sub.userId}) on node {b.nodeId} " ++
      "after retry"
    deliver sub b
    return true
  else return false

/-- Serves the listed subscriptions in order, up to the first that finds the fleet full. -/
def provisionAll (report : ProvisioningReport) :
    List Subscription → FleetProgram ProvisioningReport
  | [] => return report
  | sub :: subs => do
    match ← (provision sub).run with
    | .ok true => provisionAll { report with provisioned := report.provisioned + 1 } subs
    | .ok false => provisionAll report subs
    | .error e =>
      if e.isCapacity then
        warn <| s!"Fleet has no free capacity, deferring {subs.length + 1} remaining " ++
          "subscription(s)"
        return { report with full := true }
      else
        warn <| s!"Provisioning retry failed for subscription {sub.id} (user {sub.userId}): " ++
          e.message
        provisionAll { report with failed := report.failed + 1 } subs

def runOnce : Pass ProvisioningReport := do
  let pending : List Subscription ← listFrom .listUnprovisioned
  provisionAll {} pending

def run : FleetProgram Unit := do
  match ← runOnce.run with
  | .ok r =>
    if r.provisioned + r.failed > 0 || r.full then
      let ending := if r.full then ", fleet full" else ""
      info s!"Provisioning pass: {r.provisioned} provisioned, {r.failed} failed{ending}"
  | .error e => error s!"Provisioning pass could not list subscriptions: {e.message}"

end Provisioning

end PeerFleet
