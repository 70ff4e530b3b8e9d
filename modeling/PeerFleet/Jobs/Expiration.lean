import PeerFleet.Fleet.Lifecycle

/-! # Expiration

A pass over the subscriptions whose time is up. The peer is suspended before the record
says so; a subscription whose peer could not be suspended stays active for the next pass,
unless the peer is gone, when there is nothing left to suspend.
-/

namespace PeerFleet

structure ExpirationReport where
  expired : Nat := 0
  failed : Nat := 0
  deriving DecidableEq, Repr

namespace Expiration

open Fleet

def suspend (sub : Subscription) : FleetProgram (Except String Unit) := do
  if sub.binding.isNone then return .ok ()
  match ← (disableClient sub).run with
  | .ok () => return .ok ()
  | .error e =>
    if e.isPeerGone then
      warn s!"Subscription {sub.id} has no live peer to disable: {e.message}"
      return .ok ()
    else return .error s!"disabling peer: {e.message}"

def expire (sub : Subscription) : FleetProgram (Except String Unit) := do
  match ← suspend sub with
  | .error reason => return .error reason
  | .ok () =>
    match ← askStore (.updateStatus sub.id .expired) with
    | .error e => return .error s!"updating status: {e.message}"
    | .ok _ =>
      info s!"Subscription {sub.id} (user {sub.userId}) expired at {sub.expiresAt.describe}"
      return .ok ()

def expireAll (report : ExpirationReport) : List Subscription → FleetProgram ExpirationReport
  | [] => return report
  | sub :: subs => do
    match ← expire sub with
    | .ok () => expireAll { report with expired := report.expired + 1 } subs
    | .error reason =>
      warn s!"Could not expire subscription {sub.id} (user {sub.userId}): {reason}"
      expireAll { report with failed := report.failed + 1 } subs

/-- Ends everything whose time was up at an instant. -/
def runAt (now : Instant) : Pass ExpirationReport := do
  let due : List Subscription ← listFrom (.listExpired now)
  expireAll {} due

def run (now : Instant) : FleetProgram Unit := do
  match ← (runAt now).run with
  | .ok r =>
    if r.expired + r.failed > 0 then
      info s!"Expiration pass: {r.expired} expired, {r.failed} failed"
  | .error e => error s!"Expiration pass could not list subscriptions: {e.message}"

end Expiration

end PeerFleet
