import PeerFleet.Health.Monitor
import PeerFleet.Jobs.Expiration
import PeerFleet.Jobs.PeerCount
import PeerFleet.Jobs.Provisioning
import PeerFleet.Jobs.Reminder

/-! # Jobs

What workers do in their passes, and the text that a pass breaks off with.
-/

namespace PeerFleet

inductive Job where
  | expiration
  | reminder (days : List UInt32)
  | health (admins : List UserId)
  | provisioning
  | peerCount
  deriving DecidableEq, Repr

namespace Job

/-- The name of the worker that does the job. -/
def name : Job → String
  | .expiration => "expiration"
  | .reminder _ => "notification"
  | .health _ => "health-check"
  | .provisioning => "provisioning-retry"
  | .peerCount => "peer-count"

/-- One pass at an instant; a text says why it broke off. -/
def run (now : Instant) : Job → FleetProgram (Except String Unit)
  | .expiration => return .ok (← Expiration.run now)
  | .reminder days => Reminder.run days now
  | .health admins => return .ok (← Health.run admins now)
  | .provisioning => return .ok (← Provisioning.run)
  | .peerCount => return .ok (← PeerCount.run)

end Job

end PeerFleet
