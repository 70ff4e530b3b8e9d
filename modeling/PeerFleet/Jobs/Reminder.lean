import PeerFleet.Fleet.Effect
import PeerFleet.Time.Timestamp

/-! # Reminders

A pass over the subscriptions that are about to end. Each threshold is a number of days
and stands for a window of one day; windows of different thresholds do not overlap.
-/

namespace PeerFleet

structure ReminderReport where
  sent : Nat := 0
  failed : Nat := 0
  deriving DecidableEq, Repr

namespace Reminder

open Fleet

/-- The thresholds of a pass: the largest first, each once. -/
def thresholds (days : List UInt32) : List UInt32 :=
  (days.mergeSort fun a b => b ≤ a).eraseReps

def defaultDays : List UInt32 := [3, 1]

/-- The day that ends a number of days after `now`, or the text that reports that it lies
beyond all instants. -/
def window (now : Instant) (days : UInt32) : Except String (Instant × Instant) :=
  match now.shiftDays? days.toNat with
  | none => .error Instant.overflowText
  | some last =>
    match last.shiftDays? (-1) with
    | none => .error Instant.underflowText
    | some first => .ok (first, last)

def whenText (days : UInt32) : String :=
  if days = 0 then "today" else if days = 1 then "in 1 day" else s!"in {days} days"

def text (sub : Subscription) (days : UInt32) : String :=
  s!"Your \"{sub.tariff}\" VPN subscription expires {whenText days} " ++
    s!"({sub.expiresAt.toMinute} UTC). Renew it to keep your access."

def remindAll (days : UInt32) (report : ReminderReport) :
    List Subscription → FleetProgram ReminderReport
  | [] => return report
  | sub :: subs => do
    match ← sendMessage sub.userId (text sub days) with
    | .ok _ => remindAll days { report with sent := report.sent + 1 } subs
    | .error e =>
      warn s!"Failed to remind user {sub.userId} about subscription {sub.id}: {e.message}"
      remindAll days { report with failed := report.failed + 1 } subs

/-- Serves the thresholds one after the other. A threshold that cannot be listed is passed
over; one whose window is out of range ends the pass with that text. -/
def serve (now : Instant) (report : ReminderReport) :
    List UInt32 → FleetProgram (Except String ReminderReport)
  | [] => return .ok report
  | days :: rest => do
    match window now days with
    | .error reason => return .error reason
    | .ok (first, last) =>
      match ← askStore (.listExpiring first last) with
      | .error e =>
        error s!"Could not list subscriptions expiring in {days} day(s): {e.message}"
        serve now report rest
      | .ok subs => serve now (← remindAll days report subs) rest

def runAt (days : List UInt32) (now : Instant) : FleetProgram (Except String ReminderReport) :=
  serve now {} (thresholds days)

def run (days : List UInt32) (now : Instant) : FleetProgram (Except String Unit) := do
  match ← runAt days now with
  | .error reason => return .error reason
  | .ok r =>
    if r.sent + r.failed > 0 then
      info s!"Notification pass: {r.sent} sent, {r.failed} failed"
    return .ok ()

end Reminder

end PeerFleet
