import PeerFleet.Time.Timestamp
import PeerFleet.Worker.Error

/-! # Schedules

A worker runs once a day at a time of day, or again and again after a fixed interval.
-/

namespace PeerFleet

inductive Schedule where
  | daily (hour minute : UInt32)
  | every (interval : Span)
  deriving DecidableEq, Repr, Inhabited

namespace Schedule

open Text

/-- A number of 32 bits in digits after an optional plus sign. -/
def number? (cs : List Char) : Option UInt32 := do
  let n ← natOfSigned? cs
  if n < UInt32.size then some (UInt32.ofNat n) else none

/-- A time of day has at most 24 hours and 60 minutes, an interval is not empty. -/
def validate : Schedule → Except WorkerError Unit
  | .daily hour minute =>
    if hour > 23 ∨ minute > 59 then
      .error (.invalidSchedule
        s!"{padded 2 hour.toNat}:{padded 2 minute.toNat} is not a time of day")
    else .ok ()
  | .every interval =>
    if interval.nanos = 0 then .error (.invalidSchedule "interval must be greater than zero")
    else .ok ()

def clock? (s : String) : Option (UInt32 × UInt32) := do
  let (h, m) ← splitFirst ':' (trimChars s.toList)
  some (← number? h, ← number? m)

/-- The daily schedule that a text `HH:MM` names. -/
def parseDaily (s : String) : Except WorkerError Schedule :=
  match clock? s with
  | none => .error (.invalidSchedule s!"expected HH:MM, got '{s}'")
  | some (hour, minute) => do
    let schedule := daily hour minute
    schedule.validate
    return schedule

def onDayOf? (now : Instant) (hour minute : UInt32) : Option Instant :=
  if hour ≤ 23 ∧ minute ≤ 59 then
    Instant.ofParts? (now.day * 86400 + hour.toNat * 3600 + minute.toNat * 60) 0
  else none

/-- The first scheduled instant after `now`, unless it lies beyond all instants. -/
def nextRunAfter (s : Schedule) (now : Instant) : Option Instant :=
  match s with
  | .daily hour minute =>
    match onDayOf? now hour minute with
    | some t => if now < t then some t else t.shiftDays? 1
    | none => now.shiftDays? 1
  | .every interval => now.shift? interval.nanos

/-- The time from `now` to the next run. -/
def nextDelay (s : Schedule) (now : Instant) : Option Span :=
  (s.nextRunAfter now).map (·.elapsed now)

def render : Schedule → String
  | .daily hour minute => s!"daily at {padded 2 hour.toNat}:{padded 2 minute.toNat} UTC"
  | .every interval => s!"every {interval.render}"

end Schedule

end PeerFleet
