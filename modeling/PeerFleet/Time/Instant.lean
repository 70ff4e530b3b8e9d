import PeerFleet.Time.Calendar
import PeerFleet.Time.Span

/-! # Instants

An instant of UTC with nanoseconds. A leap second is the second `59` of its minute with
a billion nanoseconds or more, so that it lies between its neighbours in the order.
Shifting and differences never invent a leap second, and leave one only when the shift
reaches beyond it.
-/

namespace PeerFleet

/-- An instant between the years -262143 and 262142. -/
structure Instant where
  /-- Seconds after 1970-01-01T00:00:00Z, leap seconds not counted. -/
  seconds : Int
  /-- Nanoseconds; a billion or more inside a leap second. -/
  nanos : Nat
  nanos_lt : nanos < 2000000000
  leap_last : 1000000000 ≤ nanos → seconds % 60 = 59
  lower : -8334601228800 ≤ seconds
  upper : seconds ≤ 8210266876799
  deriving DecidableEq

namespace Instant

def ofParts? (seconds : Int) (nanos : Nat) : Option Instant :=
  if h : nanos < 2000000000 ∧ (1000000000 ≤ nanos → seconds % 60 = 59) ∧
      -8334601228800 ≤ seconds ∧ seconds ≤ 8210266876799 then
    some ⟨seconds, nanos, h.1, h.2.1, h.2.2.1, h.2.2.2⟩
  else none

def epoch : Instant :=
  ⟨0, 0, by omega, by omega, by omega, by omega⟩

instance : Inhabited Instant := ⟨epoch⟩

def isLeap (t : Instant) : Prop :=
  1000000000 ≤ t.nanos

instance (t : Instant) : Decidable t.isLeap :=
  inferInstanceAs (Decidable (_ ≤ _))

instance : LT Instant where
  lt a b := a.seconds < b.seconds ∨ (a.seconds = b.seconds ∧ a.nanos < b.nanos)

instance : LE Instant where
  le a b := a.seconds < b.seconds ∨ (a.seconds = b.seconds ∧ a.nanos ≤ b.nanos)

instance (a b : Instant) : Decidable (a < b) :=
  inferInstanceAs (Decidable (_ ∨ _))

instance (a b : Instant) : Decidable (a ≤ b) :=
  inferInstanceAs (Decidable (_ ∨ _))

/-- Days from 1970-01-01 to the day of an instant. -/
def day (t : Instant) : Int :=
  t.seconds / 86400

def secondOfDay (t : Instant) : Int :=
  t.seconds % 86400

def settle? (seconds nanos : Int) : Option Instant :=
  if nanos < 0 then ofParts? (seconds - 1) (nanos + 1000000000).toNat
  else if nanos ≥ 1000000000 then ofParts? (seconds + 1) (nanos - 1000000000).toNat
  else ofParts? seconds nanos.toNat

/-- An instant moved by a signed number of nanoseconds, if the result is in range. -/
def shift? (t : Instant) (by_ : Int) : Option Instant :=
  let whole := by_.tdiv 1000000000
  let part := by_.tmod 1000000000
  let nanos : Int := t.nanos
  if t.isLeap then
    if whole > 0 ∨ (part > 0 ∧ nanos + part ≥ 2000000000) then
      settle? (t.seconds + whole) (nanos - 1000000000 + part)
    else if whole < 0 then
      settle? (t.seconds + 1 + whole) (nanos - 1000000000 + part)
    else ofParts? t.seconds (nanos + part).toNat
  else settle? (t.seconds + whole) (nanos + part)

def nanosPerDay : Int := 86400000000000

/-- An instant moved by whole days of 86400 seconds. -/
def shiftDays? (t : Instant) (days : Int) : Option Instant :=
  t.shift? (days * nanosPerDay)

/-- The signed nanoseconds from `since` to `t`. A leap second counts when the two times of
day lie on either side of it. -/
def difference (t since : Instant) : Int :=
  let correction : Int :=
    if t.secondOfDay > since.secondOfDay ∧ since.isLeap then 1
    else if t.secondOfDay < since.secondOfDay ∧ t.isLeap then -1
    else 0
  (t.seconds - since.seconds + correction) * 1000000000 + ((t.nanos : Int) - since.nanos)

def elapsed (t since : Instant) : Span :=
  ⟨(t.difference since).toNat⟩

/-- The text that reports a shift out of the range of instants. -/
def overflowText : String :=
  "\x60DateTime + TimeDelta\x60 overflowed"

def underflowText : String :=
  "\x60DateTime - TimeDelta\x60 overflowed"

end Instant

end PeerFleet
