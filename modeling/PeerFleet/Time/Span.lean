import PeerFleet.Text.Digits

/-! # Spans of time

A span is a whole number of nanoseconds. It is written exactly, in the largest unit
that leaves a whole part, or briefly, in the two largest units of a clock.
-/

namespace PeerFleet

/-- A length of time, never negative. -/
structure Span where
  nanos : Nat
  deriving DecidableEq, Repr, Inhabited

namespace Span

def nanosPerSecond : Nat := 1000000000

def ofSeconds (s : Nat) : Span :=
  ⟨s * nanosPerSecond⟩

def ofMillis (ms : Nat) : Span :=
  ⟨ms * 1000000⟩

def seconds (d : Span) : Nat :=
  d.nanos / nanosPerSecond

def subsecond (d : Span) : Nat :=
  d.nanos % nanosPerSecond

def decimal (whole fraction places : Nat) : String :=
  let digits := (Text.padded places fraction).toList.take places
  let kept := (digits.reverse.dropWhile (· = '0')).reverse
  if fraction = 0 then toString whole else toString whole ++ "." ++ String.ofList kept

def render (d : Span) : String :=
  if d.seconds > 0 then decimal d.seconds d.subsecond 9 ++ "s"
  else if d.nanos ≥ 1000000 then decimal (d.nanos / 1000000) (d.nanos % 1000000) 6 ++ "ms"
  else if d.nanos ≥ 1000 then decimal (d.nanos / 1000) (d.nanos % 1000) 3 ++ "µs"
  else toString d.nanos ++ "ns"

def brief (d : Span) : String :=
  let s := d.seconds
  if s < 60 then s!"{s}s"
  else if s < 3600 then s!"{s / 60}m{s % 60}s"
  else if s < 86400 then s!"{s / 3600}h{s % 3600 / 60}m"
  else s!"{s / 86400}d{s % 86400 / 3600}h"

end Span

end PeerFleet
