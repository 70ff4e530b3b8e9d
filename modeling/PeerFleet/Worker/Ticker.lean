import PeerFleet.Time.Span

/-! # Ticks of an interval

The first tick comes at once and the others follow on a grid of periods. A tick that is
noticed late starts the grid anew from that moment, so that missed ticks are not made up
for.
-/

namespace PeerFleet

/-- When the next tick is due. -/
structure Ticker where
  due : Span
  period : Span
  deriving DecidableEq, Repr

namespace Ticker

def tolerance : Span := .ofMillis 5

def begin (now period : Span) : Ticker :=
  ⟨now, period⟩

def next (t : Ticker) (now : Span) : Ticker :=
  if t.due.nanos + tolerance.nanos < now.nanos then { t with due := ⟨now.nanos + t.period.nanos⟩ }
  else { t with due := ⟨t.due.nanos + t.period.nanos⟩ }

def dueMillis (t : Ticker) : Nat :=
  (t.due.nanos + 999999) / 1000000

end Ticker

end PeerFleet
