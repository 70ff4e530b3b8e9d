import PeerFleet.Simulation.Fold
import PeerFleet.Simulation.Punycode
import PeerFleet.Text.Mark
import PeerFleet.Text.Split

/-! # Domain names of a simulation

How domains are written in ASCII where the fleet runs is not part of it: it is a parameter of
all that reads addresses. A simulation folds a domain, cuts it into labels, and writes each
label with characters outside of ASCII in ASCII. It does so for the names that occur in
practice, without normal forms, writing directions, joiners and unassigned characters.
-/

namespace PeerFleet.Simulation.Domain

open Text

def forbidden (c : Char) : Bool :=
  c.toNat ≤ 0x20 || c.toNat = 0x7F || "\"#/:<>?@[\\]^\x60\x7b|\x7d%".toList.contains c

/-- Ranges of code points outside of ASCII that no domain holds: controls, format
characters, private use and noncharacters. -/
def disallowedRanges : List (Nat × Nat) :=
  [(0x80, 0x9F), (0x61C, 0x61C), (0x1680, 0x1680), (0x180E, 0x180E), (0x200E, 0x200F),
    (0x2028, 0x202E), (0x2061, 0x2063), (0x2065, 0x206F), (0xE000, 0xF8FF), (0xFDD0, 0xFDEF),
    (0xFFF0, 0xFFFF), (0xE0000, 0x10FFFF)]

def inRanges (ranges : List (Nat × Nat)) (c : Char) : Bool :=
  ranges.any fun (lo, hi) => lo ≤ c.toNat && c.toNat ≤ hi

def keeps (c : Char) : Bool :=
  foldChar c = [c] && !inRanges disallowedRanges c

def soundLabel (label : List Char) : Bool :=
  label.all (fun c => c.toNat < 0x80 || keeps c) &&
    match label with
    | [] => true
    | c :: _ => !isMark c

/-- A folded label in ASCII. One that claims to be written so already must be the written
form of a sound label. -/
def label? (label : List Char) : Option (List Char) :=
  match dropWord "xn--".toList label with
  | some rest => do
    let decoded ← Punycode.decode? rest
    if decoded.all (·.toNat < 0x80) ∨ !soundLabel decoded ∨ decoded.any forbidden
        ∨ !decoded.all keeps ∨ Punycode.encode decoded != rest then none
    else some label
  | none =>
    if label.all (·.toNat < 0x80) then some label
    else if soundLabel label then some ("xn--".toList ++ Punycode.encode label) else none

def toAscii? (cs : List Char) : Option (List Char) := do
  let folded := cs.flatMap foldChar
  if folded.any forbidden then none
  else
    let labels ← (splitAll '.' folded).mapM label?
    some (['.'].intercalate labels)

end PeerFleet.Simulation.Domain
