import PeerFleet.Text.Digits
import PeerFleet.Text.Split

/-! # Punycode

Labels with characters outside of ASCII, written in ASCII: the plain characters first,
then for each other character a number that says where it goes.
-/

namespace PeerFleet.Simulation.Punycode

open Text

def base : Nat := 36
def tMin : Nat := 1
def tMax : Nat := 26
def skew : Nat := 38
def damp : Nat := 700
def initialBias : Nat := 72
def initialN : Nat := 0x80

def limit : Nat := UInt32.size

def shrink : Nat → Nat → Nat → Nat
  | 0, delta, k => k + (base - tMin + 1) * delta / (delta + skew)
  | fuel + 1, delta, k =>
    if delta > (base - tMin) * tMax / 2 then shrink fuel (delta / (base - tMin)) (k + base)
    else k + (base - tMin + 1) * delta / (delta + skew)

def adapt (delta points : Nat) (first : Bool) : Nat :=
  let delta := if first then delta / damp else delta / 2
  shrink 64 (delta + delta / points) 0

def threshold (k bias : Nat) : Nat :=
  if k ≤ bias then tMin else if k ≥ bias + tMax then tMax else k - bias

def digit (d : Nat) : Char :=
  if d < 26 then Char.ofNat ('a'.toNat + d) else Char.ofNat ('0'.toNat + (d - 26))

def digitValue? (c : Char) : Option Nat :=
  if isDigit c then some (digitValue c + 26)
  else
    let c := lowerAscii c
    if 'a' ≤ c ∧ c ≤ 'z' then some (c.toNat - 'a'.toNat) else none

def digits : Nat → Nat → Nat → Nat → List Char
  | 0, q, _, _ => [digit q]
  | fuel + 1, q, k, bias =>
    let t := threshold k bias
    if q < t then [digit q]
    else digit (t + (q - t) % (base - t)) :: digits fuel ((q - t) / (base - t)) (k + base) bias

/-- What the encoder remembers between code points. -/
structure Progress where
  delta : Nat
  bias : Nat
  handled : Nat
  out : List Char

def pass (label : List Nat) (basic n : Nat) (p : Progress) : Progress :=
  label.foldl (fun p c =>
    if c < n then { p with delta := p.delta + 1 }
    else if c = n then
      { delta := 0
        bias := adapt p.delta (p.handled + 1) (p.handled = basic)
        handled := p.handled + 1
        out := p.out ++ digits 64 p.delta base p.bias }
    else p) p

def passes (label : List Nat) (basic : Nat) : List Nat → Nat → Progress → Progress
  | [], _, p => p
  | m :: ms, n, p =>
    let p := { p with delta := p.delta + (m - n) * (p.handled + 1) }
    let p := pass label basic m p
    passes label basic ms (m + 1) { p with delta := p.delta + 1 }

def encode (cs : List Char) : List Char :=
  let plain := cs.filter (·.toNat < initialN)
  let label := cs.map Char.toNat
  let others := ((label.filter (initialN ≤ ·)).mergeSort (· ≤ ·)).eraseReps
  let start := if plain.isEmpty then [] else plain ++ ['-']
  (passes label plain.length others initialN ⟨0, initialBias, plain.length, start⟩).out

def number? : List Char → Nat → Nat → Nat → Nat → Option (Nat × List Char)
  | [], _, _, _, _ => none
  | c :: cs, k, bias, weight, sum => do
    let d ← digitValue? c
    let sum := sum + d * weight
    let t := threshold k bias
    if limit ≤ sum then none
    else if d < t then some (sum, cs)
    else number? cs (k + base) bias (weight * (base - t)) sum

def insertions? : Nat → List Char → Nat → Nat → Nat → List Char → Option (List Char)
  | _, [], _, _, _, out => some out
  | 0, _ :: _, _, _, _, _ => none
  | fuel + 1, c :: cs, n, i, bias, out => do
    let (i', rest) ← number? (c :: cs) base bias 1 i
    let size := out.length + 1
    let n := n + i' / size
    let at_ := i' % size
    if n.isValidChar then
      insertions? fuel rest n (at_ + 1) (adapt (i' - i) size (i = 0))
        (out.take at_ ++ Char.ofNat n :: out.drop at_)
    else none

def decode? (cs : List Char) : Option (List Char) :=
  match splitLast '-' cs with
  | some (plain, rest) =>
    if plain.all (·.toNat < initialN) then
      insertions? rest.length rest initialN 0 initialBias plain
    else none
  | none => insertions? cs.length cs initialN 0 initialBias []

end PeerFleet.Simulation.Punycode
