import PeerFleet.Text.Digits
import PeerFleet.Text.Split

/-! # IPv6 addresses

Eight pieces of 16 bits. Two colons stand once for as many zero pieces as are missing,
and the last two pieces may be written as an IPv4 address in plain decimal.
-/

namespace PeerFleet.Url.Ipv6

open Text

def piece? (cs : List Char) : Option Nat :=
  if cs.length ≤ 4 then natOfDigits? 16 cs else none

def octet? (cs : List Char) : Option Nat := do
  let n ← natOfDigits? 10 cs
  if 255 < n ∨ (1 < cs.length ∧ cs.head? = some '0') then none else some n

def tail? (cs : List Char) : Option (List Nat) := do
  match ← (splitAll '.' cs).mapM octet? with
  | [a, b, c, d] => some [a * 256 + b, c * 256 + d]
  | _ => none

def pieces? : List (List Char) → Option (List Nat)
  | [] => some []
  | [p] => if p.contains '.' then tail? p else (piece? p).map ([·])
  | p :: q :: ps => do
    let n ← piece? p
    let ns ← pieces? (q :: ps)
    some (n :: ns)

def side? (cs : List Char) : Option (List Nat) :=
  if cs.isEmpty then some [] else pieces? (splitAll ':' cs)

def parse? (cs : List Char) : Option (List Nat) :=
  match splitAtWord [':', ':'] cs with
  | none => do
    let ns ← side? cs
    if ns.length = 8 then some ns else none
  | some (before, after) => do
    if before.contains '.' then none
    let left ← side? before
    let right ← side? after
    let given := left.length + right.length
    if given < 8 then some (left ++ List.replicate (8 - given) 0 ++ right) else none

def longestZeros (ns : List Nat) : Nat × Nat :=
  let runs := (List.range ns.length).map fun i => (i, ((ns.drop i).takeWhile (· = 0)).length)
  runs.foldl (fun best run => if best.2 < run.2 then run else best) (0, 0)

def hex (n : Nat) : String :=
  String.ofList (Nat.toDigits 16 n)

def colons (ns : List Nat) : String :=
  ":".intercalate (ns.map hex)

def render (ns : List Nat) : String :=
  let (start, count) := longestZeros ns
  if count < 2 then colons ns
  else colons (ns.take start) ++ "::" ++ colons (ns.drop (start + count))

end PeerFleet.Url.Ipv6
