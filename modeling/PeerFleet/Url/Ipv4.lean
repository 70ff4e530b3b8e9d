import PeerFleet.Text.Digits
import PeerFleet.Text.Split

/-! # IPv4 addresses

A host whose last label is a number is an IPv4 address or nothing. Its parts are decimal,
octal after a zero, or hexadecimal after `0x`, and the last part fills the octets that
the parts before it leave.
-/

namespace PeerFleet.Url.Ipv4

open Text

def baseOf : List Char → Nat × List Char
  | '0' :: 'x' :: ds => (16, ds)
  | '0' :: 'X' :: ds => (16, ds)
  | '0' :: d :: ds => (8, d :: ds)
  | ds => (10, ds)

def part? (cs : List Char) : Option Nat :=
  match cs, baseOf cs with
  | [], _ => none
  | _, (_, []) => some 0
  | _, (base, ds) => natOfDigits? base ds

def labels (host : List Char) : List (List Char) :=
  let parts := splitAll '.' host
  if parts.length > 1 ∧ parts.getLast? = some [] then parts.dropLast else parts

def endsInNumber (host : List Char) : Bool :=
  match (labels host).getLast? with
  | none => false
  | some label => !label.isEmpty && (label.all isDigit || (part? label).isSome)

def address? (host : List Char) : Option UInt32 := do
  let parts ← (labels host).mapM part?
  let count := parts.length
  let last ← parts.getLast?
  if 4 < count ∨ Nat.pow 256 (5 - count) ≤ last then none
  else do
    let before := parts.dropLast
    if before.any (255 < ·) then none
    else
      let weighted := (before.zipIdx).foldl (fun n (p, i) => n + p * Nat.pow 256 (3 - i)) last
      some (UInt32.ofNat weighted)

def render (address : UInt32) : String :=
  let octet (i : Nat) : String := toString (address.toNat / Nat.pow 256 i % 256)
  s!"{octet 3}.{octet 2}.{octet 1}.{octet 0}"

end PeerFleet.Url.Ipv4
