import PeerFleet.Json.Basic
import PeerFleet.Text.Digits

/-! # Numbers in range

A reader that keeps a number as a value keeps it in 64 bits or else as a double. It takes as many
digits as 64 bits hold, times a power of ten, and refuses a number whose double is infinite.
-/

namespace PeerFleet.Json

open Text

/-- A number without its sign: digits that fit in 64 bits, times a power of ten. -/
structure Magnitude where
  digits : Nat := 0
  exponent : Int := 0
  deriving DecidableEq, Repr

namespace Magnitude

def push? (m : Magnitude) (c : Char) : Option Nat :=
  let n := m.digits * 10 + digitValue c
  if n < UInt64.size then some n else none

def addWhole (m : Magnitude) : List Char → Magnitude
  | [] => m
  | c :: cs =>
    match m.push? c with
    | some digits => addWhole { m with digits } cs
    | none => { m with exponent := m.exponent + (c :: cs).length }

def addFraction (m : Magnitude) : List Char → Magnitude
  | [] => m
  | c :: cs =>
    match m.push? c with
    | some digits => addFraction { digits, exponent := m.exponent - 1 } cs
    | none => m

def power (ds : List Char) : Int :=
  ds.foldl (fun n c => n * 10 + digitValue c) 0

def addExponent (m : Magnitude) : List Char → Magnitude
  | [] => m
  | _ :: '-' :: ds => { m with exponent := m.exponent - power ds }
  | _ :: '+' :: ds => { m with exponent := m.exponent + power ds }
  | _ :: ds => { m with exponent := m.exponent + power ds }

def ofLexeme (cs : List Char) : Magnitude :=
  let cs := cs.dropWhile (· = '-')
  let m := addWhole {} (cs.takeWhile isDigit)
  match cs.dropWhile isDigit with
  | '.' :: rest => (m.addFraction (rest.takeWhile isDigit)).addExponent (rest.dropWhile isDigit)
  | rest => m.addExponent rest

def rounded (n : Nat) : Nat :=
  let unit := Nat.pow 2 (n.log2 - 52)
  let q := n / unit
  let r := n % unit
  if unit < 2 * r ∨ (2 * r = unit ∧ q % 2 = 1) then (q + 1) * unit else q * unit

def limit : Nat := Nat.pow 2 1024 - Nat.pow 2 970

def isFinite (m : Magnitude) : Bool :=
  m.digits = 0 || m.exponent < 0 ||
    (m.exponent ≤ 308 && rounded m.digits * rounded (Nat.pow 10 m.exponent.toNat) < limit)

end Magnitude

end PeerFleet.Json
