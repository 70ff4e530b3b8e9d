/-! # Digits

Reading and writing of numbers in ASCII digits.
-/

namespace PeerFleet.Text

def isDigit (c : Char) : Bool :=
  '0' ≤ c && c ≤ '9'

def digitValue (c : Char) : Nat :=
  c.toNat - '0'.toNat

def hexValue? (c : Char) : Option Nat :=
  if isDigit c then some (digitValue c)
  else if 'a' ≤ c ∧ c ≤ 'f' then some (c.toNat - 'a'.toNat + 10)
  else if 'A' ≤ c ∧ c ≤ 'F' then some (c.toNat - 'A'.toNat + 10)
  else none

def natOfDigits? (base : Nat) : List Char → Option Nat
  | [] => none
  | cs => cs.foldl (fun n c => do
      let v ← hexValue? c
      if v < base then some ((← n) * base + v) else none) (some 0)

def natOfSigned? (cs : List Char) : Option Nat :=
  match cs with
  | '+' :: rest => natOfDigits? 10 rest
  | _ => natOfDigits? 10 cs

def padded (width n : Nat) : String :=
  let ds := (toString n).toList
  String.ofList (List.replicate (width - ds.length) '0' ++ ds)

def hexDigit (upper : Bool) (n : Nat) : Char :=
  if n < 10 then Char.ofNat ('0'.toNat + n)
  else Char.ofNat ((if upper then 'A' else 'a').toNat + (n - 10))

end PeerFleet.Text
