/-! # Case maps

A case map sends a character to one or more characters. It is given by runs of code
points that keep one distance to their images, and by the characters with longer images.
-/

namespace PeerFleet.Text

/-- Every `stride`-th code point from `first` to `last`; `first` goes to `image`. -/
structure CaseRun where
  first : Nat
  last : Nat
  stride : Nat
  image : Nat

def CaseRun.image? (r : CaseRun) (n : Nat) : Option Nat :=
  if r.first ≤ n ∧ n ≤ r.last ∧ (n - r.first) % r.stride = 0 then some (n - r.first + r.image)
  else none

structure CaseMap where
  runs : List CaseRun
  longer : List (Nat × List Nat)

def CaseMap.apply (m : CaseMap) (c : Char) : List Char :=
  match m.longer.lookup c.toNat with
  | some image => image.map Char.ofNat
  | none => [Char.ofNat ((m.runs.findSome? (·.image? c.toNat)).getD c.toNat)]

end PeerFleet.Text
