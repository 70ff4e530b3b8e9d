/-! # Octets of a text

Writing a text as octets, and reading octets that may be ill formed. The reader works
through the octets one by one and remembers what the sequence that has begun still owes;
an ill-formed piece ends at the first octet that cannot continue it.
-/

namespace PeerFleet.Utf8

def encode (cs : List Char) : List UInt8 :=
  cs.flatMap String.utf8EncodeChar

/-- What has been read of a sequence: how many octets it still owes, the bits so far, and
the bounds of the next octet. -/
inductive State where
  | ready
  | owing (count bits : Nat) (lower upper : UInt8)

/-- The bounds of the octet after a lead octet; tighter for leads whose sequences could
otherwise be too long, a surrogate, or beyond the last code point. -/
def bounds (lead : UInt8) : UInt8 × UInt8 :=
  if lead = 0xE0 then (0xA0, 0xBF)
  else if lead = 0xED then (0x80, 0x9F)
  else if lead = 0xF0 then (0x90, 0xBF)
  else if lead = 0xF4 then (0x80, 0x8F)
  else (0x80, 0xBF)

def start (b : UInt8) : List (Option Char) × State :=
  let (lo, hi) := bounds b
  let n := b.toNat
  if b < 0x80 then ([some (Char.ofNat n)], .ready)
  else if 0xC2 ≤ b ∧ b ≤ 0xDF then ([], .owing 0 (n - 0xC0) lo hi)
  else if 0xE0 ≤ b ∧ b ≤ 0xEF then ([], .owing 1 (n - 0xE0) lo hi)
  else if 0xF0 ≤ b ∧ b ≤ 0xF4 then ([], .owing 2 (n - 0xF0) lo hi)
  else ([none], .ready)

def step (s : State) (b : UInt8) : List (Option Char) × State :=
  match s with
  | .ready => start b
  | .owing more bits lo hi =>
    if lo ≤ b ∧ b ≤ hi then
      let bits := bits * 64 + (b.toNat - 0x80)
      match more with
      | 0 => ([some (Char.ofNat bits)], .ready)
      | more + 1 => ([], .owing more bits 0x80 0xBF)
    else
      let (out, s) := start b
      (none :: out, s)

def finish : State → List (Option Char)
  | .ready => []
  | .owing _ _ _ _ => [none]

def run (s : State) : List UInt8 → List (Option Char)
  | [] => finish s
  | b :: bs =>
    let (out, s) := step s b
    out ++ run s bs

def pieces (bs : List UInt8) : List (Option Char) :=
  run .ready bs

def decode? (bs : List UInt8) : Option (List Char) :=
  (pieces bs).mapM id

def lossy (bs : List UInt8) : List Char :=
  (pieces bs).map fun c => c.getD '\uFFFD'

end PeerFleet.Utf8
