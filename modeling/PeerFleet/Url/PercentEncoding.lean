import PeerFleet.Text.Digits
import PeerFleet.Text.Utf8

/-! # Percent encoding

An octet that may not stand in a part of an address is written as a percent sign and two
hexadecimal digits. Each part has its own set of ASCII characters to escape; all other
characters are escaped everywhere.
-/

namespace PeerFleet.Url

open Text

abbrev EncodeSet := Char → Bool

def isControl (c : Char) : Bool :=
  c.toNat < 0x20 || c.toNat = 0x7F

def fragmentSet : EncodeSet := fun c =>
  isControl c || " \"<>\x60".toList.contains c

def querySet : EncodeSet := fun c =>
  isControl c || " \"#<>'".toList.contains c

def pathSet : EncodeSet := fun c =>
  fragmentSet c || "#?\x7b\x7d".toList.contains c

def segmentSet : EncodeSet := fun c =>
  pathSet c || "/%\\".toList.contains c

def userinfoSet : EncodeSet := fun c =>
  pathSet c || "/:;=@[\\]^|".toList.contains c

def escapeOctet (b : UInt8) : List Char :=
  ['%', hexDigit true (b.toNat / 16), hexDigit true (b.toNat % 16)]

def escapeChar (escaped : EncodeSet) (c : Char) : List Char :=
  if 0x80 ≤ c.toNat ∨ escaped c = true then (String.utf8EncodeChar c).flatMap escapeOctet else [c]

def percentEncode (escaped : EncodeSet) (cs : List Char) : List Char :=
  cs.flatMap (escapeChar escaped)

def percentDecode : List Char → List UInt8
  | [] => []
  | '%' :: a :: b :: cs =>
    match hexValue? a, hexValue? b with
    | some h, some l => UInt8.ofNat (h * 16 + l) :: percentDecode cs
    | _, _ => String.utf8EncodeChar '%' ++ percentDecode (a :: b :: cs)
  | c :: cs => String.utf8EncodeChar c ++ percentDecode cs

end PeerFleet.Url
