import PeerFleet.Text.Digits
import PeerFleet.Text.Split

/-! # Certificates and keys in text form

Sections between a line that begins and a line that ends them, with Base64 in between.
Whatever stands outside of sections is ignored, and so are sections of other kinds.
-/

namespace PeerFleet.Pem

open Text

inductive Kind where
  | certificate
  | privateKey
  | other
  deriving DecidableEq, Repr

def kind? (label : String) : Option Kind :=
  [("CERTIFICATE", Kind.certificate), ("PRIVATE KEY", .privateKey),
    ("RSA PRIVATE KEY", .privateKey), ("EC PRIVATE KEY", .privateKey), ("X509 CRL", .other),
    ("CERTIFICATE REQUEST", .other), ("PUBLIC KEY", .other)].lookup label

def isBase64 (c : Char) : Bool :=
  c.isAlphanum || c = '+' || c = '/'

/-- Whole groups of four characters, of which the last may end in one or two pads. -/
def soundBase64 (cs : List Char) : Bool :=
  let body := cs.takeWhile (· != '=')
  let pads := cs.drop body.length
  cs.length % 4 = 0 && body.all isBase64 && pads.all (· = '=') && pads.length ≤ 2

/-- The label of a line that begins a section: none for another line, and no label for a
line that is not closed by five dashes. -/
def beginning (line : List Char) : Option (Option String) :=
  (dropWord "-----BEGIN ".toList line).map fun rest =>
    let closed := (rest.reverse.dropWhile fun c => c = ' ' || c = '\n' || c = '\r')
    let dashes := (closed.takeWhile (· = '-')).length
    if dashes = 5 then some (String.ofList (closed.drop 5).reverse) else none

def lines (octets : List UInt8) : List (List Char) :=
  splitAll '\n' (octets.map fun b => if b = 13 then '\n' else Char.ofNat b.toNat)

def isSpace (c : Char) : Bool :=
  c = ' ' || c = '\t'

/-- The kinds of the sections in order, `none` if one is malformed. `label` is the open
section and `text` what has been gathered of it. -/
def sections? (label : Option String) (text : List Char) :
    List (List Char) → Option (List Kind)
  | [] => if label.isNone then some [] else none
  | line :: rest =>
    match beginning line with
    | some none => none
    | some (some name) => sections? (some name) text rest
    | none =>
      match label with
      | none => sections? none text rest
      | some name =>
        if (dropWord ("-----END " ++ name ++ "-----").toList line).isSome then
          match kind? name with
          | none => sections? none [] rest
          | some kind =>
            if soundBase64 text then (sections? none [] rest).map (kind :: ·) else none
        else sections? label (text ++ line.filter fun c => !isSpace c) rest

def kinds? (octets : List UInt8) : Option (List Kind) :=
  sections? none [] (lines octets)

end PeerFleet.Pem
