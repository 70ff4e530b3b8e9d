import PeerFleet.Url.Ipv4
import PeerFleet.Url.Ipv6
import PeerFleet.Url.PercentEncoding

/-! # Hosts

A host is a domain or an address. Brackets hold an IPv6 address; anything else is decoded,
written in ASCII, and an IPv4 address if its last label is a number. How a domain is written in
ASCII is not settled here: whatever reads hosts takes it as a parameter.
-/

namespace PeerFleet

/-- Why a text is no address of a resource. -/
inductive UrlError where
  | emptyHost
  | invalidDomain
  | invalidDomainCharacter
  | invalidPort
  | invalidIpv4
  | invalidIpv6
  | missingScheme
  | unsupportedScheme
  deriving DecidableEq, Repr

namespace UrlError

def message : UrlError → String
  | .emptyHost => "empty host"
  | .invalidDomain => "invalid international domain name"
  | .invalidDomainCharacter => "invalid domain character"
  | .invalidPort => "invalid port number"
  | .invalidIpv4 => "invalid IPv4 address"
  | .invalidIpv6 => "invalid IPv6 address"
  | .missingScheme => "relative URL without a base"
  | .unsupportedScheme => "unsupported scheme"

end UrlError

/-- A way of writing domains in ASCII, with nothing for a text that is no domain. -/
abbrev DomainToAscii : Type :=
  List Char → Option (List Char)

inductive Host where
  | domain (name : String)
  | ipv4 (address : UInt32)
  | ipv6 (pieces : List Nat)
  deriving DecidableEq, Repr

namespace Host

open Text Url

def render : Host → String
  | .domain name => name
  | .ipv4 address => Ipv4.render address
  | .ipv6 pieces => "[" ++ Ipv6.render pieces ++ "]"

variable (toAscii? : DomainToAscii)

def ofDecoded (cs : List Char) : Except UrlError Host :=
  match toAscii? cs with
  | none => .error .invalidDomain
  | some [] => .error .emptyHost
  | some ascii =>
    if Ipv4.endsInNumber ascii then
      match Ipv4.address? ascii with
      | some address => .ok (.ipv4 address)
      | none => .error .invalidIpv4
    else .ok (.domain (String.ofList ascii))

def ofBracketed (cs : List Char) : Except UrlError Host :=
  if cs.getLast? = some ']' then
    match Ipv6.parse? cs.dropLast with
    | some pieces => .ok (.ipv6 pieces)
    | none => .error .invalidIpv6
  else .error .invalidIpv6

def parse (cs : List Char) : Except UrlError Host :=
  match cs with
  | '[' :: rest => ofBracketed rest
  | _ =>
    match Utf8.decode? (percentDecode cs) with
    | some decoded => ofDecoded toAscii? decoded
    | none => .error .invalidDomain

end Host

end PeerFleet
