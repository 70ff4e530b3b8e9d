import PeerFleet.Agent.Error
import PeerFleet.Text.Blank
import PeerFleet.Url.Basic

/-! # Addresses of agents

An agent is configured as `host:port`, possibly with a scheme in front. The scheme of the
channel follows from its security alone.
-/

namespace PeerFleet.Agent

open Text

variable (toAscii? : DomainToAscii)

/-- The address without its scheme, which must be one of the two that agents speak. -/
def withoutScheme (address : List Char) : Except String (List Char) :=
  match splitAtWord "://".toList address with
  | some (scheme, rest) =>
    let name := String.ofList scheme
    if name = "http" ∨ name = "https" then .ok rest
    else .error s!"unsupported scheme '{name}'"
  | none => .ok address

def endsInPort (cs : List Char) : Bool :=
  match splitLast ':' (dropTrailing '/' cs) with
  | some (_, port) => (natOfSigned? port).any (· < 65536)
  | none => false

def baseOfChars (address : List Char) (tls : Bool) : Except String Url := do
  if address.isEmpty then throw "empty address"
  let rest ← withoutScheme address
  let scheme := if tls then Scheme.https else .http
  match Url.parse toAscii? (scheme.name ++ "://" ++ String.ofList rest) with
  | .error e => throw e.message
  | .ok url => if endsInPort rest then return url else throw "missing port"

/-- The base of all requests to the agent at an address. -/
def parseAddress (address : String) (tls : Bool) : Except AgentError Url :=
  match baseOfChars toAscii? (trimChars address.toList) tls with
  | .ok url => .ok url
  | .error reason => .error (.invalidAddress address reason)

end PeerFleet.Agent
