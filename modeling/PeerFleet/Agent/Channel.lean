import PeerFleet.Agent.Address
import PeerFleet.Agent.Pem
import PeerFleet.Http
import PeerFleet.Json.Parser
import PeerFleet.Node

/-! # Channels to agents

A channel is built from the settings of a node, with all files read and checked at that
time. Each call on it is one request and is settled by the reply to it; a closed channel
sends nothing.
-/

namespace PeerFleet.Agent

/-- What building a channel asks of the machine it runs on. -/
structure Surroundings where
  contents : String → Except String (List UInt8)
  resolve : Host → Except String Unit
  toAscii? : DomainToAscii

structure Channel where
  nodeId : NodeId
  base : Url
  auth : Option String := none
  closed : Bool := false

namespace Channel

def isHeaderChar (c : Char) : Bool :=
  c = '\t' || (0x20 ≤ c.toNat && c.toNat != 0x7F)

def authOf (token : Option String) : Except AgentError (Option String) :=
  match token with
  | none => .ok none
  | some t =>
    if t.toList.all isHeaderChar then .ok (some ("Bearer " ++ t))
    else .error (.config "auth token: failed to parse header value")

def contents (s : Surroundings) (path : String) : Except AgentError (List UInt8) :=
  match s.contents path with
  | .ok octets => .ok octets
  | .error cause => .error (.certificateRead path cause)

def checkAuthorities (s : Surroundings) (path : String) : Except AgentError Unit := do
  let octets ← contents s path
  match Pem.kinds? octets with
  | none => throw (.certificateInvalid path "builder error")
  | some kinds =>
    if kinds.contains .certificate then return ()
    else throw (.certificateInvalid path "no certificates found")

/-- Key and certificates of a client, in two files: nothing else may stand in them. -/
def checkIdentity (s : Surroundings) (certPath keyPath : String) : Except AgentError Unit := do
  let key ← contents s keyPath
  let cert ← contents s certPath
  let sound := (Pem.kinds? (key ++ 10 :: cert)).any fun kinds =>
    kinds.contains .certificate && kinds.contains .privateKey && !kinds.contains .other
  if sound then return () else throw (.certificateInvalid certPath "builder error")

def checkFiles (s : Surroundings) (tls : TlsSettings) : Except AgentError Unit := do
  if let some path := tls.caCert then checkAuthorities s path
  match tls.clientCert, tls.clientKey with
  | some cert, some key => checkIdentity s cert key
  | none, none => return ()
  | _, _ => throw (.config "client certificate and key must be configured together")

def sameIgnoringCase (a b : String) : Bool :=
  a.toList.map Text.lowerAscii = b.toList.map Text.lowerAscii

/-- The base with the name that the agent's certificate carries; the configured address,
which is dialed in any case, must have an address. -/
def applyServerName (s : Surroundings) (n : Node) (base : Url) : Except AgentError Url :=
  match n.tls.serverName with
  | none => .ok base
  | some name =>
    if sameIgnoringCase name base.host.render then .ok base
    else
      match s.resolve base.host with
      | .error cause => .error (.invalidAddress n.rpcAddress cause)
      | .ok () =>
        match base.withHost s.toAscii? name with
        | .ok base => .ok base
        | .error e => .error (.config s!"server name '{name}': {e.message}")

/-- A channel to the agent of a node. -/
def connect (s : Surroundings) (n : Node) : Except AgentError Channel := do
  let secured := n.tls.mode != .plain
  let base ← parseAddress s.toAscii? n.rpcAddress secured
  let auth ← authOf n.authToken
  if secured then
    checkFiles s n.tls
    let base ← applyServerName s n base
    return { nodeId := n.id, base, auth }
  else return { nodeId := n.id, base, auth }

/-- The address of the peers of an interface, or of what lies below it. -/
def peersUrl (base : Url) (interface : String) (tail : List String) : Url :=
  base.append (["v1", "interfaces", interface, "peers"] ++ tail)

end Channel

inductive Call where
  | create (interface name : String)
  | enable (interface peerId : String)
  | disable (interface peerId : String)
  | delete (interface peerId : String)
  | get (interface peerId : String)
  | list (interface : String)
  deriving DecidableEq, Repr

/-- What a call brings back when the agent accepts it. -/
def Call.Result : Call → Type
  | .create _ _ => CreatedPeer
  | .get _ _ => PeerInfo
  | .list _ => List PeerInfo
  | .enable _ _ | .disable _ _ | .delete _ _ => Unit

abbrev Call.Answer (c : Call) : Type :=
  Except AgentError c.Result

namespace Call

def operation : Call → Operation
  | .create _ _ => .createPeer
  | .enable _ _ => .enablePeer
  | .disable _ _ => .disablePeer
  | .delete _ _ => .deletePeer
  | .get _ _ => .getPeer
  | .list _ => .listPeers

def interface : Call → String
  | .create i _ | .enable i _ | .disable i _ | .delete i _ | .get i _ | .list i => i

def method : Call → Method
  | .create _ _ | .enable _ _ | .disable _ _ => .post
  | .delete _ _ => .delete
  | .get _ _ | .list _ => .get

/-- What follows the peers of the interface in the path. -/
def tail : Call → List String
  | .create _ _ | .list _ => []
  | .enable _ peerId => [peerId, "enable"]
  | .disable _ peerId => [peerId, "disable"]
  | .delete _ peerId | .get _ peerId => [peerId]

def body : Call → Option Json
  | .create _ name => some (CreatePeerRequest.toJson ⟨name⟩)
  | _ => none

def request (c : Channel) (call : Call) : Request where
  method := call.method
  url := Channel.peersUrl c.base call.interface call.tail
  auth := c.auth
  body := call.body

/-- What the body of a successful reply says; verbs without a result ignore it. -/
def read? : (call : Call) → List UInt8 → Option call.Result
  | .create _ _, body => (Json.parseOctets body).bind CreatedPeer.read?
  | .get _ _, body => (Json.parseOctets body).bind PeerInfo.read?
  | .list _, body => (Json.parseOctets body).bind (Read.list PeerInfo.read?)
  | .enable _ _, _ => some ()
  | .disable _ _, _ => some ()
  | .delete _ _, _ => some ()

def settle (call : Call) : Option Reply → call.Answer
  | none => .error (.transport call.operation "error sending request")
  | some reply =>
    if reply.isSuccess then
      match call.read? reply.body with
      | some result => .ok result
      | none => .error (.malformed call.operation "error decoding response body")
    else .error (.status call.operation reply.status reply.text)

end Call

namespace Channel

def perform (c : Channel) (call : Call) (reply : Option Reply) :
    Option Request × call.Answer :=
  if c.closed then (none, .error (.closed call.operation))
  else (some (call.request c), call.settle reply)

def close (c : Channel) : Channel :=
  { c with closed := true }

end Channel

end PeerFleet.Agent
