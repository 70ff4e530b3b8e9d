import PeerFleet.Record

/-! # Nodes

A node is a machine that serves peers and runs an agent. Its peer count is an estimate
kept by the fleet; a node takes new peers while it is enabled, not archived, and the
estimate is below its maximum.
-/

namespace PeerFleet

abbrev NodeId := Int64

/-- How the channel to an agent is secured. -/
inductive TransportMode where
  | plain
  | tls
  | mutualTls
  deriving DecidableEq, Repr

namespace TransportMode

def label : TransportMode → String
  | .plain => "plain"
  | .tls => "tls"
  | .mutualTls => "mtls"

end TransportMode

/-- Security of the channel to an agent; the paths name files. -/
structure TlsSettings where
  enabled : Bool := false
  caCert : Option String := none
  clientCert : Option String := none
  clientKey : Option String := none
  serverName : Option String := none
  deriving DecidableEq, Repr, Inhabited

namespace TlsSettings

def mode (t : TlsSettings) : TransportMode :=
  if !t.enabled then .plain
  else if t.clientCert.isSome && t.clientKey.isSome then .mutualTls
  else .tls

def halfConfigured (t : TlsSettings) : Bool :=
  t.clientCert.isSome != t.clientKey.isSome

def fieldNames : List String :=
  ["enabled", "ca_cert", "client_cert", "client_key", "server_name"]

def read? {δ : Type} [Notation δ] (v : δ) : Option TlsSettings := do
  let r ← Record.of? fieldNames v
  let enabled ← r.defaulted "enabled" false Read.bool
  let caCert ← r.optional "ca_cert" Read.text
  let clientCert ← r.optional "client_cert" Read.text
  let clientKey ← r.optional "client_key" Read.text
  let serverName ← r.optional "server_name" Read.text
  some { enabled, caCert, clientCert, clientKey, serverName }

def toJson (t : TlsSettings) : Json :=
  .object <| ("enabled", Json.bool t.enabled) ::
    (Json.optional "ca_cert" (t.caCert.map .string) ++
      Json.optional "client_cert" (t.clientCert.map .string) ++
      Json.optional "client_key" (t.clientKey.map .string) ++
      Json.optional "server_name" (t.serverName.map .string))

end TlsSettings

structure Node where
  id : NodeId
  name : String
  endpoint : String
  rpcAddress : String
  interface : String := "wg0"
  dns : List String := []
  maxPeers : UInt32
  currentPeers : UInt32 := 0
  enabled : Bool := true
  archived : Bool := false
  tls : TlsSettings := {}
  authToken : Option String := none
  healthUrl : Option String := none
  deriving DecidableEq, Repr, Inhabited

namespace Node

/-- An enabled node without load and with a plain channel. -/
def create (id : NodeId) (name rpcAddress : String) (maxPeers : UInt32) : Node :=
  { id, name, endpoint := rpcAddress, rpcAddress, maxPeers }

def eligible (n : Node) : Bool :=
  n.enabled && !n.archived

def hasCapacity (n : Node) : Bool :=
  n.currentPeers < n.maxPeers

/-- Peers that still fit, none on a node beyond its maximum. -/
def freeSlots (n : Node) : Nat :=
  n.maxPeers.toNat - n.currentPeers.toNat

def fieldNames : List String :=
  ["id", "name", "endpoint", "rpc_address", "interface", "dns", "max_peers", "current_peers",
    "enabled", "archived", "tls", "auth_token", "health_url"]

def read? {δ : Type} [Notation δ] (v : δ) : Option Node := do
  let r ← Record.of? fieldNames v
  let id ← r.required "id" Read.int64
  let name ← r.required "name" Read.text
  let endpoint ← r.required "endpoint" Read.text
  let rpcAddress ← r.required "rpc_address" Read.text
  let interface ← r.defaulted "interface" "wg0" Read.text
  let dns ← r.defaulted "dns" [] (Read.list Read.text)
  let maxPeers ← r.required "max_peers" Read.uint32
  let currentPeers ← r.defaulted "current_peers" 0 Read.uint32
  let enabled ← r.defaulted "enabled" true Read.bool
  let archived ← r.defaulted "archived" false Read.bool
  let tls ← r.defaulted "tls" {} TlsSettings.read?
  let authToken ← r.optional "auth_token" Read.text
  let healthUrl ← r.optional "health_url" Read.text
  some { id, name, endpoint, rpcAddress, interface, dns, maxPeers, currentPeers, enabled,
         archived, tls, authToken, healthUrl }

def toJson (n : Node) : Json :=
  .object <|
    [("id", Json.ofInt64 n.id), ("name", .string n.name), ("endpoint", .string n.endpoint),
      ("rpc_address", .string n.rpcAddress), ("interface", .string n.interface),
      ("dns", Json.ofTexts n.dns), ("max_peers", Json.ofUInt32 n.maxPeers),
      ("current_peers", Json.ofUInt32 n.currentPeers), ("enabled", .bool n.enabled),
      ("archived", .bool n.archived), ("tls", n.tls.toJson)] ++
      Json.optional "auth_token" (n.authToken.map .string) ++
      Json.optional "health_url" (n.healthUrl.map .string)

end Node

end PeerFleet
