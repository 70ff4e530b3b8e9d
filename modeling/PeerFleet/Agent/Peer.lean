import PeerFleet.Record

/-! # Peers as an agent reports them

What an agent is asked and what it answers, in the form that travels between them.
-/

namespace PeerFleet

/-- The verbs of a peer's life. -/
inductive Operation where
  | createPeer
  | enablePeer
  | disablePeer
  | deletePeer
  | getPeer
  | listPeers
  deriving DecidableEq, Repr, Inhabited

namespace Operation

def name : Operation → String
  | .createPeer => "create-peer"
  | .enablePeer => "enable-peer"
  | .disablePeer => "disable-peer"
  | .deletePeer => "delete-peer"
  | .getPeer => "get-peer"
  | .listPeers => "list-peers"

def all : List Operation :=
  [.createPeer, .enablePeer, .disablePeer, .deletePeer, .getPeer, .listPeers]

def ofName? (s : String) : Option Operation :=
  all.find? (·.name = s)

instance : ToString Operation := ⟨name⟩

end Operation

structure CreatePeerRequest where
  name : String
  deriving DecidableEq, Repr

namespace CreatePeerRequest

def read? {δ : Type} [Notation δ] (v : δ) : Option CreatePeerRequest := do
  let r ← Record.of? ["name"] v
  let name ← r.required "name" Read.text
  some { name }

def toJson (q : CreatePeerRequest) : Json :=
  .object [("name", .string q.name)]

end CreatePeerRequest

/-- A peer that an agent has just added. -/
structure CreatedPeer where
  peerId : String
  config : String
  qrCode : String := ""
  clientIp : String
  deriving DecidableEq, Repr, Inhabited

namespace CreatedPeer

def read? {δ : Type} [Notation δ] (v : δ) : Option CreatedPeer := do
  let r ← Record.of? ["peer_id", "config", "qr_code", "client_ip"] v
  let peerId ← r.required "peer_id" Read.text
  let config ← r.required "config" Read.text
  let qrCode ← r.defaulted "qr_code" "" Read.text
  let clientIp ← r.required "client_ip" Read.text
  some { peerId, config, qrCode, clientIp }

def toJson (p : CreatedPeer) : Json :=
  .object [("peer_id", .string p.peerId), ("config", .string p.config),
    ("qr_code", .string p.qrCode), ("client_ip", .string p.clientIp)]

end CreatedPeer

structure PeerInfo where
  peerId : String
  name : Option String := none
  enabled : Bool
  allowedIps : List String := []
  latestHandshake : Option Instant := none
  rxBytes : UInt64 := 0
  txBytes : UInt64 := 0
  deriving DecidableEq

namespace PeerInfo

def read? {δ : Type} [Notation δ] (v : δ) : Option PeerInfo := do
  let r ← Record.of?
    ["peer_id", "name", "enabled", "allowed_ips", "latest_handshake", "rx_bytes", "tx_bytes"] v
  let peerId ← r.required "peer_id" Read.text
  let name ← r.optional "name" Read.text
  let enabled ← r.required "enabled" Read.bool
  let allowedIps ← r.defaulted "allowed_ips" [] (Read.list Read.text)
  let latestHandshake ← r.optional "latest_handshake" Read.instant
  let rxBytes ← r.defaulted "rx_bytes" 0 Read.uint64
  let txBytes ← r.defaulted "tx_bytes" 0 Read.uint64
  some { peerId, name, enabled, allowedIps, latestHandshake, rxBytes, txBytes }

def toJson (p : PeerInfo) : Json :=
  .object <|
    ("peer_id", .string p.peerId) :: (Json.optional "name" (p.name.map .string) ++
      [("enabled", .bool p.enabled), ("allowed_ips", Json.ofTexts p.allowedIps)] ++
      Json.optional "latest_handshake" (p.latestHandshake.map Json.ofInstant) ++
      [("rx_bytes", Json.ofUInt64 p.rxBytes), ("tx_bytes", Json.ofUInt64 p.txBytes)])

end PeerInfo

end PeerFleet
