import PeerFleet.Node

/-! # Subscriptions

A subscription is what a subscriber paid for. Once a peer has been provisioned for it, it
is bound to that peer on its node, together with what the subscriber needs to connect.
-/

namespace PeerFleet

abbrev SubscriptionId := Int64

/-- A subscriber; the same number is the subscriber's chat. -/
abbrev UserId := Int64

inductive SubscriptionStatus where
  | pending
  | active
  | expired
  | disabled
  deriving DecidableEq, Repr, Inhabited

namespace SubscriptionStatus

def name : SubscriptionStatus → String
  | .pending => "pending"
  | .active => "active"
  | .expired => "expired"
  | .disabled => "disabled"

def ofName? (s : String) : Option SubscriptionStatus :=
  [pending, active, expired, disabled].find? (·.name = s)

def read? {δ : Type} [Notation δ] (v : δ) : Option SubscriptionStatus := do
  ofName? (← Notation.variant? v)

def toJson (s : SubscriptionStatus) : Json :=
  .string s.name

end SubscriptionStatus

/-- What a subscriber needs to connect. -/
structure Artifact where
  config : String
  qrCode : String
  clientIp : String
  deriving DecidableEq, Repr, Inhabited

namespace Artifact

def read? {δ : Type} [Notation δ] (v : δ) : Option Artifact := do
  let r ← Record.of? ["config", "qr_code", "client_ip"] v
  let config ← r.required "config" Read.text
  let qrCode ← r.required "qr_code" Read.text
  let clientIp ← r.required "client_ip" Read.text
  some { config, qrCode, clientIp }

def toJson (a : Artifact) : Json :=
  .object [("config", .string a.config), ("qr_code", .string a.qrCode),
    ("client_ip", .string a.clientIp)]

end Artifact

/-- The peer provisioned for a subscription. -/
structure Binding where
  nodeId : NodeId
  peerId : String
  artifact : Artifact
  deriving DecidableEq, Repr, Inhabited

namespace Binding

def read? {δ : Type} [Notation δ] (v : δ) : Option Binding := do
  let r ← Record.of? ["node_id", "peer_id", "artifact"] v
  let nodeId ← r.required "node_id" Read.int64
  let peerId ← r.required "peer_id" Read.text
  let artifact ← r.required "artifact" Artifact.read?
  some { nodeId, peerId, artifact }

def toJson (b : Binding) : Json :=
  .object [("node_id", Json.ofInt64 b.nodeId), ("peer_id", .string b.peerId),
    ("artifact", b.artifact.toJson)]

end Binding

structure Subscription where
  id : SubscriptionId
  userId : UserId
  tariff : String
  status : SubscriptionStatus := .active
  expiresAt : Instant
  binding : Option Binding := none
  deriving DecidableEq, Inhabited

namespace Subscription

def isActive (s : Subscription) : Bool :=
  s.status = .active

def expiredAt (s : Subscription) (now : Instant) : Bool :=
  s.expiresAt ≤ now

def needsProvisioning (s : Subscription) : Bool :=
  s.isActive && s.binding.isNone

def read? {δ : Type} [Notation δ] (v : δ) : Option Subscription := do
  let r ← Record.of? ["id", "user_id", "tariff", "status", "expires_at", "binding"] v
  let id ← r.required "id" Read.int64
  let userId ← r.required "user_id" Read.int64
  let tariff ← r.required "tariff" Read.text
  let status ← r.required "status" SubscriptionStatus.read?
  let expiresAt ← r.required "expires_at" Read.instant
  let binding ← r.optional "binding" Binding.read?
  some { id, userId, tariff, status, expiresAt, binding }

def toJson (s : Subscription) : Json :=
  .object <|
    [("id", Json.ofInt64 s.id), ("user_id", Json.ofInt64 s.userId), ("tariff", .string s.tariff),
      ("status", s.status.toJson), ("expires_at", Json.ofInstant s.expiresAt)] ++
      Json.optional "binding" (s.binding.map Binding.toJson)

end Subscription

end PeerFleet
