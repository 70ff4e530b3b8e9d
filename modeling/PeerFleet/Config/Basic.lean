import PeerFleet.Schedule
import PeerFleet.Subscription

/-! # Configuration

One record describes the service: the token of the messenger, whom to alert, the nodes,
the agent channel, the workers and the status API. Every part has defaults.
-/

namespace PeerFleet

structure TelegramSettings where
  token : Option String := none
  apiBase : String := "https://api.telegram.org"
  deriving DecidableEq, Repr, Inhabited

structure AgentSettings where
  requestTimeoutSecs : UInt64 := 30
  connectTimeoutSecs : UInt64 := 10
  deriving DecidableEq, Repr, Inhabited

structure WorkerSettings where
  expirationAt : String := "00:05"
  notificationAt : String := "10:00"
  /-- Days before the end of a subscription on which its owner is reminded. -/
  notifyDays : List UInt32 := [3, 1]
  healthIntervalSecs : UInt64 := 30
  healthTimeoutSecs : UInt64 := 5
  provisioningIntervalSecs : UInt64 := 300
  peerCountEnabled : Bool := false
  peerCountIntervalSecs : UInt64 := 3600
  deriving DecidableEq, Repr, Inhabited

structure StatusSettings where
  /-- Where the status API listens; it is off without an address. -/
  bindAddr : Option String := none
  deriving DecidableEq, Repr, Inhabited

structure FleetConfig where
  telegram : TelegramSettings := {}
  admins : List UserId := []
  nodes : List Node := []
  agent : AgentSettings := {}
  workers : WorkerSettings := {}
  status : StatusSettings := {}
  deriving DecidableEq, Repr, Inhabited

namespace TelegramSettings

def read? {δ : Type} [Notation δ] (v : δ) : Option TelegramSettings := do
  let r ← Record.of? ["token", "api_base"] v
  let token ← r.optional "token" Read.text
  let apiBase ← r.defaulted "api_base" ({} : TelegramSettings).apiBase Read.text
  some { token, apiBase }

def toJson (t : TelegramSettings) : Json :=
  .object (Json.optional "token" (t.token.map .string) ++ [("api_base", .string t.apiBase)])

end TelegramSettings

namespace AgentSettings

def read? {δ : Type} [Notation δ] (v : δ) : Option AgentSettings := do
  let r ← Record.of? ["request_timeout_secs", "connect_timeout_secs"] v
  let requestTimeoutSecs ← r.defaulted "request_timeout_secs" 30 Read.uint64
  let connectTimeoutSecs ← r.defaulted "connect_timeout_secs" 10 Read.uint64
  some { requestTimeoutSecs, connectTimeoutSecs }

def toJson (a : AgentSettings) : Json :=
  .object [("request_timeout_secs", Json.ofUInt64 a.requestTimeoutSecs),
    ("connect_timeout_secs", Json.ofUInt64 a.connectTimeoutSecs)]

def requestTimeout (a : AgentSettings) : Span :=
  .ofSeconds a.requestTimeoutSecs.toNat

def connectTimeout (a : AgentSettings) : Span :=
  .ofSeconds a.connectTimeoutSecs.toNat

end AgentSettings

namespace WorkerSettings

def fieldNames : List String :=
  ["expiration_at", "notification_at", "notify_days", "health_interval_secs",
    "health_timeout_secs", "provisioning_interval_secs", "peer_count_enabled",
    "peer_count_interval_secs"]

def read? {δ : Type} [Notation δ] (v : δ) : Option WorkerSettings := do
  let r ← Record.of? fieldNames v
  let expirationAt ← r.defaulted "expiration_at" "00:05" Read.text
  let notificationAt ← r.defaulted "notification_at" "10:00" Read.text
  let notifyDays ← r.defaulted "notify_days" [3, 1] (Read.list Read.uint32)
  let healthIntervalSecs ← r.defaulted "health_interval_secs" 30 Read.uint64
  let healthTimeoutSecs ← r.defaulted "health_timeout_secs" 5 Read.uint64
  let provisioningIntervalSecs ← r.defaulted "provisioning_interval_secs" 300 Read.uint64
  let peerCountEnabled ← r.defaulted "peer_count_enabled" false Read.bool
  let peerCountIntervalSecs ← r.defaulted "peer_count_interval_secs" 3600 Read.uint64
  some { expirationAt, notificationAt, notifyDays, healthIntervalSecs, healthTimeoutSecs,
         provisioningIntervalSecs, peerCountEnabled, peerCountIntervalSecs }

def toJson (w : WorkerSettings) : Json :=
  .object [("expiration_at", .string w.expirationAt), ("notification_at", .string w.notificationAt),
    ("notify_days", .array (w.notifyDays.map Json.ofUInt32)),
    ("health_interval_secs", Json.ofUInt64 w.healthIntervalSecs),
    ("health_timeout_secs", Json.ofUInt64 w.healthTimeoutSecs),
    ("provisioning_interval_secs", Json.ofUInt64 w.provisioningIntervalSecs),
    ("peer_count_enabled", .bool w.peerCountEnabled),
    ("peer_count_interval_secs", Json.ofUInt64 w.peerCountIntervalSecs)]

def expirationSchedule (w : WorkerSettings) : Except WorkerError Schedule :=
  Schedule.parseDaily w.expirationAt

def notificationSchedule (w : WorkerSettings) : Except WorkerError Schedule :=
  Schedule.parseDaily w.notificationAt

def healthSchedule (w : WorkerSettings) : Schedule :=
  .every (.ofSeconds w.healthIntervalSecs.toNat)

def healthTimeout (w : WorkerSettings) : Span :=
  .ofSeconds w.healthTimeoutSecs.toNat

def provisioningSchedule (w : WorkerSettings) : Schedule :=
  .every (.ofSeconds w.provisioningIntervalSecs.toNat)

def peerCountSchedule (w : WorkerSettings) : Schedule :=
  .every (.ofSeconds w.peerCountIntervalSecs.toNat)

end WorkerSettings

namespace StatusSettings

def read? {δ : Type} [Notation δ] (v : δ) : Option StatusSettings := do
  let r ← Record.of? ["bind_addr"] v
  let bindAddr ← r.optional "bind_addr" Read.text
  some { bindAddr }

def toJson (s : StatusSettings) : Json :=
  .object (Json.optional "bind_addr" (s.bindAddr.map .string))

end StatusSettings

namespace FleetConfig

def read? {δ : Type} [Notation δ] (v : δ) : Option FleetConfig := do
  let r ← Record.of? ["telegram", "admins", "nodes", "agent", "workers", "status"] v
  let telegram ← r.defaulted "telegram" {} TelegramSettings.read?
  let admins ← r.defaulted "admins" [] (Read.list Read.int64)
  let nodes ← r.defaulted "nodes" [] (Read.list Node.read?)
  let agent ← r.defaulted "agent" {} AgentSettings.read?
  let workers ← r.defaulted "workers" {} WorkerSettings.read?
  let status ← r.defaulted "status" {} StatusSettings.read?
  some { telegram, admins, nodes, agent, workers, status }

def toJson (c : FleetConfig) : Json :=
  .object [("telegram", c.telegram.toJson), ("admins", .array (c.admins.map Json.ofInt64)),
    ("nodes", .array (c.nodes.map Node.toJson)), ("agent", c.agent.toJson),
    ("workers", c.workers.toJson), ("status", c.status.toJson)]

def overrideToken (c : FleetConfig) (token : Option String) : FleetConfig :=
  match token with
  | some t =>
    if Text.isBlankText t then c else { c with telegram := { c.telegram with token := some t } }
  | none => c

def expandPath (home path : String) : String :=
  match path.toList with
  | ['~'] => home
  | '~' :: '/' :: rest => home ++ "/" ++ String.ofList rest
  | _ => path

def expandPaths (home : String) (c : FleetConfig) : FleetConfig :=
  let expand := Option.map (expandPath home)
  { c with nodes := c.nodes.map fun n => { n with tls := { n.tls with
      caCert := expand n.tls.caCert
      clientCert := expand n.tls.clientCert
      clientKey := expand n.tls.clientKey } } }

end FleetConfig

end PeerFleet
