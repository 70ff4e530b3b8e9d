import PeerFleet.Config.Basic

/-! # Checks of a configuration

Errors keep the service from starting; warnings describe a setup that runs but is
probably not what the operator wanted.
-/

namespace PeerFleet

inductive Severity where
  | info
  | warning
  | error
  deriving DecidableEq, Repr, Inhabited

namespace Severity

def name : Severity → String
  | .info => "Info"
  | .warning => "Warning"
  | .error => "Error"

def label : Severity → String
  | .info => "INFO"
  | .warning => "WARN"
  | .error => "ERROR"

def read? {δ : Type} [Notation δ] (v : δ) : Option Severity := do
  let name ← Notation.variant? v
  [info, warning, error].find? (·.name = name)

end Severity

structure Finding where
  severity : Severity
  code : String
  message : String
  suggestion : Option String := none
  deriving DecidableEq, Repr, Inhabited

namespace Finding

def read? {δ : Type} [Notation δ] (v : δ) : Option Finding := do
  let r ← Record.of? ["severity", "code", "message", "suggestion"] v
  let severity ← r.required "severity" Severity.read?
  let code ← r.required "code" Read.text
  let message ← r.required "message" Read.text
  let suggestion ← r.nullable "suggestion" Read.text
  some { severity, code, message, suggestion }

def toJson (f : Finding) : Json :=
  .object [("severity", .string f.severity.name), ("code", .string f.code),
    ("message", .string f.message), ("suggestion", Json.nullable (f.suggestion.map .string))]

def render (f : Finding) : String :=
  s!"  {f.severity.label} [{f.code}]: {f.message}\n" ++
    (f.suggestion.map fun s => s!"    -> {s}\n").getD ""

end Finding

/-- The findings of a check; it has passed unless one of them is an error. -/
structure Verdict where
  findings : List Finding := []
  passed : Bool := true
  deriving DecidableEq, Repr, Inhabited

namespace Verdict

def add (v : Verdict) (f : Finding) : Verdict :=
  { findings := v.findings ++ [f], passed := v.passed && f.severity != .error }

def ofFindings (fs : List Finding) : Verdict :=
  fs.foldl add {}

def hasErrors (v : Verdict) : Bool :=
  v.findings.any (·.severity = .error)

def hasWarnings (v : Verdict) : Bool :=
  v.findings.any (·.severity = .warning)

def codes (v : Verdict) : List String :=
  v.findings.map (·.code)

def render (v : Verdict) : String :=
  String.join (v.findings.map Finding.render)

def read? {δ : Type} [Notation δ] (v : δ) : Option Verdict := do
  let r ← Record.of? ["messages", "passed"] v
  let findings ← r.required "messages" (Read.list Finding.read?)
  let passed ← r.required "passed" Read.bool
  some { findings, passed }

def toJson (v : Verdict) : Json :=
  .object [("messages", .array (v.findings.map Finding.toJson)), ("passed", .bool v.passed)]

end Verdict

namespace FleetConfig

def findIf (condition : Bool) (f : Finding) : List Finding :=
  if condition then [f] else []

def checkNode (seen : List NodeId) (n : Node) : List Finding :=
  findIf (seen.contains n.id)
    { severity := .error, code := "DUPLICATE_NODE_ID",
      message := s!"Node id {n.id} is used more than once" } ++
  findIf (n.maxPeers = 0)
    { severity := .error, code := "ZERO_CAPACITY",
      message := s!"Node {n.id} ({n.name}) has max_peers = 0",
      suggestion := some
        "Set max_peers to the number of peers the node can hold, or disable the node" } ++
  findIf (n.maxPeers < n.currentPeers)
    { severity := .warning, code := "OVER_CAPACITY",
      message :=
        s!"Node {n.id} reports {n.currentPeers} peers but max_peers is {n.maxPeers}" } ++
  findIf (Text.isBlankText n.rpcAddress)
    { severity := .error, code := "MISSING_RPC_ADDRESS",
      message := s!"Node {n.id} has no rpc_address" } ++
  findIf n.tls.halfConfigured
    { severity := .error, code := "MTLS_HALF_CONFIGURED",
      message := s!"Node {n.id} sets only one of client_cert and client_key",
      suggestion := some "Configure both files for mutual TLS, or neither" } ++
  findIf (n.tls.mode = .plain &&
      (n.tls.caCert.isSome || n.tls.clientCert.isSome || n.tls.serverName.isSome))
    { severity := .warning, code := "TLS_SETTINGS_IGNORED",
      message := s!"Node {n.id} has TLS files configured but tls.enabled is false",
      suggestion := some "Set tls.enabled: true" }

def checkNodes (seen : List NodeId) : List Node → List Finding
  | [] => []
  | n :: ns => checkNode seen n ++ checkNodes (n.id :: seen) ns

def checkDaily (code time : String) : List Finding :=
  match Schedule.parseDaily time with
  | .ok _ => []
  | .error e => [{ severity := .error, code, message := e.message,
                   suggestion := some "Use HH:MM (UTC)" }]

def checkSeconds (code setting : String) (secs : UInt64) : List Finding :=
  findIf (secs = 0)
    { severity := .error, code, message := s!"{setting} must be greater than zero" }

def checkWorkers (w : WorkerSettings) : List Finding :=
  checkDaily "EXPIRATION_SCHEDULE" w.expirationAt ++
  checkDaily "NOTIFICATION_SCHEDULE" w.notificationAt ++
  checkSeconds "HEALTH_INTERVAL" "health_interval" w.healthIntervalSecs ++
  checkSeconds "HEALTH_TIMEOUT" "health_timeout" w.healthTimeoutSecs ++
  checkSeconds "PROVISIONING_INTERVAL" "provisioning_interval" w.provisioningIntervalSecs ++
  checkSeconds "PEER_COUNT_INTERVAL" "peer_count_interval" w.peerCountIntervalSecs ++
  findIf (w.healthIntervalSecs ≤ w.healthTimeoutSecs && 0 < w.healthIntervalSecs)
    { severity := .warning, code := "HEALTH_TIMEOUT_TOO_LONG",
      message := s!"Health timeout ({w.healthTimeoutSecs}s) is not shorter than the interval " ++
        s!"({w.healthIntervalSecs}s)" } ++
  findIf w.notifyDays.isEmpty
    { severity := .info, code := "NO_REMINDERS",
      message := "notify_days is empty; expiry reminders are disabled" }

def validate (c : FleetConfig) : Verdict :=
  .ofFindings <|
    checkNodes [] c.nodes ++ checkWorkers c.workers ++
    findIf c.admins.isEmpty
      { severity := .warning, code := "NO_ADMINS",
        message := "No admins configured; node outages will only be logged" } ++
    findIf c.telegram.token.isNone
      { severity := .warning, code := "NO_BOT_TOKEN",
        message := "No Telegram token; messages will be written to the log",
        suggestion := some "Set telegram.token or WGFLEET_TELEGRAM_TOKEN" }

end FleetConfig

end PeerFleet
