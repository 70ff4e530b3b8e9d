import PeerFleet.Messaging.Telegram
import PeerFleet.Table

/-! # Health records

What is known of the health of a node: its state, how often it failed in a row, since when
it is down, and which messages report the outage. A record is changed by one probe at a
time. Messages are filed only with a node that is down, and its recovery removes them; which
outage a message is about is not asked, so that one filed late may be about an earlier outage.
-/

namespace PeerFleet

open Telegram (MessageId)

/-- The outcome of one probe. -/
structure ProbeResult where
  healthy : Bool
  latencyMs : UInt64
  error : Option String := none
  deriving DecidableEq, Repr, Inhabited

namespace ProbeResult

def ofLatency (latencyMs : UInt64) : ProbeResult :=
  { healthy := true, latencyMs }

def ofError (latencyMs : UInt64) (error : String) : ProbeResult :=
  { healthy := false, latencyMs, error := some error }

def ofReply (latencyMs : UInt64) : Option Reply → ProbeResult
  | none => .ofError latencyMs "error sending request"
  | some reply =>
    if reply.status = 200 then .ofLatency latencyMs
    else .ofError latencyMs s!"HTTP {reply.status}"

def request? (toAscii? : DomainToAscii) (url : String) : Option Request :=
  match Url.parse toAscii? url with
  | .ok url => some { method := .get, url }
  | .error _ => none

def toJson (p : ProbeResult) : Json :=
  .object ([("healthy", .bool p.healthy), ("latency_ms", Json.ofUInt64 p.latencyMs)] ++
    Json.optional "error" (p.error.map .string))

end ProbeResult

inductive NodeState where
  | unknown
  | up
  | down
  deriving DecidableEq, Repr, Inhabited

namespace NodeState

def name : NodeState → String
  | .unknown => "unknown"
  | .up => "up"
  | .down => "down"

end NodeState

/-- What one probe did to the state of a node. -/
inductive Transition where
  | cameUp
  | stayedUp
  | wentDown
  | stayedDown (failures : UInt32)
  | recovered (downtime : Span)
  deriving DecidableEq, Repr

/-- Messages about outages, one for a chat. -/
abbrev Reports := List (UserId × MessageId)

namespace Reports

def set (r : Reports) (chat : UserId) (id : MessageId) : Reports :=
  (r.filter fun entry => entry.1 != chat) ++ [(chat, id)]

end Reports

structure NodeHealth where
  nodeId : NodeId
  nodeName : String
  state : NodeState := .unknown
  failures : UInt32 := 0
  downSince : Option Instant := none
  lastChecked : Option Instant := none
  lastProbe : Option ProbeResult := none
  /-- The messages that were last filed while the node was down. -/
  reports : Reports := []
  deriving DecidableEq

instance : Keyed NodeHealth := ⟨fun h => h.nodeId.toInt⟩

namespace NodeHealth

def apply (h : NodeHealth) (healthy : Bool) (at_ : Instant) : Transition × NodeHealth :=
  let h := { h with lastChecked := some at_ }
  match h.state, healthy with
  | .up, true => (.stayedUp, h)
  | .unknown, true => (.cameUp, { h with state := .up })
  | .down, true =>
    let downtime := (h.downSince.map at_.elapsed).getD ⟨0⟩
    (.recovered downtime,
      { h with state := .up, failures := 0, downSince := none, reports := [] })
  | .down, false =>
    let failures := h.failures + 1
    (.stayedDown failures, { h with failures })
  | _, false => (.wentDown, { h with state := .down, failures := 1, downSince := some at_ })

/-- The record with other messages, if the node is down, whichever outage they are about. -/
def remember (h : NodeHealth) (reports : Reports) : NodeHealth :=
  if h.state = .down then { h with reports } else h

theorem nodeId_remember (h : NodeHealth) (reports : Reports) :
    (h.remember reports).nodeId = h.nodeId := by
  unfold remember
  split <;> rfl

def downtime (h : NodeHealth) (now : Instant) : Option Span :=
  h.downSince.map now.elapsed

def toJson (h : NodeHealth) : Json :=
  .object <|
    [("node_id", Json.ofInt64 h.nodeId), ("node_name", .string h.nodeName),
      ("state", .string h.state.name), ("consecutive_failures", Json.ofUInt32 h.failures)] ++
      Json.optional "down_since" (h.downSince.map Json.ofInstant) ++
      Json.optional "last_checked" (h.lastChecked.map Json.ofInstant) ++
      Json.optional "last_probe" (h.lastProbe.map ProbeResult.toJson)

end NodeHealth

abbrev HealthRecords := Table NodeHealth

/-- The changes of the records; each is made as a whole. -/
inductive HealthCall where
  | record (node : Node) (probe : ProbeResult) (at_ : Instant)
  | remember (id : NodeId) (reports : Reports)
  | retain (ids : List NodeId)
  deriving DecidableEq

def HealthCall.Answer : HealthCall → Type
  | .record _ _ _ => Transition × NodeHealth
  | .remember _ _ | .retain _ => Unit

namespace HealthRecords

def node? (r : HealthRecords) (id : NodeId) : Option NodeHealth :=
  r.find? id.toInt

/-- Files the outcome of a probe; a node seen for the first time gets a record. -/
def record (r : HealthRecords) (n : Node) (probe : ProbeResult) (at_ : Instant) :
    (Transition × NodeHealth) × HealthRecords :=
  let old := (r.node? n.id).getD { nodeId := n.id, nodeName := n.name }
  let (transition, health) :=
    { old with nodeName := n.name, lastProbe := some probe }.apply probe.healthy at_
  ((transition, health), r.insert health)

/-- Files messages with a node if it is down now, even if it was up in between. -/
def remember (r : HealthRecords) (id : NodeId) (reports : Reports) : HealthRecords :=
  r.modify id.toInt (·.remember reports) fun h => congrArg Int64.toInt (h.nodeId_remember reports)

def retain (r : HealthRecords) (ids : List NodeId) : HealthRecords :=
  r.filter fun h => ids.contains h.nodeId

def perform (r : HealthRecords) : (c : HealthCall) → c.Answer × HealthRecords
  | .record n probe at_ => r.record n probe at_
  | .remember id reports => ((), r.remember id reports)
  | .retain ids => ((), r.retain ids)

def count (hs : List NodeHealth) (state : NodeState) : Nat :=
  (hs.filter (·.state = state)).length

/-- The health of a whole fleet in one word. -/
def status (hs : List NodeHealth) : String :=
  if hs.isEmpty then "Empty"
  else if count hs .down > 0 then "Degraded"
  else if count hs .unknown > 0 then "Unknown"
  else "Healthy"

end HealthRecords

end PeerFleet
