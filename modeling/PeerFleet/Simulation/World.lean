import PeerFleet.Messaging.ChatLog
import PeerFleet.Simulation.Agent
import PeerFleet.Simulation.Fault

/-! # The surroundings of a simulated fleet

A world answers every call of the fleet's programs: from a store in memory, from agents,
probes and chats of its own, and with faults where it was told to. It records what its
surroundings saw.
-/

namespace PeerFleet.Simulation

open Telegram (MessageId)

/-- What the surroundings see of the fleet. -/
inductive Event where
  | connect (node : NodeId) (address : String)
  | call (node : NodeId) (c : Agent.Call)
  | close (node : NodeId)
  | send (chat : UserId) (id : MessageId) (text : String)
  | edit (chat : UserId) (id : MessageId) (text : String)
  | probe (url : String)
  /-- A pass of a worker began, at a number of milliseconds. -/
  | pass (worker : String) (millis : Nat)
  | start (worker : String)
  | stop (worker : String)
  deriving DecidableEq, Repr

namespace Event

def subject : Agent.Call → Option String
  | .create _ name => some name
  | .enable _ id | .disable _ id | .delete _ id | .get _ id => some id
  | .list _ => none

def isSuffixDigit (c : Char) : Bool :=
  Text.isDigit c || ('a' ≤ c && c ≤ 'f')

def maskName (name : String) : String :=
  let backwards := name.toList.reverse
  if (backwards.take 8).length = 8 ∧ (backwards.take 8).all isSuffixDigit ∧
      backwards[8]? = some '-' then
    String.ofList ((backwards.drop 8).reverse) ++ "********"
  else name

def describeCall (node : NodeId) (c : Agent.Call) : String :=
  let about := match c with
    | .create _ name => some (maskName name)
    | _ => subject c
  let words := [c.operation.name, toString node, c.interface] ++ about.toList
  " ".intercalate words

def message (kind : String) (chat : UserId) (id : MessageId) (text : String) : Json :=
  .object [(kind, .array [Json.ofInt64 chat, Json.ofInt64 id, .string text])]

def toJson : Event → Json
  | .connect node address => .string s!"connect {node} {address}"
  | .call node c => .string (describeCall node c)
  | .close node => .string s!"close {node}"
  | .send chat id text => message "send" chat id text
  | .edit chat id text => message "edit" chat id text
  | .probe url => .string s!"probe {url}"
  | .pass worker millis => .object [("pass", .array [.string worker, Json.ofNat millis])]
  | .start worker => .string s!"start {worker}"
  | .stop worker => .string s!"stop {worker}"

end Event

structure World where
  store : Store := {}
  pool : Pool := {}
  agents : Table AgentState := .empty
  health : HealthRecords := .empty
  faults : Faults := []
  hooks : List Hook := []
  outcomes : List (String × List ProbeResult) := []
  chatsOff : Bool := false
  sent : Nat := 0
  events : List Event := []
  log : List LogLine := []

namespace World

def see (w : World) (e : Event) : World :=
  { w with events := w.events ++ [e] }

def write (line : LogLine) (w : World) : World :=
  { w with log := w.log ++ [line] }

def agent (w : World) (node : NodeId) : AgentState :=
  (w.agents.find? node.toInt).getD { nodeId := node }

def setAgent (w : World) (a : AgentState) : World :=
  { w with agents := w.agents.insert a }

def runHook (w : World) (site : Site) : World :=
  let (changes, hooks) := takeHook site w.hooks
  { w with hooks, store := changes.foldl Change.apply w.store }

def callStore (w : World) (c : StoreCall) : c.Answer × World :=
  match w.faults.use? (Site.ofStoreCall c) with
  | some (failure, faults) => (.error failure, { w with faults })
  | none =>
    let (answer, store) := w.store.perform c
    (answer, { w with store }.runHook (Site.ofStoreCall c))

def connect (w : World) (n : Node) : Except AgentError Unit × World :=
  let w := w.see (.connect n.id n.rpcAddress)
  match w.faults.use? (.connect n.id) with
  | some (failure, faults) => (.error failure, { w with faults })
  | none => (.ok (), (w.setAgent { w.agent n.id with closed := false }).runHook (.connect n.id))

def callPool (w : World) (c : PoolCall) : c.Answer × World :=
  let (connected, w) : Except AgentError Unit × World := match c with
    | .establish n => if (w.pool.client? n.id).isSome then (.ok (), w) else w.connect n
    | _ => (.ok (), w)
  let (answer, pool) := w.pool.perform connected c
  (answer, { w with pool })

def callAgent (w : World) (node : NodeId) (c : Agent.Call) : c.Answer × World :=
  let w := w.see (.call node c)
  let w := w.setAgent (w.agent node)
  if (w.agent node).closed then (.error (.closed c.operation), w)
  else
    match w.faults.useAgent? node c.operation with
    | some (e, faults) => (.error e, { w with faults })
    | none =>
      let (answer, a) := (w.agent node).perform c
      (answer, (Site.ofAgentCall node c).foldl runHook (w.setAgent a))

def closeAgent (w : World) (node : NodeId) : Except AgentError Unit × World :=
  let w := w.see (.close node)
  let w := w.setAgent { w.agent node with closed := true }
  match w.faults.use? (.agent node .close) with
  | some (_, faults) => (.error (.config "close failed"), { w with faults })
  | none => (.ok (), w)

def nextMessage (w : World) : MessageId × World :=
  (ChatLog.nextId w.sent, { w with sent := w.sent + 1 })

def sendMessage (w : World) (chat : UserId) (text : String) :
    Except MessagingError MessageId × World :=
  if w.chatsOff then
    let (id, w) := w.nextMessage
    (.ok id, w.write (ChatLog.sendLine chat id text))
  else
    match w.faults.use? (.message chat) with
    | some (failure, faults) => (.error failure, { w with faults })
    | none =>
      let (id, w) := w.nextMessage
      (.ok id, (w.see (.send chat id text)).runHook (.message chat))

def editMessage (w : World) (chat : UserId) (id : MessageId) (text : String) :
    Except MessagingError Unit × World :=
  if w.chatsOff then (.ok (), w.write (ChatLog.editLine chat id text))
  else
    match w.faults.use? (.message chat) with
    | some (failure, faults) => (.error failure, { w with faults })
    | none => (.ok (), w.see (.edit chat id text))

def callMessage (w : World) : (c : MessageCall) → c.Answer × World
  | .send chat text => w.sendMessage chat text
  | .edit chat id text => w.editMessage chat id text

def takeOutcome (url : String) :
    List (String × List ProbeResult) → ProbeResult × List (String × List ProbeResult)
  | [] => (.ofLatency 1, [])
  | (u, results) :: rest =>
    if u = url then
      match results with
      | [] => (.ofLatency 1, (u, []) :: rest)
      | r :: rs => (r, (u, rs) :: rest)
    else
      let (r, rest) := takeOutcome url rest
      (r, (u, results) :: rest)

def probe (w : World) (url : String) : ProbeResult × World :=
  let (result, outcomes) := takeOutcome url w.outcomes
  (result, { w with outcomes }.see (.probe url))

def handle : (e : Effect) → World → e.Answer × World
  | .store c, w => w.callStore c
  | .pool c, w => w.callPool c
  | .agent client c, w => w.callAgent client.nodeId c
  | .close client, w => w.closeAgent client.nodeId
  | .message c, w => w.callMessage c
  | .probe url, w => w.probe url
  | .health c, w =>
    let (answer, health) := HealthRecords.perform w.health c
    (answer, { w with health })
  | .suffix, w => ("00000000", w)

def run {α : Type} (w : World) (p : FleetProgram α) : α × World :=
  Program.run handle write p w

def arm (w : World) (site : Site) (failure : Option site.Failure) (uses : Option Nat) : World :=
  let failure := failure.getD site.defaultFailure
  { w with faults := w.faults.arm { site, failure, uses } }

def heal (w : World) (site : Site) : World :=
  { w with faults := w.faults.heal site }

def addHook (w : World) (h : Hook) : World :=
  { w with hooks := w.hooks ++ [h] }

def addPeer (w : World) (node : NodeId) (id : String) (enabled : Bool) : World :=
  w.setAgent ((w.agent node).addPeer id enabled)

def removePeer (w : World) (node : NodeId) (id : String) : World :=
  w.setAgent ((w.agent node).removePeer id)

def setOutcomes (w : World) (url : String) (results : List ProbeResult) : World :=
  { w with outcomes := (w.outcomes.filter (·.1 != url)) ++ [(url, results)] }

end World

end PeerFleet.Simulation
