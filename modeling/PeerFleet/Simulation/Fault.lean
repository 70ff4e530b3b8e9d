import PeerFleet.Fleet.Effect
import PeerFleet.Text.Split

/-! # Faults and changes at the sites of a simulation

A site is a place where the fleet meets its surroundings. A fault makes the uses of a site
fail, for a number of times or for good. Changes wait at a site for its next use that does
not fail, and are made to the store right after it.
-/

namespace PeerFleet.Simulation

/-- What an agent is asked for. -/
inductive AgentSite where
  | verb (operation : Operation)
  | any
  | close
  deriving DecidableEq, Repr

inductive Site where
  | store (method : String)
  | connect (node : NodeId)
  | agent (node : NodeId) (site : AgentSite)
  | message (chat : UserId)
  deriving DecidableEq, Repr

def Site.Failure : Site → Type
  | .store _ => StoreError
  | .connect _ => AgentError
  | .agent _ _ => Operation → AgentError
  | .message _ => MessagingError

namespace Site

def methodName : StoreCall → String
  | .listEligible => "list_eligible_nodes"
  | .getNode _ => "get_node"
  | .increment _ => "increment_peers"
  | .decrement _ => "decrement_peers"
  | .setPeerCount _ _ => "set_peer_count"
  | .getSubscription _ => "get_subscription"
  | .listExpired _ => "list_expired"
  | .listExpiring _ _ => "list_expiring"
  | .listUnprovisioned => "list_unprovisioned"
  | .updateStatus _ _ => "update_status"
  | .setBinding _ _ => "set_binding"
  | .clearBindingIf _ _ => "clear_binding_if"

def ofStoreCall (c : StoreCall) : Site :=
  .store (methodName c)

def ofAgentCall (node : NodeId) (c : Agent.Call) : List Site :=
  [.agent node (.verb c.operation), .agent node .any]

def defaultFailure : (s : Site) → s.Failure
  | .store _ => .backend "backend down"
  | .connect _ => .certificateInvalid "/etc/wgfleet/ca.pem" "untrusted CA"
  | .agent _ _ => fun operation => .transport operation "connection refused"
  | .message _ => .api 403 "bot was blocked by the user"

def idOfName? (name : List Char) : Option Int64 :=
  (String.ofList name).toInt?.map Int64.ofInt

def agentSiteOfName? (name : List Char) : Option AgentSite :=
  if name = ['*'] then some .any
  else if String.ofList name = "close" then some .close
  else (Operation.ofName? (String.ofList name)).map .verb

def ofName? (name : String) : Option Site := do
  let (kind, rest) ← Text.splitFirst '.' name.toList
  match String.ofList kind with
  | "store" => return .store (String.ofList rest)
  | "connect" => return .connect (← idOfName? rest)
  | "message" => return .message (← idOfName? rest)
  | "agent" =>
    let (node, site) ← Text.splitFirst '.' rest
    return .agent (← idOfName? node) (← agentSiteOfName? site)
  | _ => none

end Site

structure Fault where
  site : Site
  failure : site.Failure
  uses : Option Nat := none

def Fault.spend (f : Fault) : Option Fault :=
  match f.uses with
  | none => some f
  | some n => if n ≤ 1 then none else some { f with uses := some (n - 1) }

abbrev Faults := List Fault

namespace Faults

def heal (site : Site) (fs : Faults) : Faults :=
  fs.filter fun f => f.site != site

def arm (f : Fault) (fs : Faults) : Faults :=
  if f.uses = some 0 then fs.heal f.site else fs.heal f.site ++ [f]

def use? (site : Site) : Faults → Option (site.Failure × Faults)
  | [] => none
  | f :: fs =>
    if h : f.site = site then some (h ▸ f.failure, f.spend.toList ++ fs)
    else (use? site fs).map fun (failure, rest) => (failure, f :: rest)

def useAgent? (node : NodeId) (operation : Operation) (fs : Faults) :
    Option (AgentError × Faults) :=
  match fs.use? (.agent node (.verb operation)) with
  | some (failure, rest) => some (failure operation, rest)
  | none =>
    (fs.use? (.agent node .any)).map fun (failure, rest) => (failure operation, rest)

end Faults

/-- A change of the store from outside of the fleet. -/
inductive Change where
  | node (n : Node)
  | subscription (s : Subscription)
  deriving DecidableEq

def Change.apply (s : Store) : Change → Store
  | .node n => s.upsertNode n
  | .subscription sub => s.upsertSubscription sub

/-- Changes that wait at a site. -/
structure Hook where
  site : Site
  changes : List Change
  deriving DecidableEq

def takeHook (site : Site) : List Hook → List Change × List Hook
  | [] => ([], [])
  | h :: hs =>
    if h.site = site then (h.changes, hs)
    else
      let (changes, rest) := takeHook site hs
      (changes, h :: rest)

end PeerFleet.Simulation
