import PeerFleet.Store.Error
import PeerFleet.Table

/-! # The store

The nodes and the subscriptions of the fleet, each listed by ascending id. The calls on
the store are also given as data, so that programs can make them.
-/

namespace PeerFleet

instance : Keyed Node := ⟨fun n => n.id.toInt⟩

instance : Keyed Subscription := ⟨fun s => s.id.toInt⟩

structure Store where
  nodes : Table Node := .empty
  subscriptions : Table Subscription := .empty
  deriving Inhabited

/-- What can be asked of the store. -/
inductive StoreCall where
  | listEligible
  | getNode (id : NodeId)
  | increment (id : NodeId)
  | decrement (id : NodeId)
  | setPeerCount (id : NodeId) (count : UInt32)
  | getSubscription (id : SubscriptionId)
  | listExpired (now : Instant)
  | listExpiring (fromInstant toInstant : Instant)
  | listUnprovisioned
  | updateStatus (id : SubscriptionId) (status : SubscriptionStatus)
  | setBinding (id : SubscriptionId) (binding : Option Binding)
  | clearBindingIf (id : SubscriptionId) (peerId : String)
  deriving DecidableEq

/-- What a call answers when the store does not fail. -/
def StoreCall.Result : StoreCall → Type
  | .listEligible => List Node
  | .getNode _ => Option Node
  | .increment _ | .decrement _ | .setPeerCount _ _ => Unit
  | .getSubscription _ => Option Subscription
  | .listExpired _ | .listExpiring _ _ | .listUnprovisioned => List Subscription
  | .updateStatus _ _ | .setBinding _ _ => Unit
  | .clearBindingIf _ _ => Bool

abbrev StoreCall.Answer (c : StoreCall) : Type :=
  Except StoreError c.Result

namespace Store

def ofNodes (ns : List Node) : Store :=
  { nodes := .ofList ns }

def upsertNode (s : Store) (n : Node) : Store :=
  { s with nodes := s.nodes.insert n }

def upsertSubscription (s : Store) (sub : Subscription) : Store :=
  { s with subscriptions := s.subscriptions.insert sub }

def node? (s : Store) (id : NodeId) : Option Node :=
  s.nodes.find? id.toInt

def subscription? (s : Store) (id : SubscriptionId) : Option Subscription :=
  s.subscriptions.find? id.toInt

def listNodes (s : Store) : List Node :=
  s.nodes.items

def listEligible (s : Store) : List Node :=
  s.listNodes.filter Node.eligible

def listSubscriptions (s : Store) (p : Subscription → Bool) : List Subscription :=
  s.subscriptions.items.filter p

/-- Active at or before the instant of its end. -/
def listExpired (s : Store) (now : Instant) : List Subscription :=
  s.listSubscriptions fun sub => sub.isActive && sub.expiredAt now

/-- Active and ending in a half-open window. -/
def listExpiring (s : Store) (fromInstant toInstant : Instant) : List Subscription :=
  s.listSubscriptions fun sub =>
    sub.isActive && fromInstant ≤ sub.expiresAt && sub.expiresAt < toInstant

def listUnprovisioned (s : Store) : List Subscription :=
  s.listSubscriptions Subscription.needsProvisioning

def setPeers (s : Store) (id : NodeId) (f : UInt32 → UInt32) : Except StoreError Unit × Store :=
  match s.node? id with
  | none => (.error (.nodeNotFound id), s)
  | some _ =>
    let recount (n : Node) : Node := { n with currentPeers := f n.currentPeers }
    (.ok (), { s with nodes := s.nodes.modify id.toInt recount fun _ => rfl })

def increased (count : UInt32) : UInt32 :=
  if count.toNat + 1 < UInt32.size then count + 1 else count

def decreased (count : UInt32) : UInt32 :=
  if count = 0 then 0 else count - 1

def modifySubscription (s : Store) (id : SubscriptionId) (f : Subscription → Subscription)
    (keep : ∀ sub, (f sub).id = sub.id) : Except StoreError Unit × Store :=
  match s.subscription? id with
  | none => (.error (.subscriptionNotFound id), s)
  | some _ =>
    let kept (sub : Subscription) : Keyed.key (f sub) = Keyed.key sub :=
      congrArg Int64.toInt (keep sub)
    (.ok (), { s with subscriptions := s.subscriptions.modify id.toInt f kept })

def updateStatus (s : Store) (id : SubscriptionId) (status : SubscriptionStatus) :
    Except StoreError Unit × Store :=
  s.modifySubscription id (fun sub => { sub with status }) fun _ => rfl

def setBinding (s : Store) (id : SubscriptionId) (binding : Option Binding) :
    Except StoreError Unit × Store :=
  s.modifySubscription id (fun sub => { sub with binding }) fun _ => rfl

/-- Takes the binding off a subscription if it names the peer, and says whether it did. -/
def clearBindingIf (s : Store) (id : SubscriptionId) (peerId : String) :
    Except StoreError Bool × Store :=
  match s.subscription? id with
  | none => (.error (.subscriptionNotFound id), s)
  | some sub =>
    if sub.binding.any (·.peerId = peerId) then (.ok true, (s.setBinding id none).2)
    else (.ok false, s)

def perform (s : Store) : (c : StoreCall) → c.Answer × Store
  | .listEligible => (.ok s.listEligible, s)
  | .getNode id => (.ok (s.node? id), s)
  | .increment id => s.setPeers id increased
  | .decrement id => s.setPeers id decreased
  | .setPeerCount id count => s.setPeers id fun _ => count
  | .getSubscription id => (.ok (s.subscription? id), s)
  | .listExpired now => (.ok (s.listExpired now), s)
  | .listExpiring fromInstant toInstant => (.ok (s.listExpiring fromInstant toInstant), s)
  | .listUnprovisioned => (.ok s.listUnprovisioned, s)
  | .updateStatus id status => s.updateStatus id status
  | .setBinding id binding => s.setBinding id binding
  | .clearBindingIf id peerId => s.clearBindingIf id peerId

end Store

end PeerFleet
