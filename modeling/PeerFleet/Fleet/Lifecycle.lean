import PeerFleet.Fleet.Effect
import PeerFleet.Fleet.Selection

/-! # The life of a peer

Creating, suspending, resuming and removing the peer of a subscription. The agent acts
first and the counter of its node follows; a counter that could not be changed is logged
and does not undo what the agent did, since recounting repairs it.
-/

namespace PeerFleet.Fleet

def clientOf (n : Node) : FleetProgram (Except AgentError Client) := do
  match ← askPool (.lookup n.id) with
  | some c => return .ok c
  | none =>
    match ← askPool (.establish n) with
    | .error e => return .error e
    | .ok (c, fresh) =>
      if fresh then info s!"Agent client for node {n.id} ready"
      return .ok c

def clientFor (n : Node) : Attempt Client :=
  ExceptT.mk do
    match ← clientOf n with
    | .ok c => return .ok c
    | .error e => return .error (.clientConstruction n.id e)

/-- Releases a channel; a failure to do so is logged and no more. -/
def release (c : Client) : FleetProgram Unit := do
  match ← closeClient c with
  | .ok () => return ()
  | .error e => warn s!"Failed to close agent client for node {c.nodeId}: {e.message}"

/-- Takes a channel out of the pool and releases it, and says whether there was one. -/
def evict (id : NodeId) : FleetProgram Bool := do
  match ← askPool (.remove id) with
  | some c =>
    release c
    return true
  | none => return false

def releaseAll : List Client → FleetProgram Unit
  | [] => return ()
  | c :: cs => do
    release c
    releaseAll cs

def close : FleetProgram Unit := do
  releaseAll (← askPool .drain)

def remote (n : Node) (c : Client) (call : Agent.Call) : Attempt call.Result :=
  ExceptT.mk do
    match ← askAgent c call with
    | .ok result => return .ok result
    | .error e => return .error (.remoteCall n.id call.operation e)

/-- Removes a peer; one that the agent does not know counts as removed. -/
def removePeer (n : Node) (c : Client) (peerId : String) : Attempt Unit :=
  ExceptT.mk do
    match ← askAgent c (.delete n.interface peerId) with
    | .ok () => return .ok ()
    | .error e =>
      if e.isNotFound then
        warn s!"Peer {peerId} already absent on node {n.id}"
        return .ok ()
      else return .error (.remoteCall n.id .deletePeer e)

/-- Changes a counter; a failure is reported with what has been done already. -/
def count (call : StoreCall) (report : StoreError → String) : FleetProgram Unit := do
  match ← askStore call with
  | .ok _ => return ()
  | .error e => error (report e)

/-- The binding of a subscription: the stored record wins over the caller's copy. -/
def bindingOf (sub : Subscription) : Attempt Binding := do
  let stored ← fromStore (.getSubscription sub.id)
  match (stored.getD sub).binding with
  | some b => return b
  | none => throw (.bindingMissing sub.id)

def nodeOf (id : NodeId) : Attempt Node := do
  match ← fromStore (.getNode id) with
  | some n => return n
  | none => throw (.nodeMissing id)

/-- The binding of a subscription, its node, and a channel to the node's agent. -/
def resolve (sub : Subscription) : Attempt (Binding × Node × Client) := do
  let b ← bindingOf sub
  let n ← nodeOf b.nodeId
  let c ← clientFor n
  return (b, n, c)

def selectNode : Attempt Node := do
  let ns ← fromStore .listEligible
  ExceptT.mk (return pickLeastLoaded ns)

def peerName (user : UserId) (suffix : String) : String :=
  s!"user-{user}-{suffix}"

def createClient (user : UserId) : Attempt Binding := do
  let n ← selectNode
  let c ← clientFor n
  let name := peerName user (← nameSuffix)
  let peer ← remote n c (.create n.interface name)
  count (.increment n.id) fun e =>
    s!"Peer {peer.peerId} created on node {n.id} for user {user} but the peer counter was not " ++
      s!"incremented: {e.message}"
  info s!"Provisioned peer {peer.peerId} on node {n.id} for user {user}"
  return ⟨n.id, peer.peerId, ⟨peer.config, peer.qrCode, peer.clientIp⟩⟩

/-- Suspends the peer of a subscription, which keeps its place on the node. -/
def disableClient (sub : Subscription) : Attempt Unit := do
  let (b, n, c) ← resolve sub
  remote n c (.disable n.interface b.peerId)
  info s!"Disabled peer {b.peerId} on node {n.id} (subscription {sub.id})"

def enableClient (sub : Subscription) : Attempt Unit := do
  let (b, n, c) ← resolve sub
  remote n c (.enable n.interface b.peerId)
  info s!"Enabled peer {b.peerId} on node {n.id} (subscription {sub.id})"

/-- Removes the peer of a subscription, then the binding, and frees the place. Only the
call that takes the binding away frees it. -/
def deleteClient (sub : Subscription) : Attempt Unit := do
  let (b, n, c) ← resolve sub
  removePeer n c b.peerId
  let cleared : Bool ← fromStore (.clearBindingIf sub.id b.peerId)
  if cleared then
    count (.decrement n.id) fun e =>
      s!"Peer {b.peerId} deleted on node {n.id} but the peer counter was not decremented: " ++
        e.message
    info s!"Deleted peer {b.peerId} on node {n.id} (subscription {sub.id})"

def discardBinding (b : Binding) : Attempt Unit := do
  let n ← nodeOf b.nodeId
  let c ← clientFor n
  removePeer n c b.peerId
  count (.decrement n.id) fun e =>
    s!"Peer {b.peerId} discarded on node {n.id} but the peer counter was not decremented: " ++
      e.message
  info s!"Discarded unbound peer {b.peerId} on node {n.id}"

def countOf (peers : List PeerInfo) : UInt32 :=
  UInt32.ofNat (min peers.length (UInt32.size - 1))

/-- Replaces the counter of a node by the number of peers that its agent lists. -/
def syncPeerCount (n : Node) : Attempt UInt32 := do
  let c ← clientFor n
  let peers ← remote n c (.list n.interface)
  let counted := countOf peers
  if counted != n.currentPeers then
    warn s!"Node {n.id} counter drifted: registry={n.currentPeers} agent={counted}"
  fromStore (.setPeerCount n.id counted)
  return counted

end PeerFleet.Fleet
