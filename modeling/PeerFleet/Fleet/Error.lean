import PeerFleet.Agent.Error
import PeerFleet.Store.Error

/-! # Failures of fleet operations

Besides its text a failure has three classes: the fleet is full, the failure may clear up
when the operation is tried again, and the peer is gone for good.
-/

namespace PeerFleet

inductive FleetError where
  | noNodesAvailable
  | atCapacity
  | bindingMissing (subscription : SubscriptionId)
  | nodeMissing (node : NodeId)
  | clientConstruction (node : NodeId) (source : AgentError)
  | remoteCall (node : NodeId) (operation : Operation) (source : AgentError)
  | store (source : StoreError)
  deriving DecidableEq, Repr, Inhabited

namespace FleetError

def message : FleetError → String
  | .noNodesAvailable => "No nodes available"
  | .atCapacity => "All nodes are at capacity"
  | .bindingMissing subscription => s!"Subscription {subscription} has no fleet binding"
  | .nodeMissing node => s!"Node {node} not found in registry"
  | .clientConstruction node source =>
    s!"Failed to build agent client for node {node}: {source.message}"
  | .remoteCall node operation source => s!"{operation} on node {node} failed: {source.message}"
  | .store source => s!"Store error: {source.message}"

/-- No node can take a peer now. -/
def isCapacity : FleetError → Bool
  | .noNodesAvailable => true
  | .atCapacity => true
  | _ => false

/-- The failure may clear up on its own. -/
def isRetryable : FleetError → Bool
  | .remoteCall _ _ _ => true
  | .store _ => true
  | e => e.isCapacity

/-- The bound peer cannot be reached anywhere: there is no binding, no such node, or the
agent does not know the peer. -/
def isPeerGone : FleetError → Bool
  | .bindingMissing _ => true
  | .nodeMissing _ => true
  | .remoteCall _ _ source => source.isNotFound
  | _ => false

def causes : FleetError → List String
  | .clientConstruction _ source => source.message :: source.causes
  | .remoteCall _ _ source => source.message :: source.causes
  | .store source => [source.message]
  | _ => []

def userMessage (_ : FleetError) : String :=
  "Something went wrong while setting up your VPN access. Please try again later."

end FleetError

end PeerFleet
