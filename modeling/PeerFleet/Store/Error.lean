import PeerFleet.Subscription

/-! # Failures of the store -/

namespace PeerFleet

inductive StoreError where
  | nodeNotFound (id : NodeId)
  | subscriptionNotFound (id : SubscriptionId)
  | backend (cause : String)
  deriving DecidableEq, Repr, Inhabited

namespace StoreError

def message : StoreError → String
  | .nodeNotFound id => s!"Node {id} not found"
  | .subscriptionNotFound id => s!"Subscription {id} not found"
  | .backend cause => s!"Storage backend error: {cause}"

end StoreError

end PeerFleet
