import PeerFleet.Fleet.Error

/-! # Selection of a node

A new peer goes to the eligible node with room that carries the least, the smaller id
deciding between equals.
-/

namespace PeerFleet.Fleet

/-- A node that carries less than another one, or as much and has the smaller id. -/
def lighter (a b : Node) : Bool :=
  a.currentPeers < b.currentPeers || (a.currentPeers = b.currentPeers && a.id < b.id)

def lightest : List Node → Option Node
  | [] => none
  | n :: ns =>
    match lightest ns with
    | none => some n
    | some m => if lighter m n then some m else some n

/-- The node for the next peer. -/
def pickLeastLoaded (ns : List Node) : Except FleetError Node :=
  let eligible := ns.filter Node.eligible
  if eligible.isEmpty then .error .noNodesAvailable
  else
    match lightest (eligible.filter Node.hasCapacity) with
    | some n => .ok n
    | none => .error .atCapacity

end PeerFleet.Fleet
