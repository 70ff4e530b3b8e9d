import PeerFleet.Fleet.Lifecycle

/-! # Recounting

A pass over the eligible nodes that replaces each counter by what the agent lists.
-/

namespace PeerFleet.PeerCount

open Fleet

def recountAll : List Node → FleetProgram (List (NodeId × UInt32))
  | [] => return []
  | n :: ns => do
    match ← (syncPeerCount n).run with
    | .ok count => return (n.id, count) :: (← recountAll ns)
    | .error e =>
      warn s!"Could not recount peers on node {n.id}: {e.message}"
      recountAll ns

def runOnce : Pass (List (NodeId × UInt32)) := do
  let ns : List Node ← listFrom .listEligible
  recountAll ns

def run : FleetProgram Unit := do
  match ← runOnce.run with
  | .ok _ => return ()
  | .error e => error s!"Peer count pass could not list nodes: {e.message}"

end PeerFleet.PeerCount
