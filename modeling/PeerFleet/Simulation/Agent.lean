import PeerFleet.Agent.Channel
import PeerFleet.Table

/-! # Agents of a simulation

An agent keeps its peers in the order of their ids. It issues a new id for every peer and
answers 404 when it does not know one.
-/

namespace PeerFleet.Simulation

structure AgentState where
  nodeId : NodeId
  closed : Bool := false
  /-- The peers with whether they are enabled, by ascending id. -/
  peers : List (String × Bool) := []
  created : Nat := 0
  deriving DecidableEq, Repr

instance : Keyed AgentState := ⟨fun a => a.nodeId.toInt⟩

namespace AgentState

def place (id : String) (enabled : Bool) : List (String × Bool) → List (String × Bool)
  | [] => [(id, enabled)]
  | p :: ps =>
    if id < p.1 then (id, enabled) :: p :: ps
    else if id = p.1 then (id, enabled) :: ps
    else p :: place id enabled ps

def knows (a : AgentState) (id : String) : Bool :=
  a.peers.any (·.1 = id)

def addPeer (a : AgentState) (id : String) (enabled : Bool) : AgentState :=
  { a with peers := place id enabled a.peers }

def setEnabled (a : AgentState) (id : String) (enabled : Bool) : AgentState :=
  { a with peers := a.peers.map fun p => if p.1 = id then (id, enabled) else p }

def removePeer (a : AgentState) (id : String) : AgentState :=
  { a with peers := a.peers.filter (·.1 != id) }

def nextNumber (a : AgentState) : Nat :=
  a.created + 2

def nextPeer (a : AgentState) (interface : String) : CreatedPeer :=
  let n := a.nextNumber
  { peerId := s!"pk-{interface}-{n}"
    config := s!"[Interface]\nAddress = 10.8.0.{n}/32\n"
    qrCode := s!"qr-{n}"
    clientIp := s!"10.8.0.{n}" }

def shortId (id : String) : String :=
  match Text.splitLast ' ' id.toList with
  | some (_, last) => String.ofList last
  | none => id

def notFound (operation : Operation) (id : String) : AgentError :=
  .status operation 404 s!"peer {shortId id} not found"

def infoOf (p : String × Bool) : PeerInfo :=
  { peerId := p.1, enabled := p.2 }

def changePeer (a : AgentState) (operation : Operation) (id : String) (change : AgentState) :
    Except AgentError Unit × AgentState :=
  if a.knows id then (.ok (), change) else (.error (notFound operation id), a)

def perform (a : AgentState) : (c : Agent.Call) → c.Answer × AgentState
  | .create interface _ =>
    let peer := a.nextPeer interface
    (.ok peer, { a.addPeer peer.peerId true with created := a.created + 1 })
  | .enable _ id => a.changePeer .enablePeer id (a.setEnabled id true)
  | .disable _ id => a.changePeer .disablePeer id (a.setEnabled id false)
  | .delete _ id => a.changePeer .deletePeer id (a.removePeer id)
  | .get _ id =>
    match a.peers.find? (·.1 = id) with
    | some p => (.ok (infoOf p), a)
    | none => (.error (notFound .getPeer id), a)
  | .list _ => (.ok (a.peers.map infoOf), a)

end AgentState

end PeerFleet.Simulation
