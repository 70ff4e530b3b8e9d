import PeerFleet.Agent.Error
import PeerFleet.Node
import PeerFleet.Table

/-! # The pool of channels

One channel to a node, built when it is first needed and shared after that. Whether to
build one is decided and the result is filed in one step, so that a node never gets two.
-/

namespace PeerFleet

/-- A channel to the agent of a node, told apart from others to it by a serial number. -/
structure Client where
  nodeId : NodeId
  serial : Nat
  deriving DecidableEq, Repr, Inhabited

instance : Keyed Client := ⟨fun c => c.nodeId.toInt⟩

structure Pool where
  clients : Table Client := .empty
  built : Nat := 0
  deriving Inhabited

/-- The steps on the pool; each is taken as a whole. -/
inductive PoolCall where
  | lookup (id : NodeId)
  /-- Looks again, and builds and files a channel if there is still none. -/
  | establish (node : Node)
  | remove (id : NodeId)
  | drain
  deriving DecidableEq

def PoolCall.Answer : PoolCall → Type
  | .lookup _ | .remove _ => Option Client
  | .establish _ => Except AgentError (Client × Bool)
  | .drain => List Client

namespace Pool

def client? (p : Pool) (id : NodeId) : Option Client :=
  p.clients.find? id.toInt

def add (p : Pool) (id : NodeId) : Client × Pool :=
  let c : Client := ⟨id, p.built⟩
  (c, { clients := p.clients.insert c, built := p.built + 1 })

/-- The channel that is filed, or else a new one if it could be built. -/
def establish (p : Pool) (n : Node) (connected : Except AgentError Unit) :
    Except AgentError (Client × Bool) × Pool :=
  match p.client? n.id with
  | some c => (.ok (c, false), p)
  | none =>
    match connected with
    | .error e => (.error e, p)
    | .ok () =>
      let (c, p) := p.add n.id
      (.ok (c, true), p)

def remove (p : Pool) (id : NodeId) : Option Client × Pool :=
  (p.client? id, { p with clients := p.clients.erase id.toInt })

def drain (p : Pool) : List Client × Pool :=
  (p.clients.items, { p with clients := .empty })

def size (p : Pool) : Nat :=
  p.clients.size

def perform (p : Pool) (connected : Except AgentError Unit) : (c : PoolCall) → c.Answer × Pool
  | .lookup id => (p.client? id, p)
  | .establish n => p.establish n connected
  | .remove id => p.remove id
  | .drain => p.drain

end Pool

end PeerFleet
