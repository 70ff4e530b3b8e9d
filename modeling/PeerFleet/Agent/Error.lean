import PeerFleet.Agent.Peer

/-! # Failures of agent channels -/

namespace PeerFleet

/-- Why a channel to an agent could not be built or a call on it failed. -/
inductive AgentError where
  | invalidAddress (address reason : String)
  | certificateRead (path cause : String)
  | certificateInvalid (path reason : String)
  | config (reason : String)
  | transport (operation : Operation) (cause : String)
  /-- The agent refused with a status outside of 200 to 299. -/
  | status (operation : Operation) (code : UInt16) (text : String)
  | malformed (operation : Operation) (cause : String)
  | closed (operation : Operation)
  deriving DecidableEq, Repr, Inhabited

namespace AgentError

def message : AgentError → String
  | .invalidAddress address reason => s!"Invalid agent address '{address}': {reason}"
  | .certificateRead path cause => s!"Failed to read {path}: {cause}"
  | .certificateInvalid path reason => s!"Invalid TLS material in {path}: {reason}"
  | .config reason => s!"Invalid agent client configuration: {reason}"
  | .transport operation cause => s!"{operation} failed: {cause}"
  | .status operation code text => s!"{operation} rejected by agent (HTTP {code}): {text}"
  | .malformed operation cause => s!"{operation} returned a malformed response: {cause}"
  | .closed operation => s!"{operation} attempted on a closed client"

def operation? : AgentError → Option Operation
  | .transport operation _ => some operation
  | .status operation _ _ => some operation
  | .malformed operation _ => some operation
  | .closed operation => some operation
  | _ => none

def isNotFound : AgentError → Bool
  | .status _ 404 _ => true
  | _ => false

def causes : AgentError → List String
  | .certificateRead _ cause => [cause]
  | _ => []

end AgentError

end PeerFleet
