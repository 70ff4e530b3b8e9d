/-! # Failures to deliver a message -/

namespace PeerFleet

inductive MessagingError where
  /-- The service could not be reached or its answer could not be read. -/
  | http (cause : String)
  | api (status : UInt16) (text : String)
  | unreadable (cause : String)
  deriving DecidableEq, Repr, Inhabited

namespace MessagingError

def message : MessagingError → String
  | .http cause => s!"HTTP error: {cause}"
  | .api status text => s!"API error: {status} - {text}"
  | .unreadable cause => s!"JSON parse error: {cause}"

end MessagingError

end PeerFleet
