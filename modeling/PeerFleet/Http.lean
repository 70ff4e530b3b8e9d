import PeerFleet.Json.Basic
import PeerFleet.Text.Utf8
import PeerFleet.Url.Basic

/-! # Requests and replies

What is sent to another service, and what comes back: a reply, or nothing when the
connection could not be made or was closed without an answer.
-/

namespace PeerFleet

inductive Method where
  | get
  | post
  | delete
  deriving DecidableEq, Repr

namespace Method

def name : Method → String
  | .get => "GET"
  | .post => "POST"
  | .delete => "DELETE"

end Method

structure Request where
  method : Method
  url : Url
  auth : Option String := none
  body : Option Json := none

structure Reply where
  status : UInt16
  body : List UInt8
  deriving DecidableEq, Repr

namespace Reply

def isSuccess (r : Reply) : Bool :=
  200 ≤ r.status && r.status < 300

/-- The body as a text, whatever its octets are. -/
def text (r : Reply) : String :=
  String.ofList (Utf8.lossy r.body)

end Reply

end PeerFleet
