import PeerFleet.Http
import PeerFleet.Json.Parser
import PeerFleet.Json.Range
import PeerFleet.Messaging.Error
import PeerFleet.Subscription

/-! # Messages through the Telegram bot interface

A message is one request; the reply is an envelope that says whether it was accepted. An
edit that would change nothing counts as done.
-/

namespace PeerFleet.Telegram

/-- The id of a sent message, with which it can be edited. -/
abbrev MessageId := Int64

structure Bot where
  apiBase : String
  token : String
  deriving DecidableEq, Repr

/-- The envelope of a reply; `α` is what a result holds. -/
structure Envelope (α : Type) where
  ok : Bool
  result : Option α
  description : Option String
  deriving DecidableEq, Repr

namespace Bot

def methodUrl (b : Bot) (method : String) : String :=
  String.ofList (Text.dropTrailing '/' b.apiBase.toList) ++ "/bot" ++ b.token ++ "/" ++ method

end Bot

/-- A value that can be kept: no part of it is broken, all its numbers are in range, and no more
than `depth` lists and objects are nested in each other. -/
def isWhole : Nat → Json → Bool
  | _, .broken => false
  | _, .integer n => (Json.Magnitude.ofLexeme (toString n).toList).isFinite
  | _, .decimal lexeme => (Json.Magnitude.ofLexeme lexeme.toList).isFinite
  | 0, .array _ | 0, .object _ => false
  | depth + 1, .array items => items.all (isWhole depth)
  | depth + 1, .object members => members.all fun m => isWhole depth m.2
  | _, _ => true

def maxDepth : Nat := 126

def whole? (j : Json) : Option Json :=
  if isWhole maxDepth j then some j else none

def sentId? (j : Json) : Option MessageId := do
  let r ← Record.of? ["message_id"] j
  r.required "message_id" Read.int64

variable {α : Type}

def Envelope.read? (result? : Json → Option α) (j : Json) : Option (Envelope α) := do
  let r ← Record.of? ["ok", "result", "description"] j
  let ok ← r.required "ok" Read.bool
  let result ← r.nullable "result" result?
  let description ← r.optional "description" Read.text
  some { ok, result, description }

def envelope? (result? : Json → Option α) (body : String) : Option (Envelope α) := do
  Envelope.read? result? (← Json.parse body)

def excerpt (body : String) : String :=
  String.ofList (body.toList.take 200)

/-- The envelope of an accepted request, or why it was refused. A refusal that is no
envelope still reports its status. -/
def accept (result? : Json → Option α) (status : UInt16) (body : String) :
    Except MessagingError (Envelope α) :=
  let success := 200 ≤ status ∧ status < 300
  match envelope? result? body with
  | none =>
    if success then .error (.unreadable "unexpected reply") else .error (.api status (excerpt body))
  | some e =>
    if success ∧ e.ok = true then .ok e
    else .error (.api status (e.description.getD "Unknown error"))

def sendRequest (b : Bot) (chat : UserId) (text : String) : String × Json :=
  (b.methodUrl "sendMessage",
    .object [("chat_id", Json.ofInt64 chat), ("text", .string text),
      ("disable_web_page_preview", .bool true)])

/-- What a reply makes of a sent message: its id. -/
def settleSend (status : UInt16) (body : String) : Except MessagingError MessageId := do
  let e ← accept sentId? status body
  match e.result with
  | some id => return id
  | none => throw (.unreadable "missing result")

def editRequest (b : Bot) (chat : UserId) (id : MessageId) (text : String) : String × Json :=
  (b.methodUrl "editMessageText",
    .object [("chat_id", Json.ofInt64 chat), ("message_id", Json.ofInt64 id),
      ("text", .string text)])

/-- The service refused an edit because the text is already the one asked for. -/
def isUnchanged : MessagingError → Bool
  | .api 400 text => Text.occurs "message is not modified".toList text.toList
  | _ => false

/-- What a reply makes of an edit. -/
def settleEdit (status : UInt16) (body : String) : Except MessagingError Unit :=
  match accept whole? status body with
  | .ok _ => .ok ()
  | .error e => if isUnchanged e then .ok () else .error e

def request? (toAscii? : DomainToAscii) (target : String × Json) : Option Request :=
  match Url.parse toAscii? target.1 with
  | .ok url => some { method := .post, url, body := some target.2 }
  | .error _ => none

def settle (settled : UInt16 → String → Except MessagingError α) :
    Option Reply → Except MessagingError α
  | none => .error (.http "error sending request")
  | some reply => settled reply.status reply.text

end PeerFleet.Telegram
