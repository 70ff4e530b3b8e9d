import PeerFleet.Log
import PeerFleet.Messaging.Telegram

/-! # Messages in the log

Without a messenger, messages are written to the log. They are numbered from one, so that
edits can name them.
-/

namespace PeerFleet.ChatLog

open Telegram (MessageId)

def nextId (sent : Nat) : MessageId :=
  Int64.ofNat (sent + 1)

def sendLine (chat : UserId) (id : MessageId) (text : String) : LogLine :=
  ⟨.info, s!"[message {id} -> {chat}] {text}"⟩

def editLine (chat : UserId) (id : MessageId) (text : String) : LogLine :=
  ⟨.info, s!"[edit {id} -> {chat}] {text}"⟩

end PeerFleet.ChatLog
