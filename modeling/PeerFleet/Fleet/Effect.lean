import PeerFleet.Agent.Channel
import PeerFleet.Fleet.Error
import PeerFleet.Fleet.Pool
import PeerFleet.Health.Record
import PeerFleet.Program
import PeerFleet.Store.Basic

/-! # What the fleet's programs call

The store, the pool, the agents, the messenger, the probes and the health records, each
call a step of its own.
-/

namespace PeerFleet

open Telegram (MessageId)

inductive MessageCall where
  | send (chat : UserId) (text : String)
  | edit (chat : UserId) (id : MessageId) (text : String)
  deriving DecidableEq

def MessageCall.Result : MessageCall → Type
  | .send _ _ => MessageId
  | .edit _ _ _ => Unit

abbrev MessageCall.Answer (c : MessageCall) : Type :=
  Except MessagingError c.Result

inductive Effect where
  | store (c : StoreCall)
  | pool (c : PoolCall)
  | agent (client : Client) (c : Agent.Call)
  | close (client : Client)
  | message (c : MessageCall)
  | probe (url : String)
  | health (c : HealthCall)
  /-- Eight digits that tell one peer's name from the next. -/
  | suffix
  deriving DecidableEq

def Effect.Answer : Effect → Type
  | .store c => c.Answer
  | .pool c => c.Answer
  | .agent _ c => c.Answer
  | .close _ => Except AgentError Unit
  | .message c => c.Answer
  | .probe _ => ProbeResult
  | .health c => c.Answer
  | .suffix => String

def Effects : Interface := ⟨Effect, Effect.Answer⟩

abbrev FleetProgram (α : Type) := Program Effects α

abbrev Attempt (α : Type) := ExceptT FleetError (Program Effects) α

abbrev Pass (α : Type) := ExceptT StoreError (Program Effects) α

namespace Fleet

def info (text : String) : FleetProgram Unit :=
  Program.log ⟨.info, text⟩

def warn (text : String) : FleetProgram Unit :=
  Program.log ⟨.warn, text⟩

def error (text : String) : FleetProgram Unit :=
  Program.log ⟨.error, text⟩

def askStore (c : StoreCall) : FleetProgram c.Answer :=
  Program.ask (I := Effects) (.store c)

def askPool (c : PoolCall) : FleetProgram c.Answer :=
  Program.ask (I := Effects) (.pool c)

def askAgent (client : Client) (c : Agent.Call) : FleetProgram c.Answer :=
  Program.ask (I := Effects) (.agent client c)

def closeClient (client : Client) : FleetProgram (Except AgentError Unit) :=
  Program.ask (I := Effects) (.close client)

def sendMessage (chat : UserId) (text : String) :
    FleetProgram (Except MessagingError MessageId) :=
  Program.ask (I := Effects) (.message (.send chat text))

def editMessage (chat : UserId) (id : MessageId) (text : String) :
    FleetProgram (Except MessagingError Unit) :=
  Program.ask (I := Effects) (.message (.edit chat id text))

def probeHealth (url : String) : FleetProgram ProbeResult :=
  Program.ask (I := Effects) (.probe url)

def askHealth (c : HealthCall) : FleetProgram c.Answer :=
  Program.ask (I := Effects) (.health c)

def nameSuffix : FleetProgram String :=
  Program.ask (I := Effects) .suffix

def listFrom (c : StoreCall) : Pass c.Result :=
  ExceptT.mk (askStore c)

def fromStore (c : StoreCall) : Attempt c.Result :=
  ExceptT.mk do
    match ← askStore c with
    | .ok result => return .ok result
    | .error e => return .error (.store e)

end Fleet

end PeerFleet
