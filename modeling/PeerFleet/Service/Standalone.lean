import PeerFleet.Fleet.Effect
import PeerFleet.Messaging.ChatLog

/-! # A service without a network

The store, the pool and the health records of one process. Whatever would leave the
process fails, as if nothing could be reached, and messages go to the log.
-/

namespace PeerFleet

structure Standalone where
  store : Store := {}
  pool : Pool := {}
  health : HealthRecords := .empty
  sent : Nat := 0
  named : Nat := 0
  log : List LogLine := []
  deriving Inhabited

namespace Standalone

def write (line : LogLine) (s : Standalone) : Standalone :=
  { s with log := s.log ++ [line] }

def unreachable : String := "network is unreachable"

def callMessage (s : Standalone) : (c : MessageCall) → c.Answer × Standalone
  | .send chat text =>
    let id := ChatLog.nextId s.sent
    (.ok id, { s with sent := s.sent + 1 }.write (ChatLog.sendLine chat id text))
  | .edit chat id text => (.ok (), s.write (ChatLog.editLine chat id text))

def suffix (s : Standalone) : String :=
  Text.padded 8 (s.named % 100000000)

def handle : (e : Effect) → Standalone → e.Answer × Standalone
  | .store c, s =>
    let (answer, store) := s.store.perform c
    (answer, { s with store })
  | .pool c, s =>
    let (answer, pool) := s.pool.perform (.error (.config unreachable)) c
    (answer, { s with pool })
  | .agent _ c, s => (.error (.transport c.operation unreachable), s)
  | .close _, s => (.ok (), s)
  | .message c, s => s.callMessage c
  | .probe _, s => (ProbeResult.ofReply 0 none, s)
  | .health c, s =>
    let (answer, health) := HealthRecords.perform s.health c
    (answer, { s with health })
  | .suffix, s => (s.suffix, { s with named := s.named + 1 })

/-- Runs a program of the fleet by itself. -/
def run {α : Type} (s : Standalone) (p : FleetProgram α) : α × Standalone :=
  Program.run handle write p s

end Standalone

end PeerFleet
