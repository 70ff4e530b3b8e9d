import PeerFleet.Agent.Channel
import PeerFleet.Simulation.Domain

/-! # The machine of a simulation

Its files are given. Of all names it finds an address for its own only.
-/

namespace PeerFleet.Simulation

def resolve : Host → Except String Unit
  | .domain "localhost" => .ok ()
  | .domain _ =>
    .error "failed to lookup address information: Temporary failure in name resolution"
  | _ => .ok ()

def machine (contents : String → Except String (List UInt8)) : Agent.Surroundings where
  contents := contents
  resolve := resolve
  toAscii? := Domain.toAscii?

end PeerFleet.Simulation
