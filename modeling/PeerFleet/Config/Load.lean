import PeerFleet.Config.Basic
import PeerFleet.Text.Utf8
import PeerFleet.Yaml.Datum

/-! # Loading the configuration

The file is text in UTF-8. The home directory replaces tildes in paths, and the
environment may override the token.
-/

namespace PeerFleet

inductive ConfigError where
  | read (cause : String)
  | parse (cause : String)
  deriving DecidableEq, Repr

namespace ConfigError

def message : ConfigError → String
  | .read cause => s!"Failed to read file: {cause}"
  | .parse cause => s!"Failed to parse config: {cause}"

end ConfigError

namespace FleetConfig

def tokenVariable : String := "WGFLEET_TELEGRAM_TOKEN"

def defaultPath (home : Option String) : String :=
  home.getD "." ++ "/.wgfleet/config.yaml"

def parse (text : String) : Except ConfigError FleetConfig :=
  match (Yaml.parse text).bind FleetConfig.read? with
  | some c => .ok c
  | none => .error (.parse "not a configuration")

def load (home token : Option String) (file : Except String (List UInt8)) :
    Except ConfigError FleetConfig := do
  match file with
  | .error cause => throw (.read cause)
  | .ok octets =>
    match Utf8.decode? octets with
    | none => throw (.read "stream did not contain valid UTF-8")
    | some text =>
      let c ← parse (String.ofList text)
      let c := match home with
        | some home => c.expandPaths home
        | none => c
      return c.overrideToken token

end FleetConfig

end PeerFleet
