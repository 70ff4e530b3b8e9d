/-! # Log lines -/

namespace PeerFleet

inductive LogLevel where
  | info
  | warn
  | error
  deriving DecidableEq, Repr

namespace LogLevel

def name : LogLevel → String
  | .info => "INFO"
  | .warn => "WARN"
  | .error => "ERROR"

end LogLevel

structure LogLine where
  level : LogLevel
  text : String
  deriving DecidableEq, Repr

namespace LogLine

def render (l : LogLine) : String :=
  l.level.name ++ " " ++ l.text

end LogLine

end PeerFleet
