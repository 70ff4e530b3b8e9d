import PeerFleet.Command.EnvFile
import PeerFleet.Command.Line
import PeerFleet.Config.Load
import PeerFleet.Config.Validation
import PeerFleet.Report.Summary
import PeerFleet.Service.Serve

/-! # The program

What a command line comes to: a text, a check of the configuration, or a run of the
service. The process around it reads files, keeps the environment and prints.
-/

namespace PeerFleet.Command

open CommandLine

/-- What the program asks of the process it runs in. -/
inductive ProcessCall where
  | contents (path : String)
  | variable (name : String)
  | setVariable (name value : String)
  | home
  | print (text : String)
  | complain (text : String)
  /-- Sets up the store, the workers and the chats of a service. -/
  | setUp (config : FleetConfig)
  | serving (c : ServeCall)

def ProcessCall.Answer : ProcessCall → Type
  | .contents _ => Except String (List UInt8)
  | .variable _ | .home => Option String
  | .setVariable _ _ | .print _ | .complain _ | .setUp _ => Unit
  | .serving c => c.Answer

def Process : Interface := ⟨ProcessCall, ProcessCall.Answer⟩

abbrev ExitCode := UInt32

abbrev Action (α : Type) := ExceptT String (Program Process) α

def ask (c : ProcessCall) : Program Process c.Answer :=
  Program.ask (I := Process) c

def onProcess {α : Type} (p : Program Serving α) : Program Process α :=
  p.interpret fun c => ask (.serving c)

def version : String := "wgfleet 0.1.0"

def help : String :=
  "Provision and reconcile WireGuard peers across a node fleet\n\n" ++
  "Usage: wgfleet [OPTIONS] <COMMAND>\n\n" ++
  "Commands:\n" ++
  "  serve     Run the workers until interrupted\n" ++
  "  validate  Validate the config file\n" ++
  "  help      Print this message or the help of the given subcommand(s)\n\n" ++
  "Options:\n" ++
  "  -v, --verbose...       Enable verbose logging output (-v, -vv, -vvv)\n" ++
  "      --config <CONFIG>  Path to config file (default: ~/.wgfleet/config.yaml)\n" ++
  "  -h, --help             Print help\n" ++
  "  -V, --version          Print version\n"

def describe : Refusal → String
  | .invalidSubcommand => "error: unrecognized subcommand\n"
  | .unknownArgument => "error: unexpected argument found\n"
  | .invalidValue => "error: a value is required\n"
  | .argumentConflict => "error: an argument cannot be used multiple times\n"
  | .tooManyValues => "error: unexpected value found\n"
  | .missingSubcommand => "error: 'wgfleet' requires a subcommand but one was not provided\n"
  | .help | .nothingGiven => help
  | .version => version ++ "\n"

def refuse (r : Refusal) : Program Process ExitCode := do
  match r with
  | .help | .version =>
    ask (.print (describe r))
    return 0
  | _ =>
    ask (.complain (describe r))
    return 2

def loadConfig (path : Option String) : Action FleetConfig := do
  let home : Option String ← ask .home
  let token : Option String ← ask (.variable FleetConfig.tokenVariable)
  let path := path.getD (FleetConfig.defaultPath home)
  let file : Except String (List UInt8) ← ask (.contents path)
  match FleetConfig.load home token file with
  | .ok c => return c
  | .error e => throw s!"Failed to load config {path}: {e.message}"

def setVariables : List (String × String) → Program Process Unit
  | [] => return ()
  | (name, value) :: rest => do
    let known : Option String ← ask (.variable name)
    if known.isNone then ask (.setVariable name value)
    setVariables rest

def variablesOf : List String → Program Process (List (String × String))
  | [] => return []
  | name :: names => do
    let value : Option String ← ask (.variable name)
    let rest ← variablesOf names
    return (value.map fun v => (name, v)).toList ++ rest

def loadEnvFile (path : String) : Action Unit := do
  let file : Except String (List UInt8) ← ask (.contents path)
  match file with
  | .error cause => throw s!"Failed to load env file {path}: {cause}"
  | .ok octets =>
    match Utf8.decode? octets with
    | none => throw s!"Failed to load env file {path}: not valid UTF-8"
    | some text =>
      let known ← variablesOf (EnvFile.mentions text)
      match EnvFile.parse (fun name => known.lookup name) text with
      | none => throw s!"Failed to load env file {path}: malformed line"
      | some entries => setVariables entries

def printSummary (c : FleetConfig) (v : Verdict) : Program Process Unit :=
  ask (.print (Report.summary c v ++ "\n"))

def validate (config : Option String) : Action Unit := do
  let c ← loadConfig config
  let verdict := c.validate
  printSummary c verdict
  if !verdict.passed then throw "Configuration is invalid"

def warnAll : List Finding → Program Process Unit
  | [] => return ()
  | f :: fs => do
    if f.severity = .warning then
      Program.log ⟨.warn, s!"{f.code}: {f.message}"⟩
    warnAll fs

def serve (config envFile statusAddr : Option String) : Action Unit := do
  match envFile with
  | some path => loadEnvFile path
  | none => pure ()
  let c ← loadConfig config
  let verdict := c.validate
  if !verdict.passed then
    printSummary c verdict
    throw "Refusing to start with an invalid configuration"
  warnAll verdict.findings
  ask (.setUp c)
  ExceptT.mk (onProcess (Serve.run c statusAddr))

def perform (i : Invocation) : Action Unit :=
  match i.command with
  | .validate => validate i.config
  | .serve envFile statusAddr => serve i.config envFile statusAddr

def verbosity (words : List String) : Nat :=
  match CommandLine.parse words with
  | .ok i => i.verbose
  | .error _ => 0

def run (words : List String) : Program Process ExitCode := do
  match CommandLine.parse words with
  | .error r => refuse r
  | .ok i =>
    match ← (perform i).run with
    | .ok () => return 0
    | .error reason =>
      Program.log ⟨.error, reason⟩
      return 1

end PeerFleet.Command
