import PeerFleet.Text.Split

/-! # The command line

Options stand at two levels: before the subcommand and after it. Two options are known at
both; what is given after the subcommand wins. A value is taken up when the next option
begins, so that of several mistakes the one is reported that is met first in this order.
-/

namespace PeerFleet.CommandLine

/-- Why a command line does not name a command to run; asking for help is one reason. -/
inductive Refusal where
  | invalidSubcommand
  | unknownArgument
  | invalidValue
  | argumentConflict
  | tooManyValues
  | missingSubcommand
  | help
  | version
  | nothingGiven
  deriving DecidableEq, Repr

namespace Refusal

def name : Refusal → String
  | .invalidSubcommand => "InvalidSubcommand"
  | .unknownArgument => "UnknownArgument"
  | .invalidValue => "InvalidValue"
  | .argumentConflict => "ArgumentConflict"
  | .tooManyValues => "TooManyValues"
  | .missingSubcommand => "MissingSubcommand"
  | .help => "DisplayHelp"
  | .version => "DisplayVersion"
  | .nothingGiven => "DisplayHelpOnMissingArgumentOrSubcommand"

end Refusal

/-- Where on the command line an option stands. -/
inductive Level where
  | top
  | serve
  | validate
  deriving DecidableEq, Repr

/-- The options with a value. -/
inductive ValueOption where
  | config
  | envFile
  | statusAddr
  deriving DecidableEq, Repr

/-- The options without a value. -/
inductive Flag where
  | verbose
  | help
  | version
  deriving DecidableEq, Repr

namespace ValueOption

def long : ValueOption → String
  | .config => "config"
  | .envFile => "env-file"
  | .statusAddr => "status-addr"

def known (o : ValueOption) (l : Level) : Bool :=
  o = .config || l = .serve

def accepts (o : ValueOption) (value : String) : Bool :=
  o = .statusAddr || value != ""

def ofLong? (l : Level) (name : String) : Option ValueOption :=
  [config, envFile, statusAddr].find? fun o => o.known l && o.long = name

end ValueOption

namespace Flag

def long : Flag → String
  | .verbose => "verbose"
  | .help => "help"
  | .version => "version"

def short : Flag → Char
  | .verbose => 'v'
  | .help => 'h'
  | .version => 'V'

def known (f : Flag) (l : Level) : Bool :=
  f != .version || l = .top

def all (l : Level) : List Flag :=
  [verbose, help, version].filter (·.known l)

def ofLong? (l : Level) (name : String) : Option Flag :=
  (all l).find? (·.long = name)

def ofShort? (l : Level) (c : Char) : Option Flag :=
  (all l).find? (·.short = c)

end Flag

/-- What has been read at a level. -/
structure Seen where
  verbose : Nat := 0
  values : List (ValueOption × String) := []
  pending : Option (ValueOption × Option String) := none
  deriving DecidableEq, Repr

namespace Seen

def value? (s : Seen) (o : ValueOption) : Option String :=
  s.values.lookup o

def isGiven (s : Seen) : Bool :=
  s.verbose > 0 || !s.values.isEmpty

def awaits (s : Seen) : Bool :=
  match s.pending with
  | some (_, none) => true
  | _ => false

def take (s : Seen) (o : ValueOption) (value : String) : Except Refusal Seen :=
  if (s.value? o).isSome then .error .argumentConflict
  else if o.accepts value then .ok { s with values := s.values ++ [(o, value)] }
  else .error .invalidValue

def resolve (s : Seen) : Except Refusal Seen :=
  match s.pending with
  | none => .ok s
  | some (_, none) => .error .invalidValue
  | some (o, some value) => { s with pending := none }.take o value

def flag (s : Seen) (f : Flag) : Except Refusal Seen := do
  let s ← s.resolve
  match f with
  | .verbose => return { s with verbose := min 255 (s.verbose + 1) }
  | .help => throw .help
  | .version => throw .version

def long (l : Level) (s : Seen) (name : String) (attached : Option String) :
    Except Refusal Seen :=
  match ValueOption.ofLong? l name, attached with
  | some o, some value => do (← s.resolve).take o value
  | some o, none => do return { (← s.resolve) with pending := some (o, none) }
  | none, _ =>
    match Flag.ofLong? l name, attached with
    | some _, some _ => .error .tooManyValues
    | some f, none => s.flag f
    | none, _ => .error .unknownArgument

def shorts (l : Level) (s : Seen) : List Char → Except Refusal Seen
  | [] => .ok s
  | c :: cs =>
    match Flag.ofShort? l c with
    | some f => do shorts l (← s.flag f) cs
    | none => .error .unknownArgument

def splitValue (cs : List Char) : String × Option String :=
  match Text.splitFirst '=' cs with
  | some (name, value) => (String.ofList name, some (String.ofList value))
  | none => (String.ofList cs, none)

end Seen

/-- What follows the options of a level. -/
inductive Rest where
  | nothing
  | subcommand (name : String) (words : List String)

def subcommandNames : List String :=
  ["serve", "validate", "help"]

def isSubcommand (l : Level) (word : String) : Bool :=
  l = .top && subcommandNames.contains word

def strayWord (l : Level) : Refusal :=
  if l = .top then .invalidSubcommand else .unknownArgument

def trailingWord (l : Level) (word : String) : Refusal :=
  if isSubcommand l word then .unknownArgument else strayWord l

def scan (l : Level) (s : Seen) : List String → Except Refusal (Seen × Rest)
  | [] => .ok (s, .nothing)
  | word :: words =>
    if !s.awaits && isSubcommand l word then .ok (s, .subcommand word words)
    else
      match word.toList with
      | ['-', '-'] =>
        match words with
        | [] => .ok (s, .nothing)
        | next :: _ => .error (trailingWord l next)
      | '-' :: '-' :: cs =>
        let (name, attached) := Seen.splitValue cs
        match s.long l name attached with
        | .ok s => scan l s words
        | .error e => .error e
      | '-' :: c :: cs =>
        match s.shorts l (c :: cs) with
        | .ok s => scan l s words
        | .error e => .error e
      | _ =>
        match s.pending with
        | some (o, none) => scan l { s with pending := some (o, some word) } words
        | _ => .error (strayWord l)

inductive Command where
  | validate
  | serve (envFile statusAddr : Option String)
  deriving DecidableEq, Repr

/-- A command line that names a command. -/
structure Invocation where
  verbose : Nat
  config : Option String
  command : Command
  deriving DecidableEq, Repr

def helpFor : List String → Refusal
  | [] => .help
  | word :: words =>
    if subcommandNames.contains word ∧ words.isEmpty then .help else .invalidSubcommand

def readSubcommand (l : Level) (command : Seen → Command) (words : List String) :
    Except Refusal (Seen × Command) := do
  let (s, _) ← scan l {} words
  let s ← s.resolve
  return (s, command s)

def subcommand (name : String) (words : List String) : Except Refusal (Seen × Command) :=
  match name with
  | "serve" =>
    readSubcommand .serve (fun s => .serve (s.value? .envFile) (s.value? .statusAddr)) words
  | "validate" => readSubcommand .validate (fun _ => .validate) words
  | _ => .error (helpFor words)

def withoutSubcommand (s : Seen) : Refusal :=
  if s.isGiven then .missingSubcommand else .nothingGiven

def parse (words : List String) : Except Refusal Invocation := do
  match ← scan .top {} words with
  | (s, .nothing) => throw (withoutSubcommand (← s.resolve))
  | (s, .subcommand name words) =>
    let (inner, command) ← subcommand name words
    let s ← s.resolve
    return {
      verbose := if inner.verbose > 0 then inner.verbose else s.verbose
      config := inner.value? .config <|> s.value? .config
      command }

end PeerFleet.CommandLine
