import PeerFleet.Text.Blank
import PeerFleet.Text.Digits

/-! # Files of environment variables

A file defines one variable on a line: a name, an equals sign, and a value with quotes,
escapes and references to other variables. A quote may run over several lines. One
malformed line makes the whole file unusable.
-/

namespace PeerFleet.EnvFile

open Text

/-- Where in a logical line a character stands. -/
inductive Place where
  | plain
  | blank
  | escape
  | single
  | singleEscape
  | double
  | doubleEscape
  | comment
  deriving DecidableEq, Repr

def Place.open? : Char → Option Place
  | '\\' => some .escape
  | '"' => some .double
  | '\'' => some .single
  | _ => none

def Place.next : Place → Char → Place
  | .blank, c => if c = '#' then .comment else (open? c).getD .plain
  | .plain, c =>
    if isBlank c ∧ c ≠ '\n' ∧ c ≠ '\r' then .blank else (open? c).getD .plain
  | .escape, _ => .plain
  | .double, c => if c = '\\' then .doubleEscape else if c = '"' then .plain else .double
  | .doubleEscape, _ => .double
  | .single, c => if c = '\\' then .singleEscape else if c = '\'' then .plain else .single
  | .singleEscape, _ => .single
  | .comment, _ => .comment

def physicalLines : List Char → List (List Char)
  | [] => []
  | c :: cs =>
    if c = '\n' then [c] :: physicalLines cs
    else
      match physicalLines cs with
      | [] => [[c]]
      | line :: lines => (c :: line) :: lines

def uncommented (p : Place) : List Char → List Char × Place
  | [] => ([], p)
  | c :: cs =>
    match p.next c with
    | .comment => ([], .comment)
    | q =>
      let (rest, last) := uncommented q cs
      (c :: rest, last)

def withoutEnd (cs : List Char) : List Char :=
  match cs.reverse with
  | '\n' :: '\r' :: rest => rest.reverse
  | '\n' :: rest => rest.reverse
  | _ => cs

def logicalLines (before : List Char) (p : Place) : List (List Char) → Option (List (List Char))
  | [] => if p = .plain then some [] else none
  | line :: lines =>
    if (trimStart (before ++ line)).head? = some '#' then
      (logicalLines [] .plain lines).map ([] :: ·)
    else
      match uncommented p line with
      | (kept, .comment) => (logicalLines [] .plain lines).map ((before ++ kept) :: ·)
      | (_, .plain) => (logicalLines [] .plain lines).map (withoutEnd (before ++ line) :: ·)
      | (_, q) => logicalLines (before ++ line) q lines

abbrev Lookup := String → String

/-- How a value is being read. -/
inductive Reading where
  | plain
  | ended
  | single
  | double
  deriving DecidableEq, Repr

/-- A reference that is being read. -/
inductive Reference where
  | bare (name : List Char)
  | braced (name : List Char)

structure ValueState where
  output : List Char := []
  reading : Reading := .plain
  escaped : Bool := false
  reference : Option Reference := none

namespace ValueState

def put (s : ValueState) (c : Char) : ValueState :=
  { s with output := s.output ++ [c] }

def substitute (s : ValueState) (lookup : Lookup) (name : List Char) : ValueState :=
  { s with output := s.output ++ (lookup (String.ofList name)).toList, reference := none }

def isNameChar (c : Char) : Bool :=
  isDigit c || c.isAlpha

def stepReference (s : ValueState) (lookup : Lookup) (r : Reference) (c : Char) : ValueState :=
  match r with
  | .bare name =>
    if isNameChar c then { s with reference := some (.bare (name ++ [c])) }
    else if c = '\x7b' ∧ name = [] then { s with reference := some (.braced []) }
    else
      let s := s.substitute lookup name
      if c = '$' then { s with reference := some (.bare []) } else s.put c
  | .braced name =>
    if c = '\x7d' then s.substitute lookup name
    else { s with reference := some (.braced (name ++ [c])) }

def unescape? : Char → Option Char
  | 'n' => some '\n'
  | c => if ['\\', '\'', '"', '$', ' '].contains c then some c else none

def step (lookup : Lookup) (s : ValueState) (c : Char) : Option ValueState :=
  if s.escaped then do
    return { s.put (← unescape? c) with escaped := false }
  else
    match s.reading, s.reference with
    | .ended, _ => if c = ' ' ∨ c = '\t' then some s else none
    | .single, _ => some (if c = '\'' then { s with reading := .plain } else s.put c)
    | _, some r => some (s.stepReference lookup r c)
    | reading, none =>
      if c = '$' then some { s with reference := some (.bare []) }
      else if c = '\\' then some { s with escaped := true }
      else if reading = .double then
        some (if c = '"' then { s with reading := .plain } else s.put c)
      else if c = '\'' then some { s with reading := .single }
      else if c = '"' then some { s with reading := .double }
      else if c = ' ' ∨ c = '\t' then some { s with reading := .ended }
      else some (s.put c)

def finish (lookup : Lookup) (s : ValueState) : Option String :=
  if s.reading = .single ∨ s.reading = .double then none
  else
    match s.reference with
    | some (.braced _) => none
    | some (.bare name) => some (String.ofList (s.substitute lookup name).output)
    | none => some (String.ofList s.output)

def run (lookup : Lookup) (s : ValueState) : List Char → Option String
  | [] => s.finish lookup
  | c :: cs =>
    if s.reading = .ended ∧ c = '#' then s.finish lookup
    else
      match s.step lookup c with
      | some s => run lookup s cs
      | none => none

end ValueState

def isKeyStart (c : Char) : Bool :=
  c.isAlpha || c = '_'

def isKeyChar (c : Char) : Bool :=
  c.isAlpha || isDigit c || c = '_' || c = '.'

def key? (cs : List Char) : Option (String × List Char) :=
  if cs.head?.any isKeyStart then
    some (String.ofList (cs.takeWhile isKeyChar), trimStart (cs.dropWhile isKeyChar))
  else none

def equals? : List Char → Option (List Char)
  | '=' :: cs => some (trimStart cs)
  | _ => none

/-- The name that a line defines and the text of its value. The word `export` may come
first, unless it is the name itself. -/
def definition? (cs : List Char) : Option (String × List Char) := do
  let (key, rest) ← key? cs
  match equals? rest with
  | some value => return (key, value)
  | none =>
    if key = "export" then
      let (key, rest) ← key? rest
      return (key, ← equals? rest)
    else none

def line? (lookup : Lookup) (line : List Char) : Option (Option (String × String)) := do
  let cs := trimStart (trimEnd line)
  if cs.isEmpty ∨ cs.head? = some '#' then return none
  let (key, value) ← definition? cs
  if value.isEmpty ∨ value.head? = some '#' then return some (key, "")
  return some (key, ← ValueState.run lookup {} value)

/-- What a name stands for on a line: a variable that is set wins over earlier lines, and
the first line that defines it over the others. -/
def lookupIn (defined : List (String × String)) (environment : String → Option String) :
    Lookup := fun name =>
  ((environment name) <|> defined.lookup name).getD ""

def definitions (environment : String → Option String) (defined : List (String × String)) :
    List (List Char) → Option (List (String × String))
  | [] => some defined
  | line :: lines =>
    match line? (lookupIn defined environment) line with
    | none => none
    | some none => definitions environment defined lines
    | some (some entry) => definitions environment (defined ++ [entry]) lines

def mentions : List Char → List String
  | [] => []
  | c :: cs =>
    if c = '$' then
      let bare := cs.takeWhile ValueState.isNameChar
      let braced := (cs.drop 1).takeWhile (· != '\x7d')
      String.ofList bare :: String.ofList braced :: mentions cs
    else mentions cs

def withoutMark : List Char → List Char
  | c :: cs => if c.toNat = 0xFEFF then cs else c :: cs
  | [] => []

def parse (environment : String → Option String) (text : List Char) :
    Option (List (String × String)) := do
  let lines ← logicalLines [] .plain (physicalLines (withoutMark text))
  definitions environment [] lines

end PeerFleet.EnvFile
