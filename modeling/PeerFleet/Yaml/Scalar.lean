import PeerFleet.Text.Digits
import PeerFleet.Yaml.Cursor

/-! # Texts of scalars

The styles in which a scalar is written. In plain and quoted scalars a line break between
words stands for a blank and empty lines for line breaks; a block scalar keeps its lines or
folds them.
-/

namespace PeerFleet.Yaml

open Text

inductive Style where
  | plain
  | singleQuoted
  | doubleQuoted
  | literal
  | folded
  deriving DecidableEq, Repr

/-- What stands between two words of a scalar. -/
structure Gap where
  /-- A line break has been seen, so that blanks no longer count. -/
  broken : Bool := false
  blanks : List Char := []
  first : List Char := []
  more : List Char := []

namespace Gap

def fold (g : Gap) : List Char :=
  if g.broken then
    if g.first = ['\n'] then (if g.more.isEmpty then [' '] else g.more) else g.first ++ g.more
  else g.blanks

/-- Reads on through blanks and line breaks, with fuel for every character. A tab may not
stand in the indentation of a plain scalar. -/
def read? (indent : Option Nat) : Nat → Gap → Cursor → Option (Gap × Cursor)
  | 0, g, c => some (g, c)
  | fuel + 1, g, c =>
    match c.peek with
    | none => some (g, c)
    | some ch =>
      if isGap ch then
        if g.broken ∧ ch = '\t' ∧ indent.any (c.column < ·) then none
        else
          let g := if g.broken then g else { g with blanks := g.blanks ++ [ch] }
          read? indent fuel g c.advance
      else if isBreak ch then
        let (text, after) := c.takeBreak
        let g := if g.broken then { g with more := g.more ++ text }
          else { broken := true, blanks := [], first := text, more := [] }
        read? indent fuel g after
      else some (g, c)

end Gap

def isFlowIndicator (ch : Char) : Bool :=
  [',', '[', ']', '\x7b', '\x7d'].contains ch

def endsPlain (flow : Bool) (c : Cursor) : Bool :=
  match c.peek with
  | none => true
  | some ch =>
    isGap ch || isBreak ch || (ch = ':' && c.gapOrEndAt 1) || (flow && isFlowIndicator ch)

def colonInFlow (c : Cursor) : Bool :=
  c.peek = some ':' && (c.peekAt 1).any fun ch => ch = '?' || isFlowIndicator ch

def plainWord? (flow : Bool) : Nat → Cursor → Option (List Char × Cursor)
  | 0, c => some ([], c)
  | fuel + 1, c =>
    match c.peek with
    | none => some ([], c)
    | some ch =>
      if isGap ch || isBreak ch then some ([], c)
      else if flow && colonInFlow c then none
      else if endsPlain flow c then some ([], c)
      else (plainWord? flow fuel c.advance).map fun (word, c) => (ch :: word, c)

/-- A plain scalar: its text, whether a line break follows it, and the place after it.
`gap` stands before the next word; fuel is for every word. -/
def plain? (flow : Bool) (indent : Nat) : Nat → Gap → Cursor → Option (List Char × Bool × Cursor)
  | 0, gap, c => some ([], gap.broken, c)
  | fuel + 1, gap, c =>
    if c.atDocumentMarker || c.peek = some '#' then some ([], gap.broken, c)
    else do
      let (word, after) ← plainWord? flow c.rest.length c
      let (text, gap) := if word.isEmpty then ([], gap) else (gap.fold ++ word, {})
      if after.peek.any fun ch => isGap ch || isBreak ch then
        let (gap, after) ← gap.read? (some indent) after.rest.length after
        if !flow && after.column < indent then some (text, gap.broken, after)
        else do
          let (more, broken, c) ← plain? flow indent fuel gap after
          some (text ++ more, broken, c)
      else some (text, gap.broken, after)

def shortEscape? (ch : Char) : Option Char :=
  [('0', '\x00'), ('a', '\x07'), ('b', '\x08'), ('t', '\t'), ('\t', '\t'), ('n', '\n'),
    ('v', '\x0b'), ('f', '\x0c'), ('r', '\r'), ('e', '\x1b'), (' ', ' '), ('"', '"'), ('/', '/'),
    ('\\', '\\'), ('N', '\u0085'), ('_', '\u00a0'), ('L', '\u2028'), ('P', '\u2029')].lookup ch

def longEscape? (ch : Char) : Option Nat :=
  [('x', 2), ('u', 4), ('U', 8)].lookup ch

def escape? (c : Cursor) : Option (Char × Cursor) := do
  let ch ← c.peek
  match shortEscape? ch with
  | some escaped => some (escaped, c.advance)
  | none =>
    let width ← longEscape? ch
    let ds := (c.rest.drop 1).take width
    let n ← natOfDigits? 16 ds
    if ds.length = width ∧ n.isValidChar then some (Char.ofNat n, c.advanceBy (width + 1))
    else none

/-- The characters of a quoted scalar up to a gap or its closing quote; a line break that
is escaped opens a gap. -/
def quotedWord? (double : Bool) : Nat → Cursor → Option (List Char × Gap × Cursor)
  | 0, c => some ([], {}, c)
  | fuel + 1, c =>
    match c.peek with
    | none => some ([], {}, c)
    | some ch =>
      if isGap ch || isBreak ch then some ([], {}, c)
      else if !double && ch = '\'' && c.peekAt 1 = some '\'' then
        (quotedWord? double fuel (c.advanceBy 2)).map fun (w, r) => ('\'' :: w, r)
      else if ch = (if double then '"' else '\'') then some ([], {}, c)
      else if double && ch = '\\' then
        if c.breakAt 1 then some ([], { broken := true }, c.advance.nextLine)
        else do
          let (escaped, after) ← escape? c.advance
          let (w, r) ← quotedWord? double fuel after
          some (escaped :: w, r)
      else (quotedWord? double fuel c.advance).map fun (w, r) => (ch :: w, r)

def quoted? (double : Bool) : Nat → Cursor → Option (List Char × Cursor)
  | 0, _ => none
  | fuel + 1, c =>
    if c.atDocumentMarker || c.rest.isEmpty then none
    else do
      let (word, gap, after) ← quotedWord? double c.rest.length c
      if after.peek = some (if double then '"' else '\'') then some (word, after.advance)
      else do
        let (gap, after) ← gap.read? none after.rest.length after
        let (more, c) ← quoted? double fuel after
        some (word ++ gap.fold ++ more, c)

/-- What becomes of the line breaks at the end of a block scalar. -/
inductive Chomping where
  | strip
  | clip
  | keep

def chomping? : Char → Option Chomping
  | '+' => some .keep
  | '-' => some .strip
  | _ => none

def blockHeader? (c : Cursor) : Option (Chomping × Option Nat × Cursor) :=
  let indentation? (c : Cursor) : Option (Option Nat × Cursor) :=
    match c.peek with
    | some ch =>
      if ch = '0' then none
      else if isDigit ch then some (some (digitValue ch), c.advance)
      else some (none, c)
    | none => some (none, c)
  match c.peek.bind chomping? with
  | some chomping => do
    let (indent, c) ← indentation? c.advance
    some (chomping, indent, c)
  | none => do
    let (indent, c) ← indentation? c
    match indent.bind fun _ => c.peek.bind chomping? with
    | some chomping => some (chomping, indent, c.advance)
    | none => some (.clip, indent, c)

/-- Empty lines of a block scalar: their breaks, the widest indentation seen, and the
place of the next line's text. An unknown indentation reaches as far as blanks do. -/
def blockBreaks? (indent : Option Nat) : Nat → Nat → Cursor → Option (List Char × Nat × Cursor)
  | 0, widest, c => some ([], widest, c)
  | fuel + 1, widest, c =>
    let blanks := (c.rest.takeWhile (· = ' ')).length
    let wanted := (indent.map (· - c.column)).getD blanks
    let c := c.advanceBy (min blanks wanted)
    let widest := max widest c.column
    if c.peek = some '\t' ∧ indent.all (c.column < ·) then none
    else if c.breakAt 0 then
      let (text, after) := c.takeBreak
      (blockBreaks? indent fuel widest after).map fun (more, widest, c) =>
        (text ++ more, widest, c)
    else some ([], widest, c)

/-- The lines of a block scalar. `lead` is the break before the line, `breaks` the empty
lines after that, and `wasBlank` says that the line before began with a blank. -/
def blockLines? (folded : Bool) (indent : Nat) :
    Nat → List Char → List Char → Bool → Cursor →
      Option (List Char × List Char × List Char × Cursor)
  | 0, lead, breaks, _, c => some ([], lead, breaks, c)
  | fuel + 1, lead, breaks, wasBlank, c =>
    if c.column = indent ∧ !c.rest.isEmpty then do
      let blank := c.peek.any isGap
      let joined := if folded ∧ lead = ['\n'] ∧ !wasBlank ∧ !blank
        then (if breaks.isEmpty then [' '] else []) else lead
      let (line, c) := c.takeRun fun ch => !isBreak ch
      let (lead, c) := c.takeBreak
      let (after, _, c) ← blockBreaks? (some indent) (c.rest.length + 1) 0 c
      let (more, lead, after, c) ← blockLines? folded indent fuel lead after blank c
      some (joined ++ breaks ++ line ++ more, lead, after, c)
    else some ([], lead, breaks, c)

def restOfLine? (c : Cursor) : Option Cursor :=
  let c := c.skipRun isGap
  let c := if c.peek = some '#' then c.skipRun (fun ch => !isBreak ch) else c
  if c.breakOrEndAt 0 then some c.nextLine else none

def block? (folded : Bool) (parent : Option Nat) (c : Cursor) : Option (List Char × Cursor) := do
  let (chomping, increment, c) ← blockHeader? c
  let c ← restOfLine? c
  let given := increment.map fun n => (parent.getD 0) + n
  let (breaks, widest, c) ← blockBreaks? given (c.rest.length + 1) 0 c
  let least := max 1 ((parent.map (· + 1)).getD 0)
  let indent := given.getD (max widest least)
  let (text, lead, breaks, c) ← blockLines? folded indent (c.rest.length + 1) [] breaks false c
  let tail := match chomping with
    | .strip => []
    | .clip => lead
    | .keep => lead ++ breaks
  some (text ++ tail, c)

end PeerFleet.Yaml
