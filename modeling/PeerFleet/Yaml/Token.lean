import PeerFleet.Yaml.Tag

/-! # Tokens

A text as a list of tokens. Indentation opens and closes collections, and a text before a
colon on one line becomes a key: its token is put in front of it when the colon is found.
-/

namespace PeerFleet.Yaml

inductive Token where
  | directive (d : Directive)
  | documentStart
  | documentEnd
  | blockSequence
  | blockMapping
  | blockEnd
  | flowSequence
  | flowSequenceEnd
  | flowMapping
  | flowMappingEnd
  | blockEntry
  | flowEntry
  | key
  | value
  | alias (name : String)
  | anchor (name : String)
  | tag (t : WrittenTag)
  | scalar (style : Style) (text : String)
  deriving DecidableEq, Repr

/-- A place where a key may have begun. -/
structure KeyPlace where
  /-- A colon must follow: the text stands where only keys do. -/
  required : Bool
  position : Nat
  index : Nat
  line : Nat
  column : Nat

/-- What has been read of a text. -/
structure Scan where
  cursor : Cursor
  tokens : Array Token := #[]
  /-- The columns of the open block collections, the innermost first. -/
  indents : List Nat := []
  /-- The place of a possible key on each level of flow, the innermost first. -/
  keys : List (Option KeyPlace) := [none]
  keyAllowed : Bool := true

namespace Scan

def inFlow (s : Scan) : Bool :=
  1 < s.keys.length

def emit (s : Scan) (t : Token) : Scan :=
  { s with tokens := s.tokens.push t }

def moveTo (s : Scan) (c : Cursor) : Scan :=
  { s with cursor := c }

def insertAt (s : Scan) (position : Nat) (ts : List Token) : Scan :=
  { s with tokens := s.tokens.extract 0 position ++ ts.toArray ++ s.tokens.extract position s.tokens.size }

def deeper (s : Scan) (column : Nat) : Bool :=
  s.indents.head?.all (· < column)

def closeTo (column : Option Nat) : List Nat → List Nat × List Token
  | [] => ([], [])
  | i :: is =>
    if column.all (· < i) then
      let (is, ts) := closeTo column is
      (is, .blockEnd :: ts)
    else (i :: is, [])

def unroll (s : Scan) (column : Option Nat) : Scan :=
  if s.inFlow then s
  else
    let (indents, ends) := closeTo column s.indents
    { s with indents, tokens := s.tokens ++ ends.toArray }

def roll (s : Scan) (column position : Nat) (t : Token) : Scan :=
  if !s.inFlow && s.deeper column then
    { s.insertAt position [t] with indents := column :: s.indents }
  else s

def dropKey? (s : Scan) : Option Scan :=
  match s.keys with
  | some k :: ks => if k.required then none else some { s with keys := none :: ks }
  | _ => some s

def saveKey? (s : Scan) : Option Scan :=
  if s.keyAllowed then do
    let s ← s.dropKey?
    let c := s.cursor
    let required := !s.inFlow && s.indents.head? = some c.column
    let place := ⟨required, s.tokens.size, c.index, c.line, c.column⟩
    some { s with keys := some place :: s.keys.tail }
  else some s

def stale (c : Cursor) (k : KeyPlace) : Bool :=
  k.line < c.line || k.index + 1024 < c.index

def dropStale? (s : Scan) : Option Scan := do
  let keys ← s.keys.mapM fun k =>
    match k with
    | some k => if stale s.cursor k then (if k.required then none else some none) else some (some k)
    | none => some none
  some { s with keys }

/-- The place of the next token: blanks, comments and line breaks are passed over. A new
line allows a key outside of flow collections. -/
def skipGaps : Nat → Scan → Scan
  | 0, s => s
  | fuel + 1, s =>
    let c := s.cursor
    let c := if c.index = 0 ∧ c.peek = some '\uFEFF' then c.advance else c
    let c := c.skipRun fun ch => ch = ' ' || (ch = '\t' && (s.inFlow || !s.keyAllowed))
    let c := if c.peek = some '#' then c.skipRun (fun ch => !isBreak ch) else c
    if c.breakAt 0 then
      skipGaps fuel { s with cursor := c.nextLine, keyAllowed := s.keyAllowed || !s.inFlow }
    else s.moveTo c

def atMargin? (s : Scan) : Option Scan := do
  let s ← (s.unroll none).dropKey?
  some { s with keyAllowed := false }

def documentMarker? (s : Scan) (t : Token) : Option Scan := do
  let s ← s.atMargin?
  some ((s.emit t).moveTo (s.cursor.advanceBy 3))

def openFlow? (s : Scan) (t : Token) : Option Scan := do
  let s ← s.saveKey?
  some { s.emit t with keys := none :: s.keys, keyAllowed := true, cursor := s.cursor.advance }

def closeFlow? (s : Scan) (t : Token) : Option Scan := do
  let s ← s.dropKey?
  let keys := if s.inFlow then s.keys.tail else s.keys
  some { s.emit t with keys, keyAllowed := false, cursor := s.cursor.advance }

def flowEntry? (s : Scan) : Option Scan := do
  let s ← s.dropKey?
  some { s.emit .flowEntry with keyAllowed := true, cursor := s.cursor.advance }

def openBlock? (s : Scan) (t : Token) : Option Scan :=
  if s.inFlow then some s
  else if s.keyAllowed then some (s.roll s.cursor.column s.tokens.size t)
  else none

def blockEntry? (s : Scan) : Option Scan := do
  let s ← s.openBlock? .blockSequence
  let s ← s.dropKey?
  some { s.emit .blockEntry with keyAllowed := true, cursor := s.cursor.advance }

def key? (s : Scan) : Option Scan := do
  let s ← s.openBlock? .blockMapping
  let s ← s.dropKey?
  some { s.emit .key with keyAllowed := !s.inFlow, cursor := s.cursor.advance }

def value? (s : Scan) : Option Scan := do
  let s ← match s.keys with
    | some k :: ks =>
      let s := (s.insertAt k.position [.key]).roll k.column k.position .blockMapping
      some { s with keys := none :: ks, keyAllowed := false }
    | _ => do
      let s ← s.openBlock? .blockMapping
      some { s with keyAllowed := !s.inFlow }
  some ((s.emit .value).moveTo s.cursor.advance)

def content? (s : Scan) (read : Cursor → Option (Token × Cursor)) : Option Scan := do
  let s ← s.saveKey?
  let (t, c) ← read s.cursor
  some { s.emit t with keyAllowed := false, cursor := c }

def name? (make : String → Token) (c : Cursor) : Option (Token × Cursor) :=
  let (name, c) := c.advance.takeRun isWordChar
  let ended := c.gapOrEndAt 0 || c.peek.any fun ch => "?:,]\x7d%@\x60".toList.contains ch
  if name.isEmpty || !ended then none else some (make (String.ofList name), c)

def quotedToken? (double : Bool) (c : Cursor) : Option (Token × Cursor) := do
  let (text, c) ← quoted? double (c.rest.length + 1) c.advance
  some (.scalar (if double then .doubleQuoted else .singleQuoted) (String.ofList text), c)

def blockScalar? (s : Scan) (folded : Bool) : Option Scan := do
  let s ← s.dropKey?
  let (text, c) ← block? folded s.indents.head? s.cursor.advance
  let style := if folded then Style.folded else .literal
  some { s.emit (.scalar style (String.ofList text)) with keyAllowed := true, cursor := c }

def plainScalar? (s : Scan) : Option Scan := do
  let s ← s.saveKey?
  let indent := (s.indents.head?.map (· + 1)).getD 0
  let c := s.cursor
  let (text, broken, c) ← plain? s.inFlow indent (c.rest.length + 1) {} c
  some { s.emit (.scalar .plain (String.ofList text)) with keyAllowed := broken, cursor := c }

def isIndicator (ch : Char) : Bool :=
  "-?:,[]\x7b\x7d#&*!|>'\"%@\x60".toList.contains ch

def startsPlain (s : Scan) (ch : Char) : Bool :=
  let c := s.cursor
  !(isGap ch || isBreak ch || isIndicator ch) ||
    (ch = '-' && !(c.peekAt 1).any isGap) ||
    (!s.inFlow && (ch = '?' || ch = ':') && !c.gapOrEndAt 1)

def token? (s : Scan) (ch : Char) : Option Scan :=
  let c := s.cursor
  if c.column = 0 ∧ ch = '%' then do
    let s ← s.atMargin?
    let (d, c) ← directive? c.advance
    some ((s.emit (.directive d)).moveTo c)
  else if c.atDocumentMarker then
    s.documentMarker? (if ch = '-' then .documentStart else .documentEnd)
  else if ch = '[' then s.openFlow? .flowSequence
  else if ch = '\x7b' then s.openFlow? .flowMapping
  else if ch = ']' then s.closeFlow? .flowSequenceEnd
  else if ch = '\x7d' then s.closeFlow? .flowMappingEnd
  else if ch = ',' then s.flowEntry?
  else if ch = '-' ∧ c.gapOrEndAt 1 then s.blockEntry?
  else if ch = '?' ∧ (s.inFlow ∨ c.gapOrEndAt 1) then s.key?
  else if ch = ':' ∧ (s.inFlow ∨ c.gapOrEndAt 1) then s.value?
  else if ch = '*' then s.content? (name? .alias)
  else if ch = '&' then s.content? (name? .anchor)
  else if ch = '!' then s.content? fun c => (tag? s.inFlow c).map fun (t, c) => (.tag t, c)
  else if ch = '|' ∧ !s.inFlow then s.blockScalar? false
  else if ch = '>' ∧ !s.inFlow then s.blockScalar? true
  else if ch = '\'' then s.content? (quotedToken? false)
  else if ch = '"' then s.content? (quotedToken? true)
  else if s.startsPlain ch then s.plainScalar?
  else none

def run? : Nat → Scan → Option (List Token)
  | 0, _ => none
  | fuel + 1, s => do
    let s := skipGaps (s.cursor.rest.length + 1) s
    let s ← s.dropStale?
    let s := s.unroll (some s.cursor.column)
    match s.cursor.peek with
    | none => do
      let s ← (s.unroll none).dropKey?
      some s.tokens.toList
    | some ch => run? fuel (← s.token? ch)

end Scan

def tokens? (text : String) : Option (List Token) :=
  let cs := text.toList
  if cs.all isPrintable then Scan.run? (cs.length + 2) { cursor := ⟨cs, 0, 0, 0⟩ } else none

end PeerFleet.Yaml
