/-! # A place in a text

What is left of a text, with the line and the column of the next character. Lines end
with any of the line breaks of the notation, a carriage return and line feed being one.
-/

namespace PeerFleet.Yaml

def isBreak (c : Char) : Bool :=
  c = '\n' || c = '\r' || c.toNat = 0x85 || c.toNat = 0x2028 || c.toNat = 0x2029

def isGap (c : Char) : Bool :=
  c = ' ' || c = '\t'

def isWordChar (c : Char) : Bool :=
  ('0' ≤ c && c ≤ '9') || ('a' ≤ c && c ≤ 'z') || ('A' ≤ c && c ≤ 'Z') || c = '_' || c = '-'

def isPrintable (c : Char) : Bool :=
  let n := c.toNat
  c = '\t' || c = '\n' || c = '\r' || n = 0x85 || (0x20 ≤ n && n ≤ 0x7E) ||
    (0xA0 ≤ n && n ≤ 0xD7FF) || (0xE000 ≤ n && n ≤ 0xFFFD) || 0x10000 ≤ n

/-- What is left of a text and where it stands. -/
structure Cursor where
  rest : List Char
  index : Nat := 0
  line : Nat := 0
  column : Nat := 0

namespace Cursor

def peek (c : Cursor) : Option Char :=
  c.rest.head?

def peekAt (c : Cursor) (n : Nat) : Option Char :=
  c.rest[n]?

def startsWith (c : Cursor) (word : List Char) : Bool :=
  word.isPrefixOf c.rest

def breakAt (c : Cursor) (n : Nat) : Bool :=
  match c.peekAt n with
  | some ch => isBreak ch
  | none => false

def breakOrEndAt (c : Cursor) (n : Nat) : Bool :=
  match c.peekAt n with
  | some ch => isBreak ch
  | none => true

def gapOrEndAt (c : Cursor) (n : Nat) : Bool :=
  match c.peekAt n with
  | some ch => isGap ch || isBreak ch
  | none => true

def advance (c : Cursor) : Cursor :=
  { c with rest := c.rest.tail, index := c.index + 1, column := c.column + 1 }

def advanceBy (c : Cursor) : Nat → Cursor
  | 0 => c
  | n + 1 => c.advance.advanceBy n

def takeBreak (c : Cursor) : List Char × Cursor :=
  match c.rest with
  | '\r' :: '\n' :: rest => (['\n'], ⟨rest, c.index + 2, c.line + 1, 0⟩)
  | ch :: rest =>
    let text := if ch.toNat = 0x2028 ∨ ch.toNat = 0x2029 then [ch] else ['\n']
    (text, ⟨rest, c.index + 1, c.line + 1, 0⟩)
  | [] => ([], c)

def nextLine (c : Cursor) : Cursor :=
  c.takeBreak.2

def takeRun (c : Cursor) (p : Char → Bool) : List Char × Cursor :=
  let run := c.rest.takeWhile p
  let n := run.length
  (run, { c with rest := c.rest.drop n, index := c.index + n, column := c.column + n })

def skipRun (c : Cursor) (p : Char → Bool) : Cursor :=
  (c.takeRun p).2

def atDocumentMarker (c : Cursor) : Bool :=
  c.column = 0 && (c.startsWith ['-', '-', '-'] || c.startsWith ['.', '.', '.']) && c.gapOrEndAt 3

end Cursor

end PeerFleet.Yaml
