import PeerFleet.Text.Utf8
import PeerFleet.Yaml.Scalar

/-! # Tags and directives

A tag is written with a handle, which a directive may have given a longer form, and a
suffix. Directives stand before a document.
-/

namespace PeerFleet.Yaml

open Text

/-- A tag as it is written; the handle of a verbatim tag is empty. -/
structure WrittenTag where
  handle : String
  suffix : String
  deriving DecidableEq, Repr

inductive Directive where
  | version (major minor : Nat)
  | tag (handle expansion : String)
  deriving DecidableEq, Repr

def isTagChar (whole : Bool) (ch : Char) : Bool :=
  isWordChar ch || ";/?:@&=+$.!~*'()".toList.contains ch || (whole && ",[]".toList.contains ch)

def tagEscapes? : Nat → Cursor → Option (List UInt8 × Cursor)
  | 0, c => some ([], c)
  | fuel + 1, c =>
    if c.peek = some '%' then do
      let n ← natOfDigits? 16 ((c.rest.drop 1).take 2)
      if (c.rest.drop 1).length < 2 then none
      let (more, c) ← tagEscapes? fuel (c.advanceBy 3)
      some (UInt8.ofNat n :: more, c)
    else some ([], c)

def tagText? (whole : Bool) : Nat → Cursor → Option (List Char × Cursor)
  | 0, c => some ([], c)
  | fuel + 1, c =>
    match c.peek with
    | some '%' => do
      let (octets, c) ← tagEscapes? c.rest.length c
      let decoded ← Utf8.decode? octets
      let (more, c) ← tagText? whole fuel c
      some (decoded ++ more, c)
    | some ch =>
      if isTagChar whole ch then
        (tagText? whole fuel c.advance).map fun (more, c) => (ch :: more, c)
      else some ([], c)
    | none => some ([], c)

def handle? (c : Cursor) : Option (List Char × Cursor) :=
  if c.peek = some '!' then
    let (word, after) := c.advance.takeRun isWordChar
    if after.peek = some '!' then some ('!' :: word ++ ['!'], after.advance)
    else some ('!' :: word, after)
  else none

def verbatim? (c : Cursor) : Option (WrittenTag × Cursor) := do
  let (text, c) ← tagText? true c.rest.length c
  if text.isEmpty ∨ c.peek ≠ some '>' then none
  else some (⟨"", String.ofList text⟩, c.advance)

def shorthand? (c : Cursor) : Option (WrittenTag × Cursor) := do
  let (handle, c) ← handle? c
  let (text, c) ← tagText? false c.rest.length c
  if 1 < handle.length ∧ handle.getLast? = some '!' then
    if text.isEmpty then none else some (⟨String.ofList handle, String.ofList text⟩, c)
  else
    let suffix := handle.drop 1 ++ text
    if suffix.isEmpty then some (⟨"", "!"⟩, c) else some (⟨"!", String.ofList suffix⟩, c)

def tag? (flow : Bool) (c : Cursor) : Option (WrittenTag × Cursor) := do
  let (tag, c) ← if c.peekAt 1 = some '<' then verbatim? (c.advanceBy 2) else shorthand? c
  if c.gapOrEndAt 0 ∨ (flow ∧ c.peek = some ',') then some (tag, c) else none

def versionNumber? (c : Cursor) : Option (Nat × Cursor) := do
  let (ds, c) := c.takeRun isDigit
  let n ← natOfDigits? 10 ds
  if 9 < ds.length then none else some (n, c)

def directiveValue? (name : String) (c : Cursor) : Option (Directive × Cursor) := do
  let c := c.skipRun isGap
  match name with
  | "YAML" => do
    let (major, c) ← versionNumber? c
    if c.peek ≠ some '.' then none
    let (minor, c) ← versionNumber? c.advance
    some (.version major minor, c)
  | "TAG" => do
    let (handle, c) ← handle? c
    if handle ≠ ['!'] ∧ handle.getLast? ≠ some '!' then none
    if !c.peek.any isGap then none
    let c := c.skipRun isGap
    let (text, c) ← tagText? true c.rest.length c
    if text.isEmpty ∨ !c.gapOrEndAt 0 then none
    some (.tag (String.ofList handle) (String.ofList text), c)
  | _ => none

def directive? (c : Cursor) : Option (Directive × Cursor) := do
  let (name, c) := c.takeRun isWordChar
  if name.isEmpty ∨ !c.gapOrEndAt 0 then none
  let (directive, c) ← directiveValue? (String.ofList name) c
  let c ← restOfLine? c
  some (directive, c)

end PeerFleet.Yaml
