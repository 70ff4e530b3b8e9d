import PeerFleet.Json.Basic
import PeerFleet.Text.Digits
import PeerFleet.Text.Utf8

/-! # Reading JSON

A strict reader: one value between blanks, no comments, no commas at an end, no leading
zeros, no control characters in strings. What a string denotes and whether a number has a
value are settled here, so that a reader of records can ignore what it does not need.
-/

namespace PeerFleet.Json

open Text

def isSpace (c : Char) : Bool :=
  c = ' ' || c = '\n' || c = '\t' || c = '\r'

def skipSpace (cs : List Char) : List Char :=
  cs.dropWhile isSpace

/-- A unit of a string: a character, or an escaped code unit of a surrogate pair. -/
inductive Unit16 where
  | char (c : Char)
  | surrogate (n : Nat)

def hex4? : List Char → Option (Nat × List Char)
  | a :: b :: c :: d :: rest => do
    let n ← natOfDigits? 16 [a, b, c, d]
    some (n, rest)
  | _ => none

def escape? : List Char → Option (Unit16 × List Char)
  | '"' :: rest => some (.char '"', rest)
  | '\\' :: rest => some (.char '\\', rest)
  | '/' :: rest => some (.char '/', rest)
  | 'b' :: rest => some (.char '\x08', rest)
  | 'f' :: rest => some (.char '\x0c', rest)
  | 'n' :: rest => some (.char '\n', rest)
  | 'r' :: rest => some (.char '\r', rest)
  | 't' :: rest => some (.char '\t', rest)
  | 'u' :: rest => do
    let (n, rest) ← hex4? rest
    let unit := if 0xD800 ≤ n ∧ n < 0xE000 then Unit16.surrogate n else .char (Char.ofNat n)
    some (unit, rest)
  | _ => none

def units? : Nat → List Char → Option (List Unit16 × List Char)
  | 0, _ => none
  | _, [] => none
  | _ + 1, '"' :: rest => some ([], rest)
  | fuel + 1, '\\' :: rest => do
    let (u, rest) ← escape? rest
    let (us, rest) ← units? fuel rest
    some (u :: us, rest)
  | fuel + 1, c :: rest =>
    if c.toNat < 32 then none
    else (units? fuel rest).map fun (us, rest) => (.char c :: us, rest)

def denote? : List Unit16 → Option (List Char)
  | [] => some []
  | .char c :: us => (denote? us).map (c :: ·)
  | .surrogate hi :: .surrogate lo :: us =>
    if hi < 0xDC00 ∧ 0xDC00 ≤ lo then
      (denote? us).map (Char.ofNat (0x10000 + (hi - 0xD800) * 0x400 + (lo - 0xDC00)) :: ·)
    else none
  | .surrogate _ :: _ => none

def string? (cs : List Char) : Option (Option String × List Char) := do
  let (us, rest) ← units? (cs.length + 1) cs
  some ((denote? us).map String.ofList, rest)

def digits? (cs : List Char) : Option (List Char × List Char) :=
  match cs.takeWhile isDigit with
  | [] => none
  | ds => some (ds, cs.dropWhile isDigit)

def fraction? : List Char → Option (List Char × List Char)
  | '.' :: rest => (digits? rest).map fun (ds, rest) => ('.' :: ds, rest)
  | cs => some ([], cs)

def exponent? : List Char → Option (List Char × List Char)
  | e :: rest =>
    if e = 'e' ∨ e = 'E' then
      match rest with
      | '+' :: rest => (digits? rest).map fun (ds, rest) => (e :: '+' :: ds, rest)
      | '-' :: rest => (digits? rest).map fun (ds, rest) => (e :: '-' :: ds, rest)
      | rest => (digits? rest).map fun (ds, rest) => (e :: ds, rest)
    else some ([], e :: rest)
  | [] => some ([], [])

def whole? (cs : List Char) : Option (List Char × List Char) := do
  let (ds, rest) ← digits? cs
  if ds.head? = some '0' ∧ ds.length > 1 then none else some (ds, rest)

def number? (cs : List Char) : Option (Json × List Char) := do
  let (sign, cs) := match cs with
    | '-' :: rest => (['-'], rest)
    | cs => ([], cs)
  let (whole, cs) ← whole? cs
  let (frac, cs) ← fraction? cs
  let (exp, cs) ← exponent? cs
  let magnitude := whole.foldl (fun n c => n * 10 + digitValue c) 0
  let lexeme := String.ofList (sign ++ whole ++ frac ++ exp)
  let plain := frac.isEmpty && exp.isEmpty && (sign.isEmpty || magnitude != 0)
  let value := if sign.isEmpty then (magnitude : Int) else -magnitude
  some (if plain then .integer value else .decimal lexeme, cs)

def ofMembers (members : List (Option String × Json)) : Json :=
  match members.mapM (fun m => m.1.map fun name => (name, m.2)) with
  | some named => .object named
  | none => .broken

def keyword? (value : Json) : List Char → List Char → Option (Json × List Char)
  | [], cs => some (value, cs)
  | w :: ws, c :: cs => if w = c then keyword? value ws cs else none
  | _ :: _, [] => none

mutual

def value? : Nat → List Char → Option (Json × List Char)
  | 0, _ => none
  | fuel + 1, cs =>
    match skipSpace cs with
    | [] => none
    | '"' :: rest =>
      (string? rest).map fun (s, rest) => ((s.map Json.string).getD .broken, rest)
    | '[' :: rest =>
      match skipSpace rest with
      | ']' :: rest => some (.array [], rest)
      | rest => (elements? fuel rest).map fun (items, rest) => (.array items, rest)
    | '\x7b' :: rest =>
      match skipSpace rest with
      | '\x7d' :: rest => some (.object [], rest)
      | rest => (members? fuel rest).map fun (members, rest) => (ofMembers members, rest)
    | 'n' :: rest => keyword? .null ['u', 'l', 'l'] rest
    | 't' :: rest => keyword? (.bool true) ['r', 'u', 'e'] rest
    | 'f' :: rest => keyword? (.bool false) ['a', 'l', 's', 'e'] rest
    | rest => number? rest

def elements? : Nat → List Char → Option (List Json × List Char)
  | 0, _ => none
  | fuel + 1, cs =>
    match value? fuel cs with
    | none => none
    | some (j, rest) =>
      match skipSpace rest with
      | ',' :: rest => (elements? fuel rest).map fun (js, rest) => (j :: js, rest)
      | ']' :: rest => some ([j], rest)
      | _ => none

def members? : Nat → List Char → Option (List (Option String × Json) × List Char)
  | 0, _ => none
  | fuel + 1, cs =>
    match skipSpace cs with
    | '"' :: rest =>
      match string? rest with
      | none => none
      | some (name, rest) =>
        match skipSpace rest with
        | ':' :: rest =>
          match value? fuel rest with
          | none => none
          | some (j, rest) =>
            match skipSpace rest with
            | ',' :: rest => (members? fuel rest).map fun (ms, rest) => ((name, j) :: ms, rest)
            | '\x7d' :: rest => some ([(name, j)], rest)
            | _ => none
        | _ => none
    | _ => none

end

def parseChars (cs : List Char) : Option Json := do
  let (j, rest) ← value? (2 * cs.length + 2) cs
  if skipSpace rest = [] then some j else none

def parse (s : String) : Option Json :=
  parseChars s.toList

/-- The characters of a text that is read as a value. What denotes no character may stand
in a string, which then denotes nothing: half of a surrogate pair takes its place. -/
def chars? (quoted escaped : Bool) : List (Option Char) → Option (List Char)
  | [] => some []
  | some c :: rest =>
    let after := if c = '"' ∧ !escaped then !quoted else quoted
    (chars? after (quoted && !escaped && c = '\\') rest).map (c :: ·)
  | none :: rest =>
    if quoted ∧ !escaped then (chars? true false rest).map ("\\uD800\\u0000".toList ++ ·)
    else none

def parseOctets (octets : List UInt8) : Option Json :=
  (chars? false false (Utf8.pieces octets)).bind parseChars

end PeerFleet.Json
