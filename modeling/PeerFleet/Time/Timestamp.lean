import PeerFleet.Text.Blank
import PeerFleet.Text.Split
import PeerFleet.Time.Instant

/-! # Timestamps

The written forms of an instant. Reading accepts the internet date and time format with
some liberties: blanks between the parts, a blank for the letter between date and time,
single digits, a sign before the year, fractions beyond nanoseconds. Writing uses the
shortest of none, three, six and nine fractional digits that is exact.
-/

namespace PeerFleet

namespace Timestamp

open Text

def year (y : Int) : String :=
  if 0 ≤ y ∧ y ≤ 9999 then padded 4 y.toNat
  else (if y < 0 then "-" else "+") ++ padded 4 y.natAbs

def date (t : Instant) : String :=
  let d := Date.ofDays t.day
  year d.year ++ "-" ++ padded 2 d.month ++ "-" ++ padded 2 d.day

def hourMinute (t : Instant) : String :=
  let s := t.secondOfDay.toNat
  padded 2 (s / 3600) ++ ":" ++ padded 2 (s % 3600 / 60)

def fraction (nanos : Nat) : String :=
  if nanos = 0 then ""
  else if nanos % 1000000 = 0 then "." ++ padded 3 (nanos / 1000000)
  else if nanos % 1000 = 0 then "." ++ padded 6 (nanos / 1000)
  else "." ++ padded 9 nanos

def time (t : Instant) : String :=
  let s := t.secondOfDay.toNat % 60 + t.nanos / 1000000000
  hourMinute t ++ ":" ++ padded 2 s ++ fraction (t.nanos % 1000000000)

def number? (least most : Nat) (cs : List Char) : Option (Nat × List Char) :=
  let ds := (cs.takeWhile isDigit).take most
  if ds.length < least then none
  else some (ds.foldl (fun n c => n * 10 + digitValue c) 0, cs.drop ds.length)

def twoDigits? (cs : List Char) : Option (Nat × List Char) :=
  number? 1 2 (trimStart cs)

def literal? (c : Char) (cs : List Char) : Option (List Char) :=
  match trimStart cs with
  | d :: rest => if c = d then some rest else none
  | [] => none

def year? (cs : List Char) : Option (Int × List Char) :=
  match trimStart cs with
  | '-' :: rest => (number? 1 rest.length rest).map fun (n, r) => (-(n : Int), r)
  | '+' :: rest => (number? 1 rest.length rest).map fun (n, r) => ((n : Int), r)
  | cs => (number? 1 4 cs).map fun (n, r) => ((n : Int), r)

def separator? : List Char → Option (List Char)
  | 'T' :: rest => some rest
  | 't' :: rest => some rest
  | c :: rest => if isBlank c then some (trimStart rest) else none
  | [] => none

def fraction? : List Char → Option (Nat × List Char)
  | '.' :: rest => do
    let (n, after) ← number? 1 9 rest
    let width := rest.length - after.length
    some (n * Nat.pow 10 (9 - width), after.dropWhile isDigit)
  | cs => some (0, cs)

def signedOffset? (cs : List Char) : Option (Int × List Char) := do
  let (sign, cs) ← match cs with
    | '+' :: rest => some ((1 : Int), rest)
    | '-' :: rest => some (-1, rest)
    | '\u2212' :: rest => some (-1, rest)
    | _ => none
  let (hours, cs) ← number? 2 2 cs
  let cs := cs.dropWhile fun c => c = ':' || isBlank c
  let (minutes, cs) ← number? 2 2 cs
  if minutes < 60 ∧ hours < 24 then some (sign * (hours * 3600 + minutes * 60), cs) else none

def offset? (cs : List Char) : Option (Int × List Char) :=
  match trimStart cs with
  | 'Z' :: rest => some (0, rest)
  | 'z' :: rest => some (0, rest)
  | a :: b :: c :: rest =>
    if [a, b, c].map lowerAscii = ['u', 't', 'c'] then some (0, rest)
    else signedOffset? (a :: b :: c :: rest)
  | cs => signedOffset? cs

def ofCivil? (d : Date) (hour minute second nanos : Nat) (offset : Int) : Option Instant := do
  let leap := second = 60
  let seconds := d.toDays * 86400 + hour * 3600 + minute * 60 + (if leap then 59 else second)
  let inRange := -262143 ≤ d.year ∧ d.year ≤ 262142
  if d.valid ∧ inRange ∧ hour ≤ 23 ∧ minute ≤ 59 ∧ second ≤ 60 then
    Instant.ofParts? (seconds - offset) (nanos + if leap then 1000000000 else 0)
  else none

def parseChars (cs : List Char) : Option Instant := do
  let (year, cs) ← year? cs
  let cs ← literal? '-' cs
  let (month, cs) ← twoDigits? cs
  let cs ← literal? '-' cs
  let (day, cs) ← twoDigits? cs
  let cs ← separator? cs
  let (hour, cs) ← twoDigits? cs
  let cs ← literal? ':' cs
  let (minute, cs) ← twoDigits? cs
  let cs ← literal? ':' cs
  let (second, cs) ← twoDigits? cs
  let (nanos, cs) ← fraction? cs
  let (offset, cs) ← offset? cs
  if trimStart cs = [] then ofCivil? ⟨year, month, day⟩ hour minute second nanos offset else none

end Timestamp

namespace Instant

def parse (s : String) : Option Instant :=
  Timestamp.parseChars s.toList

def render (t : Instant) : String :=
  Timestamp.date t ++ "T" ++ Timestamp.time t ++ "Z"

def describe (t : Instant) : String :=
  Timestamp.date t ++ " " ++ Timestamp.time t ++ " UTC"

def toMinute (t : Instant) : String :=
  Timestamp.date t ++ " " ++ Timestamp.hourMinute t

end Instant

end PeerFleet
