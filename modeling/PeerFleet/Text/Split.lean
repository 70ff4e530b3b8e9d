/-! # Cutting text at a character or a word

The first and the last place where a separator occurs, on lists of characters.
-/

namespace PeerFleet.Text

def splitFirst (sep : Char) : List Char → Option (List Char × List Char)
  | [] => none
  | c :: cs =>
    if c = sep then some ([], cs)
    else (splitFirst sep cs).map fun (before, after) => (c :: before, after)

def splitLast (sep : Char) (cs : List Char) : Option (List Char × List Char) :=
  (splitFirst sep cs.reverse).map fun (after, before) => (before.reverse, after.reverse)

def dropWord : List Char → List Char → Option (List Char)
  | [], cs => some cs
  | _ :: _, [] => none
  | w :: ws, c :: cs => if w = c then dropWord ws cs else none

def splitAtWord (word : List Char) : List Char → Option (List Char × List Char)
  | [] => (dropWord word []).map fun rest => ([], rest)
  | c :: cs =>
    match dropWord word (c :: cs) with
    | some rest => some ([], rest)
    | none => (splitAtWord word cs).map fun (before, after) => (c :: before, after)

def occurs (word text : List Char) : Bool :=
  (splitAtWord word text).isSome

def splitAll (sep : Char) : List Char → List (List Char)
  | [] => [[]]
  | c :: cs =>
    match splitAll sep cs with
    | [] => [[c]]
    | part :: parts => if c = sep then [] :: part :: parts else (c :: part) :: parts

def dropTrailing (c : Char) (cs : List Char) : List Char :=
  (cs.reverse.dropWhile (· = c)).reverse

def lowerAscii (c : Char) : Char :=
  if 'A' ≤ c ∧ c ≤ 'Z' then Char.ofNat (c.toNat + 32) else c

end PeerFleet.Text
