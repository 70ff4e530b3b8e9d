import PeerFleet.Json.Basic
import PeerFleet.Text.Digits

/-! # Written JSON

The compact form: no blanks, members in their order, and escapes only where a string
cannot stand without them.
-/

namespace PeerFleet.Json

open Text

def escapeChar (c : Char) : List Char :=
  if c = '"' then ['\\', '"']
  else if c = '\\' then ['\\', '\\']
  else if c = '\n' then ['\\', 'n']
  else if c = '\r' then ['\\', 'r']
  else if c = '\t' then ['\\', 't']
  else if c.toNat = 8 then ['\\', 'b']
  else if c.toNat = 12 then ['\\', 'f']
  else if c.toNat < 32 then
    ['\\', 'u', '0', '0', hexDigit false (c.toNat / 16), hexDigit false (c.toNat % 16)]
  else [c]

def quote (s : String) : List Char :=
  '"' :: (s.toList.flatMap escapeChar ++ ['"'])

def commas : List (List Char) → List Char
  | [] => []
  | [p] => p
  | p :: q :: ps => p ++ ',' :: commas (q :: ps)

mutual

def chars : Json → List Char
  | .null => "null".toList
  | .bool true => "true".toList
  | .bool false => "false".toList
  | .integer n => (toString n).toList
  | .decimal lexeme => lexeme.toList
  | .string s => quote s
  | .array items => '[' :: (commas (itemChars items) ++ [']'])
  | .object members => '\x7b' :: (commas (memberChars members) ++ ['\x7d'])
  | .broken => "null".toList

def itemChars : List Json → List (List Char)
  | [] => []
  | j :: js => chars j :: itemChars js

def memberChars : List (String × Json) → List (List Char)
  | [] => []
  | (name, j) :: rest => (quote name ++ ':' :: chars j) :: memberChars rest

end

def render (j : Json) : String :=
  String.ofList (chars j)

end PeerFleet.Json
