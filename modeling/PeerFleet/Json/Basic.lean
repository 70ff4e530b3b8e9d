/-! # JSON values

A value keeps the order of its members and their repetitions, because readers of records
refuse a repeated field. Only integers are numbers with a value here; any other number is
kept as it was written.
-/

namespace PeerFleet

inductive Json where
  | null
  | bool (value : Bool)
  | integer (value : Int)
  /-- A number that is not a plain integer, `-0` included, as written. -/
  | decimal (lexeme : String)
  | string (value : String)
  | array (items : List Json)
  | object (members : List (String × Json))
  /-- A string that escapes half of a surrogate pair, or an object with such a name: well
  formed, but no value. -/
  | broken
  deriving Inhabited, BEq

namespace Json

def ofNat (n : Nat) : Json := .integer n

def ofBool (b : Bool) : Json := .bool b

def get? (j : Json) (name : String) : Option Json :=
  match j with
  | .object members => (members.reverse.find? (·.1 = name)).map (·.2)
  | _ => none

def optional (name : String) (value : Option Json) : List (String × Json) :=
  match value with
  | none => []
  | some v => [(name, v)]

def nullable : Option Json → Json
  | none => .null
  | some v => v

end Json

end PeerFleet
