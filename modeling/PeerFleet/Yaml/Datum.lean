import PeerFleet.Record
import PeerFleet.Yaml.Node

/-! # Values of a document

What the nodes of a document mean to a reader of records. A scalar has no type of its own:
any scalar is a text, and one without quotes is a number or a truth value if it reads as
one. A scalar that is not written at all is an empty list, an empty record or nothing.
-/

namespace PeerFleet.Yaml

open Text

/-- A node within its document. -/
structure Datum where
  document : Document
  node : Node

namespace Scalar

def isNull (text : String) : Bool :=
  ["~", "null", "Null", "NULL"].contains text

def bool? (text : String) : Option Bool :=
  if ["true", "True", "TRUE"].contains text then some true
  else if ["false", "False", "FALSE"].contains text then some false
  else none

def baseOf : List Char → Nat × List Char
  | '0' :: 'x' :: ds => (16, ds)
  | '0' :: 'o' :: ds => (8, ds)
  | '0' :: 'b' :: ds => (2, ds)
  | ds => (10, ds)

def magnitude? (cs : List Char) : Option Nat :=
  let (base, ds) := baseOf cs
  if base = 10 ∧ 1 < ds.length ∧ ds.head? = some '0' then none else natOfDigits? base ds

def natural? (text : String) : Option Nat :=
  match text.toList with
  | '+' :: cs => magnitude? cs
  | cs => magnitude? cs

def integer? (text : String) : Option Int :=
  match text.toList with
  | '-' :: cs => (magnitude? cs).map fun n => -(n : Int)
  | '+' :: cs => (magnitude? cs).map Int.ofNat
  | cs => (magnitude? cs).map Int.ofNat

def nullTag : String := "tag:yaml.org,2002:null"
def boolTag : String := "tag:yaml.org,2002:bool"
def intTag : String := "tag:yaml.org,2002:int"

def typed (wanted : String) (tag : Option String) (style : Style) : Bool :=
  style = .plain || (style = .literal && tag = some wanted)

def ownTag? (tag : Option String) : Option String := do
  match (← tag).toList with
  | ['!'] => some "!"
  | '!' :: name => some (String.ofList name)
  | _ => none

end Scalar

namespace Datum

def target (d : Datum) : Node :=
  d.document.resolve d.node

def within (d : Datum) (n : Node) : Datum :=
  { d with node := n }

def absent? (d : Datum) : Option Bool :=
  match d.target with
  | .scalar none .plain text => some (text.isEmpty || Scalar.isNull text)
  | .scalar (some tag) .plain text =>
    if tag = Scalar.nullTag then (if Scalar.isNull text then some true else none) else some false
  | _ => some false

def text? (d : Datum) : Option String :=
  match d.target with
  | .scalar _ _ text => some text
  | _ => none

def typed? {α : Type} (wanted : String) (read : String → Option α) (d : Datum) : Option α :=
  match d.target with
  | .scalar tag style text => if Scalar.typed wanted tag style then read text else none
  | _ => none

def items? (d : Datum) : Option (List Datum) :=
  match d.target with
  | .sequence items => some (items.map d.within)
  | .scalar _ .plain "" => some []
  | _ => none

def fields? (d : Datum) : Option (Fields Datum) :=
  match d.target with
  | .mapping entries => do
    let named ← entries.mapM fun (key, value) =>
      (d.within key).text?.map fun name => (name, d.within value)
    some (.named named)
  | .scalar _ .plain "" => some (.named [])
  | _ => none

def variant? (d : Datum) : Option String :=
  match d.target with
  | .scalar tag style text =>
    match Scalar.ownTag? tag with
    | some name =>
      if style = .plain ∧ (text.isEmpty ∨ Scalar.isNull text) then some name else none
    | none => some text
  | _ => none

instance : Notation Datum where
  absent? := absent?
  text? := text?
  signed? := typed? Scalar.intTag Scalar.integer?
  unsigned? := typed? Scalar.intTag Scalar.natural?
  bool? := typed? Scalar.boolTag Scalar.bool?
  items? := items?
  fields? := fields?
  variant? := variant?

end Datum

def parse (text : String) : Option Datum := do
  let document ← Document.parse? text
  some ⟨document, document.root⟩

end PeerFleet.Yaml
