import PeerFleet.Json.Parser
import PeerFleet.Time.Timestamp

/-! # Reading records

Records are read from more than one notation. A notation says which of its values are
absent, texts, numbers, lists and records; the rules for fields are the same for all:
unknown fields are ignored, a repeated field is an error, a field has a default or is
required, and an absent value stands only in an optional field. Where a notation allows
it, a record is a list of its fields in order, of which those with defaults may be missing
at the end.
-/

namespace PeerFleet

/-- The fields of a record as a notation gives them. -/
inductive Fields (δ : Type) where
  | named (entries : List (String × δ))
  | listed (items : List δ)

/-- A notation whose values can be read as fields of records. -/
class Notation (δ : Type) where
  /-- Whether a value stands for none; a value may also be wrongly marked as such. -/
  absent? : δ → Option Bool
  text? : δ → Option String
  signed? : δ → Option Int
  unsigned? : δ → Option Nat
  bool? : δ → Option Bool
  items? : δ → Option (List δ)
  fields? : δ → Option (Fields δ)
  variant? : δ → Option String

namespace Json

def isNull : Json → Bool
  | .null => true
  | _ => false

def text? : Json → Option String
  | .string s => some s
  | _ => none

def integer? : Json → Option Int
  | .integer n => some n
  | _ => none

def natural? : Json → Option Nat
  | .integer (.ofNat n) => some n
  | _ => none

def bool? : Json → Option Bool
  | .bool b => some b
  | _ => none

def items? : Json → Option (List Json)
  | .array js => some js
  | _ => none

def fields? : Json → Option (Fields Json)
  | .object members => some (.named members)
  | .array items => some (.listed items)
  | _ => none

def variant? : Json → Option String
  | .string s => some s
  | .object [(name, .null)] => some name
  | _ => none

instance : Notation Json where
  absent? := fun v => some (isNull v)
  text? := text?
  signed? := integer?
  unsigned? := natural?
  bool? := bool?
  items? := items?
  fields? := fields?
  variant? := variant?

end Json

/-- A record whose fields have been checked against the names it may have. -/
structure Record (δ : Type) where
  names : List String
  fields : Fields δ

namespace Record

variable {δ : Type} {α : Type}

def of? [Notation δ] (names : List String) (v : δ) : Option (Record δ) := do
  let fields ← Notation.fields? v
  let sound : Bool := match fields with
    | .named entries => names.all fun n => (entries.filter (·.1 = n)).length ≤ 1
    | .listed items => items.length ≤ names.length
  if sound then some ⟨names, fields⟩ else none

def find? (r : Record δ) (name : String) : Option δ :=
  match r.fields with
  | .named entries => (entries.find? (·.1 = name)).map (·.2)
  | .listed items => items[r.names.idxOf name]?

def required (r : Record δ) (name : String) (read : δ → Option α) : Option α :=
  (r.find? name).bind read

def defaulted (r : Record δ) (name : String) (default : α) (read : δ → Option α) : Option α :=
  match r.find? name with
  | none => some default
  | some v => read v

def optional [Notation δ] (r : Record δ) (name : String) (read : δ → Option α) :
    Option (Option α) :=
  match r.find? name with
  | none => some none
  | some v => do if ← Notation.absent? v then some none else (read v).map some

def nullable [Notation δ] (r : Record δ) (name : String) (read : δ → Option α) :
    Option (Option α) :=
  match r.fields, r.find? name with
  | .listed _, none => none
  | _, _ => r.optional name read

end Record

namespace Read

variable {δ : Type} [Notation δ]

def text (v : δ) : Option String :=
  Notation.text? v

def bool (v : δ) : Option Bool :=
  Notation.bool? v

def int64 (v : δ) : Option Int64 := do
  let n ← Notation.signed? v
  if Int64.minValue.toInt ≤ n ∧ n ≤ Int64.maxValue.toInt then some (Int64.ofInt n) else none

def uint32 (v : δ) : Option UInt32 := do
  let n ← Notation.unsigned? v
  if n < UInt32.size then some (UInt32.ofNat n) else none

def uint64 (v : δ) : Option UInt64 := do
  let n ← Notation.unsigned? v
  if n < UInt64.size then some (UInt64.ofNat n) else none

def instant (v : δ) : Option Instant := do
  Instant.parse (← Notation.text? v)

def list {α : Type} (read : δ → Option α) (v : δ) : Option (List α) := do
  (← Notation.items? v).mapM read

end Read

namespace Json

def ofInt64 (n : Int64) : Json := .integer n.toInt

def ofUInt32 (n : UInt32) : Json := .integer n.toNat

def ofUInt64 (n : UInt64) : Json := .integer n.toNat

def ofInstant (t : Instant) : Json := .string t.render

def ofTexts (ss : List String) : Json := .array (ss.map .string)

end Json

end PeerFleet
