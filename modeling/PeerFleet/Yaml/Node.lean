import PeerFleet.Yaml.Token

/-! # Nodes of a document

A document as a tree. An anchor numbers its node by the names that were anchored before,
and an alias stands for the last node with the number that its name had.
-/

namespace PeerFleet.Yaml

inductive Node where
  | scalar (tag : Option String) (style : Style) (text : String)
  | sequence (items : List Node)
  | mapping (entries : List (Node × Node))
  | alias (number : Nat)
  deriving Inhabited

namespace Node

def empty : Node :=
  .scalar none .plain ""

end Node

/-- A node with an anchor: the number of the anchor, and how many such nodes began before. -/
structure Anchored where
  number : Nat
  order : Nat
  node : Node

/-- What is left of the tokens of a document and what its anchors stand for so far. -/
structure Reader where
  rest : List Token
  tags : List (String × String)
  names : List (String × Nat) := []
  begun : Nat := 0
  anchored : List Anchored := []

namespace Reader

def peek (r : Reader) : Option Token :=
  r.rest.head?

def skip (r : Reader) : Reader :=
  { r with rest := r.rest.tail }

def resolve? (r : Reader) (t : WrittenTag) : Option (Option String) := do
  let full ← if t.handle = "" then some t.suffix
    else (r.tags.lookup t.handle).map (· ++ t.suffix)
  some (if full = "!" then none else some full)

def properties (r : Reader) : Option String × Option WrittenTag × Reader :=
  match r.rest with
  | .anchor name :: .tag t :: rest => (some name, some t, { r with rest })
  | .tag t :: .anchor name :: rest => (some name, some t, { r with rest })
  | .anchor name :: rest => (some name, none, { r with rest })
  | .tag t :: rest => (none, some t, { r with rest })
  | _ => (none, none, r)

def begin (r : Reader) : Option String → Option (Nat × Nat) × Reader
  | none => (none, r)
  | some name =>
    let number := r.names.length
    let names := (name, number) :: r.names.filter (·.1 != name)
    (some (number, r.begun), { r with names, begun := r.begun + 1 })

def finish (anchor : Option (Nat × Nat)) (node : Node) (r : Reader) : Node × Reader :=
  match anchor with
  | none => (node, r)
  | some (number, order) => (node, { r with anchored := ⟨number, order, node⟩ :: r.anchored })

def next (r : Reader) (ts : List Token) : Bool :=
  r.peek.all ts.contains

mutual

/-- A node, with fuel for every token. Block collections are allowed unless in a flow, and
entries without indentation of their own only as values of a block mapping. -/
def node? : Nat → Bool → Bool → Reader → Option (Node × Reader)
  | 0, _, _, _ => none
  | fuel + 1, block, indentless, r =>
    match r.peek with
    | some (.alias name) => do
      let number ← r.names.lookup name
      some (.alias number, r.skip)
    | _ => do
      let (name, tag, r) := r.properties
      let bare := name.isNone && tag.isNone
      let tag ← match tag with
        | none => some none
        | some t => r.resolve? t
      let (anchor, r) := r.begin name
      let unwritten := if bare then none else some (Node.scalar tag .plain "", r)
      let (node, r) ← match r.peek with
        | some .blockEntry => if indentless then indentless? fuel r [] else unwritten
        | some (.scalar style text) => some (Node.scalar tag style text, r.skip)
        | some .flowSequence => flowItems? fuel true r.skip []
        | some .flowMapping => flowEntries? fuel true r.skip []
        | some .blockSequence => if block then blockItems? fuel r.skip [] else unwritten
        | some .blockMapping => if block then blockEntries? fuel r.skip [] else unwritten
        | _ => unwritten
      some (finish anchor node r)

def nodeUnless? : Nat → Bool → Bool → List Token → Reader → Option (Node × Reader)
  | 0, _, _, _, _ => none
  | fuel + 1, block, indentless, ends, r =>
    if r.next ends then some (.empty, r) else node? fuel block indentless r

def blockItems? : Nat → Reader → List Node → Option (Node × Reader)
  | 0, _, _ => none
  | fuel + 1, r, items =>
    match r.peek with
    | some .blockEntry => do
      let (item, r) ← nodeUnless? fuel true false [.blockEntry, .blockEnd] r.skip
      blockItems? fuel r (item :: items)
    | some .blockEnd => some (.sequence items.reverse, r.skip)
    | _ => none

def indentless? : Nat → Reader → List Node → Option (Node × Reader)
  | 0, _, _ => none
  | fuel + 1, r, items =>
    match r.peek with
    | some .blockEntry => do
      let (item, r) ← nodeUnless? fuel true false [.blockEntry, .key, .value, .blockEnd] r.skip
      indentless? fuel r (item :: items)
    | _ => some (.sequence items.reverse, r)

def blockEntries? : Nat → Reader → List (Node × Node) → Option (Node × Reader)
  | 0, _, _ => none
  | fuel + 1, r, entries =>
    match r.peek with
    | some .key => do
      let (key, r) ← nodeUnless? fuel true true [.key, .value, .blockEnd] r.skip
      let (value, r) ← value? fuel true [.key, .value, .blockEnd] r
      blockEntries? fuel r ((key, value) :: entries)
    | some .blockEnd => some (.mapping entries.reverse, r.skip)
    | _ => none

def value? : Nat → Bool → List Token → Reader → Option (Node × Reader)
  | 0, _, _, _ => none
  | fuel + 1, block, ends, r =>
    if r.peek = some .value then nodeUnless? fuel block block ends r.skip else some (.empty, r)

def flowItems? : Nat → Bool → Reader → List Node → Option (Node × Reader)
  | 0, _, _, _ => none
  | fuel + 1, first, r, items =>
    if r.peek = some .flowSequenceEnd then some (.sequence items.reverse, r.skip)
    else if !first && r.peek != some .flowEntry then none
    else
      let r := if first then r else r.skip
      match r.peek with
      | some .flowSequenceEnd => some (.sequence items.reverse, r.skip)
      | some .key => do
        let (item, r) ← pair? fuel r.skip
        flowItems? fuel false r (item :: items)
      | _ => do
        let (item, r) ← node? fuel false false r
        flowItems? fuel false r (item :: items)

/-- A mapping of one entry that stands as an item. A mark of a value in the place of the
key is passed over. -/
def pair? : Nat → Reader → Option (Node × Reader)
  | 0, _ => none
  | fuel + 1, r => do
    let (key, r) ← if r.next [.value, .flowEntry, .flowSequenceEnd] then some (.empty, r.skip)
      else node? fuel false false r
    let (value, r) ← value? fuel false [.flowEntry, .flowSequenceEnd] r
    some (.mapping [(key, value)], r)

def flowEntries? : Nat → Bool → Reader → List (Node × Node) → Option (Node × Reader)
  | 0, _, _, _ => none
  | fuel + 1, first, r, entries =>
    if r.peek = some .flowMappingEnd then some (.mapping entries.reverse, r.skip)
    else if !first && r.peek != some .flowEntry then none
    else
      let r := if first then r else r.skip
      match r.peek with
      | some .flowMappingEnd => some (.mapping entries.reverse, r.skip)
      | some .key => do
        let (key, r) ← nodeUnless? fuel false false [.value, .flowEntry, .flowMappingEnd] r.skip
        let (value, r) ← value? fuel false [.flowEntry, .flowMappingEnd] r
        flowEntries? fuel false r ((key, value) :: entries)
      | _ => do
        let (key, r) ← node? fuel false false r
        flowEntries? fuel false r ((key, .empty) :: entries)

end

end Reader

/-- A document: its root, and the nodes that aliases stand for. -/
structure Document where
  root : Node
  anchored : List Anchored

namespace Document

def standardTags : List (String × String) :=
  [("!", "!"), ("!!", "tag:yaml.org,2002:")]

def directives? : Bool → List (String × String) → List Token →
    Option (List (String × String) × List Token)
  | versioned, tags, .directive (.version major minor) :: ts =>
    if versioned || major != 1 || (minor != 1 && minor != 2) then none
    else directives? true tags ts
  | versioned, tags, .directive (.tag handle expansion) :: ts =>
    if (tags.lookup handle).isSome then none
    else directives? versioned ((handle, expansion) :: tags) ts
  | _, tags, ts => some (tags ++ standardTags, ts)

def body? (ts : List Token) : Option (Node × Reader) := do
  let fuel := 8 * ts.length + 8
  match ts with
  | .documentStart :: _ | .directive _ :: _ =>
    let (tags, ts) ← directives? false [] ts
    match ts with
    | .documentStart :: ts =>
      let ends := match ts with
        | [] | .directive _ :: _ | .documentStart :: _ | .documentEnd :: _ => true
        | _ => false
      if ends then some (.empty, { rest := ts, tags })
      else Reader.node? fuel true false { rest := ts, tags }
    | _ => none
  | _ => Reader.node? fuel true false { rest := ts, tags := standardTags }

def ofTokens? (ts : List Token) : Option Document :=
  if ts.isEmpty then some ⟨.empty, []⟩
  else do
    let (root, r) ← body? ts
    if r.rest.all (· = .documentEnd) then some ⟨root, r.anchored⟩ else none

def resolve (d : Document) (n : Node) : Node :=
  match n with
  | .alias number =>
    let candidates := d.anchored.filter (·.number = number)
    let latest := candidates.foldl (fun best a =>
      if (best.map Anchored.order).all (· < a.order) then some a else best) none
    (latest.map Anchored.node).getD n
  | n => n

def parse? (text : String) : Option Document := do
  ofTokens? (← tokens? text)

end Document

end PeerFleet.Yaml
