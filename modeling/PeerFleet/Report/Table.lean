import PeerFleet.Node
import PeerFleet.Text.Upper

/-! # Tables

Rows of cells under upper-case headers. A column is as wide as its longest cell has
octets, and cells are padded to that many characters, so that columns line up.
-/

namespace PeerFleet.Report

def pad (width : Nat) (cell : String) : String :=
  cell ++ String.ofList (List.replicate (width - cell.length) ' ')

def columnWidth (rows : List (List String)) (i : Nat) (header : String) : Nat :=
  rows.foldl (fun w row => max w ((row[i]?.map String.utf8ByteSize).getD 0)) header.utf8ByteSize

def columnWidths (headers : List String) (rows : List (List String)) : List Nat :=
  headers.zipIdx.map fun (header, i) => columnWidth rows i header

def padCells : List Nat → List String → List String
  | _, [] => []
  | [], cells => cells
  | w :: ws, cell :: cells => pad w cell :: padCells ws cells

def line (widths : List Nat) (cells : List String) : String :=
  "   ".intercalate (padCells widths cells) ++ "\n"

def table (headers : List String) (rows : List (List String)) : String :=
  if rows.isEmpty then "No nodes configured.\n"
  else
    let widths := columnWidths headers rows
    line widths (headers.map Text.upper) ++ String.join (rows.map (line widths))

def nodeHeaders : List String :=
  ["ID", "NAME", "RPC ADDRESS", "PEERS", "TRANSPORT", "HEALTH", "STATE"]

def nodeState (n : Node) : String :=
  if n.archived then "archived" else if n.enabled then "enabled" else "disabled"

def nodeRow (n : Node) : List String :=
  [toString n.id, n.name, n.rpcAddress, s!"{n.currentPeers}/{n.maxPeers}", n.tls.mode.label,
    if n.healthUrl.isSome then "probed" else "-", nodeState n]

def nodes (ns : List Node) : String :=
  table nodeHeaders (ns.map nodeRow)

end PeerFleet.Report
