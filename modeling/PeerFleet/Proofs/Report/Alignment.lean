import Mathlib.Data.List.Forall2
import PeerFleet.Proofs.Text.Digits
import PeerFleet.Proofs.Text.Split
import PeerFleet.Report.Table

/-! # Columns in line

A column is as wide as its longest cell has octets. No cell has more characters than octets, so that
none outgrows its column, and filling each up to the width in characters lets the next column begin
at the same place in every row.
-/

namespace PeerFleet

namespace Text

theorem length_le_utf8ByteSize (s : String) : s.length ≤ s.utf8ByteSize := by
  have hlen (cs : List Char) : cs.length ≤ (String.ofList cs).utf8ByteSize := by
    induction cs with
    | nil => exact Nat.zero_le _
    | cons c cs ih =>
      have hc := c.utf8Size_pos
      rw [← List.singleton_append, String.ofList_append, ← String.singleton_eq_ofList,
        String.utf8ByteSize_append, String.utf8ByteSize_singleton, List.singleton_append,
        List.length_cons]
      omega
  have hs := hlen s.toList
  rwa [String.ofList_toList, String.length_toList] at hs

theorem splitAll_flatMap {sep : Char} {parts : List (List Char)} (h : ∀ p ∈ parts, sep ∉ p) :
    splitAll sep (parts.flatMap (· ++ [sep])) = parts ++ [[]] := by
  induction parts with
  | nil => rfl
  | cons p parts ih =>
    obtain ⟨hp, hparts⟩ := List.forall_mem_cons.mp h
    have hcut : (p ++ sep :: parts.flatMap (· ++ [sep])).splitOn sep =
        [p] ++ (parts.flatMap (· ++ [sep])).splitOn sep := by
      rw [List.splitOn_append_cons_self, List.splitOn_eq_singleton hp]
    rw [splitAll_eq_splitOn] at ih ⊢
    rw [List.flatMap_cons, List.append_assoc, List.singleton_append, hcut, ih hparts,
      List.cons_append, List.nil_append, List.cons_append]

end Text

namespace Report

variable {headers cells row : List String} {rows : List (List String)} {header cell : String}
  {ws : List ℕ} {i b : ℕ} {c : Char}

theorem columnWidth_le_iff : columnWidth rows i header ≤ b ↔
    header.utf8ByteSize ≤ b ∧ ∀ row ∈ rows, ∀ cell ∈ row[i]?, cell.utf8ByteSize ≤ b := by
  have hfold (w : ℕ) :
      rows.foldl (fun w row => max w ((row[i]?.map String.utf8ByteSize).getD 0)) w ≤ b ↔
        w ≤ b ∧ ∀ row ∈ rows, ∀ cell ∈ row[i]?, cell.utf8ByteSize ≤ b := by
    induction rows generalizing w with
    | nil => simp
    | cons row rows ih =>
      rw [List.foldl_cons, ih, Nat.max_le, List.forall_mem_cons, and_assoc]
      cases row[i]? <;> simp
  exact hfold _

theorem header_le_columnWidth (rows : List (List String)) (i : ℕ) (header : String) :
    header.utf8ByteSize ≤ columnWidth rows i header :=
  (columnWidth_le_iff.mp (Nat.le_refl _)).1

theorem cell_le_columnWidth (hr : row ∈ rows) (hc : row[i]? = some cell) (header : String) :
    cell.utf8ByteSize ≤ columnWidth rows i header :=
  (columnWidth_le_iff.mp (Nat.le_refl _)).2 row hr cell hc

theorem length_columnWidths (headers : List String) (rows : List (List String)) :
    (columnWidths headers rows).length = headers.length := by
  simp [columnWidths]

def Fit (cells : List String) (ws : List ℕ) : Prop :=
  List.Forall₂ (fun cell w => cell.length ≤ w) cells ws

theorem fit_columnWidths (hl : cells.length = headers.length)
    (h : ∀ i cell header, cells[i]? = some cell → headers[i]? = some header →
      cell.length ≤ columnWidth rows i header) : Fit cells (columnWidths headers rows) := by
  refine List.forall₂_iff_get.mpr
    ⟨hl.trans (length_columnWidths headers rows).symm, fun i hc hw => ?_⟩
  have hi : i < headers.length := length_columnWidths headers rows ▸ hw
  have hwidth : (columnWidths headers rows)[i] = columnWidth rows i headers[i] := by
    simp [columnWidths]
  rw [List.get_eq_getElem, List.get_eq_getElem, hwidth]
  exact h i _ _ (List.getElem?_eq_getElem hc) (List.getElem?_eq_getElem hi)

theorem fit_row (hr : row ∈ rows) (hl : row.length = headers.length) :
    Fit row (columnWidths headers rows) :=
  fit_columnWidths hl fun _ cell header hc _ =>
    (Text.length_le_utf8ByteSize cell).trans (cell_le_columnWidth hr hc header)

theorem fit_headers (headers : List String) (rows : List (List String))
    (h : ∀ header ∈ headers, (Text.upper header).length ≤ header.utf8ByteSize) :
    Fit (headers.map Text.upper) (columnWidths headers rows) := by
  refine fit_columnWidths (List.length_map _) fun i cell header hc hh => ?_
  rw [List.getElem?_map, hh, Option.map_some, Option.some.injEq] at hc
  rw [← hc]
  exact (h header (List.mem_of_getElem? hh)).trans (header_le_columnWidth rows i header)

/-- A cell in its row, with the blanks behind it. -/
structure Placed where
  cell : String
  blanks : ℕ

def Placed.chars (p : Placed) : List Char :=
  p.cell.toList ++ List.replicate p.blanks ' '

def rowChars (r : List Placed) : List Char :=
  r.flatMap Placed.chars

/-- How many characters of a row stand before the cell at an index. -/
def cut (r : List Placed) (i : ℕ) : ℕ :=
  (rowChars (r.take i)).length

/-- Where a column begins behind columns of the given widths with a gap of three after each. -/
def columnStart (ws : List ℕ) (i : ℕ) : ℕ :=
  (ws.take i).foldr (fun w start => w + 3 + start) 0

def layout : List ℕ → List String → List Placed
  | w :: _, [cell] => [⟨cell, w - cell.length⟩]
  | w :: ws, cell :: cells => ⟨cell, w - cell.length + 3⟩ :: layout ws cells
  | _, _ => []

theorem layout_cons_cons (w : ℕ) (ws : List ℕ) (cell next : String) (cells : List String) :
    layout (w :: ws) (cell :: next :: cells) =
      ⟨cell, w - cell.length + 3⟩ :: layout ws (next :: cells) :=
  rfl

theorem map_cell_layout (h : Fit cells ws) : (layout ws cells).map Placed.cell = cells := by
  induction h with
  | nil => rfl
  | cons hw hcells ih =>
    cases hcells with
    | nil => rfl
    | cons => exact congrArg _ ih

theorem rowChars_layout (h : Fit cells ws) :
    rowChars (layout ws cells) = ("   ".intercalate (padCells ws cells)).toList := by
  induction h with
  | nil => rfl
  | @cons cell w cells ws hw hcells ih =>
    have hpad : (pad w cell).toList = cell.toList ++ List.replicate (w - cell.length) ' ' := by
      rw [pad, String.toList_append, String.toList_ofList]
    cases hcells with
    | nil => simp [layout, rowChars, Placed.chars, padCells, hpad]
    | @cons next w' cells ws =>
      have hgap : "   ".toList = List.replicate 3 ' ' := rfl
      have hpads : padCells (w :: w' :: ws) (cell :: next :: cells) =
          pad w cell :: padCells (w' :: ws) (next :: cells) := rfl
      have hne : padCells (w' :: ws) (next :: cells) ≠ [] := List.cons_ne_nil _ _
      rw [layout_cons_cons, rowChars, List.flatMap_cons, ← rowChars, ih, hpads,
        String.intercalate_cons_of_ne_nil hne, String.toList_append, String.toList_append, hpad,
        hgap, Placed.chars, List.replicate_add]
      simp only [List.append_assoc]

theorem length_chars (p : Placed) : p.chars.length = p.cell.length + p.blanks := by
  rw [Placed.chars, List.length_append, String.length_toList, List.length_replicate]

theorem cut_succ (p : Placed) (r : List Placed) (i : ℕ) :
    cut (p :: r) (i + 1) = p.cell.length + p.blanks + cut r i := by
  rw [cut, List.take_succ_cons, rowChars, List.flatMap_cons, List.length_append, length_chars]
  rfl

theorem cut_layout (h : Fit cells ws) (hi : i < cells.length) :
    cut (layout ws cells) i = columnStart ws i := by
  induction h generalizing i with
  | nil => cases hi
  | @cons cell w cells ws hw hcells ih =>
    cases i with
    | zero => rfl
    | succ i =>
      cases hcells with
      | nil => simp at hi
      | cons =>
        rw [layout_cons_cons, cut_succ, ih (Nat.lt_of_succ_lt_succ hi), columnStart, columnStart,
          List.take_succ_cons, List.foldr_cons]
        dsimp only
        omega

theorem mem_rowChars {r : List Placed} (h : c ∈ rowChars r) :
    c = ' ' ∨ ∃ cell ∈ r.map Placed.cell, c ∈ cell.toList := by
  obtain ⟨p, hp, hc⟩ := List.mem_flatMap.mp h
  rcases List.mem_append.mp hc with hc | hc
  · exact .inr ⟨p.cell, List.mem_map_of_mem hp, hc⟩
  · exact .inl (List.eq_of_mem_replicate hc)

/-- Where no cell has a line break, the rows are the lines. -/
theorem splitAll_rows {rs : List (List Placed)}
    (h : ∀ r ∈ rs, ∀ cell ∈ r.map Placed.cell, '\n' ∉ cell.toList) :
    Text.splitAll '\n' (rs.flatMap fun r => rowChars r ++ ['\n']) = rs.map rowChars ++ [[]] := by
  rw [← Text.splitAll_flatMap, List.flatMap_map]
  intro line hline hmem
  obtain ⟨r, hr, rfl⟩ := List.mem_map.mp hline
  rcases mem_rowChars hmem with hblank | ⟨cell, hcell, hmem⟩
  · exact absurd hblank (by decide)
  · exact h r hr cell hcell hmem

theorem toList_line (h : Fit cells ws) :
    (line ws cells).toList = rowChars (layout ws cells) ++ ['\n'] := by
  rw [line, String.toList_append, rowChars_layout h]
  rfl

theorem toList_table (hne : rows ≠ [])
    (hh : Fit (headers.map Text.upper) (columnWidths headers rows))
    (hr : ∀ row ∈ rows, Fit row (columnWidths headers rows)) :
    (table headers rows).toList =
      ((headers.map Text.upper :: rows).map (layout (columnWidths headers rows))).flatMap
        fun r => rowChars r ++ ['\n'] := by
  have hempty : rows.isEmpty = false := by simpa using hne
  simp only [table, hempty, Bool.false_eq_true, if_false]
  rw [String.toList_append, toList_line hh, String.toList_join, List.map_cons, List.flatMap_cons,
    List.flatMap_map, List.flatMap_map]
  exact congrArg _ (List.flatMap_congr fun row hrow => toList_line (hr row hrow))

theorem upper_of_mem_nodeHeaders : ∀ header ∈ nodeHeaders, Text.upper header = header := by
  decide +kernel

theorem map_upper_nodeHeaders : nodeHeaders.map Text.upper = nodeHeaders :=
  (List.map_congr_left upper_of_mem_nodeHeaders).trans (List.map_id _)

/-- The widths of the columns in which nodes are listed. -/
def nodeWidths (ns : List Node) : List ℕ :=
  columnWidths nodeHeaders (ns.map nodeRow)

theorem fit_upper_nodeHeaders (ns : List Node) :
    Fit (nodeHeaders.map Text.upper) (nodeWidths ns) :=
  fit_headers nodeHeaders (ns.map nodeRow) fun header hmem =>
    (upper_of_mem_nodeHeaders header hmem).symm ▸ Text.length_le_utf8ByteSize header

theorem fit_nodeHeaders (ns : List Node) : Fit nodeHeaders (nodeWidths ns) :=
  map_upper_nodeHeaders ▸ fit_upper_nodeHeaders ns

theorem fit_nodeRow {ns : List Node} : ∀ row ∈ ns.map nodeRow, Fit row (nodeWidths ns) := by
  intro row hrow
  obtain ⟨n, -, rfl⟩ := List.mem_map.mp hrow
  exact fit_row hrow rfl

theorem toList_nodes {ns : List Node} (hne : ns ≠ []) :
    (nodes ns).toList = ((nodeHeaders :: ns.map nodeRow).map (layout (nodeWidths ns))).flatMap
      fun r => rowChars r ++ ['\n'] := by
  have hrows : ns.map nodeRow ≠ [] := by simpa using hne
  have h := toList_table hrows (fit_upper_nodeHeaders ns) fit_nodeRow
  rwa [map_upper_nodeHeaders] at h

theorem newline_not_mem_toString (n : ℤ) : '\n' ∉ (toString n).toList := by
  have hdigits (k : ℕ) : '\n' ∉ Nat.toDigits 10 k := fun h =>
    absurd (Text.isDigit_of_mem_toDigits h) (by decide)
  rw [Text.toList_toString_int]
  split_ifs
  · exact hdigits _
  · exact List.not_mem_cons_of_ne_of_not_mem (by decide) (hdigits _)

theorem newline_not_mem_nodeRow {n : Node} (hn : '\n' ∉ n.name.toList)
    (ha : '\n' ∉ n.rpcAddress.toList) : ∀ cell ∈ nodeRow n, '\n' ∉ cell.toList := by
  have hid : '\n' ∉ (toString n.id).toList := newline_not_mem_toString n.id.toInt
  have hcurrent : '\n' ∉ (toString n.currentPeers).toList :=
    newline_not_mem_toString n.currentPeers.toNat
  have hmax : '\n' ∉ (toString n.maxPeers).toList := newline_not_mem_toString n.maxPeers.toNat
  have hlabel : '\n' ∉ n.tls.mode.label.toList := by cases n.tls.mode <;> decide
  have hstate : '\n' ∉ (nodeState n).toList := by
    unfold nodeState
    split_ifs <;> decide
  have hhealth : '\n' ∉ (if n.healthUrl.isSome then "probed" else "-").toList := by
    split_ifs <;> decide
  have hslash : '\n' ∉ (toString "/").toList := by decide
  have hpeers : '\n' ∉ s!"{n.currentPeers}/{n.maxPeers}".toList := by
    simp [String.toList_append, hcurrent, hslash, hmax]
  simp only [nodeRow, List.forall_mem_cons]
  exact ⟨hid, hn, ha, hpeers, hlabel, hhealth, hstate, List.forall_mem_nil _⟩

theorem splitAll_nodes {ns : List Node} (hne : ns ≠ [])
    (h : ∀ n ∈ ns, '\n' ∉ n.name.toList ∧ '\n' ∉ n.rpcAddress.toList) :
    Text.splitAll '\n' (nodes ns).toList =
      ((nodeHeaders :: ns.map nodeRow).map (layout (nodeWidths ns))).map rowChars ++ [[]] := by
  rw [toList_nodes hne]
  refine splitAll_rows fun r hr => ?_
  obtain ⟨cells, hcells, rfl⟩ := List.mem_map.mp hr
  rcases List.mem_cons.mp hcells with rfl | hrow
  · rw [map_cell_layout (fit_nodeHeaders ns)]
    decide
  · rw [map_cell_layout (fit_nodeRow cells hrow)]
    obtain ⟨n, hn, rfl⟩ := List.mem_map.mp hrow
    exact newline_not_mem_nodeRow (h n hn).1 (h n hn).2

/-- The nodes are listed one a row below the headers. Every cell stands whole in its row, behind as
many characters as its header, which are as many as the columns before it have octets and gaps. The
rows are the lines of the table if no name and no address breaks one. -/
theorem nodes_aligned {ns : List Node} (hne : ns ≠ []) :
    ∃ (top : List Placed) (body : List (List Placed)),
      (nodes ns).toList = (top :: body).flatMap (fun r => rowChars r ++ ['\n']) ∧
      top.map Placed.cell = nodeHeaders ∧ body.map (·.map Placed.cell) = ns.map nodeRow ∧
      (∀ r ∈ body, ∀ i < nodeHeaders.length, cut r i = cut top i) ∧
      (∀ i < nodeHeaders.length, cut top i = columnStart (nodeWidths ns) i) ∧
      ((∀ n ∈ ns, '\n' ∉ n.name.toList ∧ '\n' ∉ n.rpcAddress.toList) →
        Text.splitAll '\n' (nodes ns).toList = (top :: body).map rowChars ++ [[]]) := by
  refine ⟨layout (nodeWidths ns) nodeHeaders, (ns.map nodeRow).map (layout (nodeWidths ns)),
    toList_nodes hne, map_cell_layout (fit_nodeHeaders ns), ?_, ?_,
    fun i hi => cut_layout (fit_nodeHeaders ns) hi, splitAll_nodes hne⟩
  · rw [List.map_map]
    exact (List.map_congr_left fun row hrow => map_cell_layout (fit_nodeRow row hrow)).trans
      (List.map_id _)
  · intro r hr i hi
    obtain ⟨row, hrow, rfl⟩ := List.mem_map.mp hr
    have hlen : row.length = nodeHeaders.length :=
      (fit_nodeRow row hrow).length_eq.trans (fit_nodeHeaders ns).length_eq.symm
    rw [cut_layout (fit_nodeHeaders ns) hi, cut_layout (fit_nodeRow row hrow) (hlen ▸ hi)]

theorem nodes_aligned_wide_name : ∃ (top : List Placed) (body : List (List Placed)),
    (nodes [.create 1 "東京" "10.0.0.1:7443" 10]).toList =
      (top :: body).flatMap (fun r => rowChars r ++ ['\n']) ∧
    cut top 2 = 14 ∧ ∀ r ∈ body, cut r 2 = 14 := by
  have hne : [Node.create 1 "東京" "10.0.0.1:7443" 10] ≠ [] := List.cons_ne_nil _ _
  obtain ⟨top, body, htext, -, -, hsame, hstart, -⟩ := nodes_aligned hne
  have htop : cut top 2 = 14 := (hstart 2 (by decide)).trans (by decide)
  exact ⟨top, body, htext, htop, fun r hr => (hsame r hr 2 (by decide)).trans htop⟩

end Report

end PeerFleet
