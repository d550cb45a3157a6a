import Mathlib.Data.List.GetD
import CloudComputing.Lab1.Search

/-!
# The matrix of a board

The columns are numbered in the order in which the constructor appends them,
behind the root, and the rows follow with four nodes each: the cell, and the
digit in the row, the column and the box of the cell.
-/

namespace CloudComputing
namespace Lab1

open Dance

/-- The names of the columns that a digit in a cell covers. -/
def parts (candidate : Nat × Nat) : List Nat :=
  [candidate.1,
    getRowCol (rowOf candidate.1) candidate.2,
    getColCol (colOf candidate.1) candidate.2,
    getBoxCol (boxOf candidate.1) candidate.2]

/-- The names of columns, and the digits in cells that have a row. -/
structure Sheet where
  names : List Nat
  candidates : List (Nat × Nat)
  names_nodup : names.Nodup
  cell_lt : ∀ candidate ∈ candidates, candidate.1 < cellCount
  digit : ∀ candidate ∈ candidates, candidate.2 ∈ digits
  named : ∀ candidate ∈ candidates, parts candidate ⊆ names

theorem mem_digits {val : Nat} : val ∈ digits ↔ 1 ≤ val ∧ val ≤ 9 := by
  unfold digits
  rw [List.mem_range'_1]
  omega

/-- The four names are different. -/
theorem parts_nodup
    {candidate : Nat × Nat}
    (cell : candidate.1 < cellCount)
    (digit : candidate.2 ∈ digits) :
    (parts candidate).Nodup := by
  rw [mem_digits] at digit
  unfold cellCount at cell
  unfold parts getRowCol getColCol getBoxCol boxOf rowOf colOf
  simp only [List.nodup_cons, List.mem_cons, List.not_mem_nil, or_false,
    List.nodup_nil, and_true, not_or, not_false_eq_true]
  omega

namespace Sheet

variable (sheet : Sheet)

/-- The number of the first node of a row. -/
def base : Nat :=
  1 + sheet.names.length

/-- The number of the column with this name. -/
def header (name : Nat) : Nat :=
  1 + sheet.names.idxOf name

/-- The digit and the cell of a node. -/
def place (node : Nat) : Nat × Nat :=
  sheet.candidates.getD ((node - sheet.base) / 4) (0, 0)

/-- The name of a node. -/
def part (node : Nat) : Nat :=
  (parts (sheet.place node)).getD ((node - sheet.base) % 4) 0

/-- The nodes, four for each row. -/
def nodes : List Nat :=
  List.range' sheet.base (4 * sheet.candidates.length)

/-- A node of the same row, so many nodes further. -/
def beside (node steps : Nat) : Nat :=
  sheet.base + 4 * ((node - sheet.base) / 4) +
    ((node - sheet.base) % 4 + steps) % 4

/-- The other nodes of a row. -/
def mates (node : Nat) : List Nat :=
  [sheet.beside node 1, sheet.beside node 2, sheet.beside node 3]

variable {sheet}

theorem mem_nodes {node : Nat} :
    node ∈ sheet.nodes ↔
      sheet.base ≤ node ∧
        node < sheet.base + 4 * sheet.candidates.length :=
  List.mem_range'_1

/-- A row consists of four nodes that follow each other. -/
theorem mem_row
    {node : Nat}
    (member : node ∈ sheet.nodes)
    {other : Nat} :
    other ∈ node :: sheet.mates node ↔
      sheet.base ≤ other ∧
        (other - sheet.base) / 4 = (node - sheet.base) / 4 := by
  obtain ⟨bound, _⟩ := mem_nodes.mp member
  unfold mates beside
  simp only [List.mem_cons, List.not_mem_nil, or_false]
  omega

theorem mem_nodes_of_mem_row
    {node other : Nat}
    (member : node ∈ sheet.nodes)
    (inRow : other ∈ node :: sheet.mates node) :
    other ∈ sheet.nodes := by
  rw [mem_row member] at inRow
  rw [mem_nodes] at member ⊢
  omega

theorem place_of_mem_row
    {node other : Nat}
    (member : node ∈ sheet.nodes)
    (inRow : other ∈ node :: sheet.mates node) :
    sheet.place other = sheet.place node := by
  unfold place
  rw [((mem_row member).mp inRow).2]

theorem place_mem
    {node : Nat}
    (member : node ∈ sheet.nodes) :
    sheet.place node ∈ sheet.candidates := by
  have bound : (node - sheet.base) / 4 < sheet.candidates.length := by
    rw [mem_nodes] at member
    omega
  unfold place
  rw [List.getD_eq_getElem _ _ bound]
  exact List.getElem_mem bound

/-- The name of a node is one of the names of its digit in its cell. -/
theorem part_mem_parts (node : Nat) :
    sheet.part node ∈ parts (sheet.place node) := by
  have bound : (node - sheet.base) % 4 < (parts (sheet.place node)).length :=
    Nat.mod_lt _ (by decide)
  unfold part
  rw [List.getD_eq_getElem _ _ bound]
  exact List.getElem_mem bound

theorem part_mem
    {node : Nat}
    (member : node ∈ sheet.nodes) :
    sheet.part node ∈ sheet.names :=
  sheet.named _ (place_mem member) (part_mem_parts node)

/-- Different columns have different numbers. -/
theorem header_injective
    {first second : Nat}
    (listed : first ∈ sheet.names)
    (same : sheet.header first = sheet.header second) :
    first = second := by
  unfold header at same
  exact (List.idxOf_inj listed).mp (Nat.add_left_cancel same)

/-- The nodes of a row are in different columns. -/
theorem part_injective
    {node first second : Nat}
    (member : node ∈ sheet.nodes)
    (inRow : first ∈ node :: sheet.mates node)
    (inRow' : second ∈ node :: sheet.mates node)
    (same : sheet.part first = sheet.part second) :
    first = second := by
  have candidate := place_mem member
  have nodup := parts_nodup (sheet.cell_lt _ candidate)
    (sheet.digit _ candidate)
  have bound : ∀ other,
      (other - sheet.base) % 4 < (parts (sheet.place node)).length :=
    fun other => Nat.mod_lt _ (by decide)
  unfold part at same
  rw [place_of_mem_row member inRow, place_of_mem_row member inRow',
    List.getD_eq_getElem _ _ (bound first),
    List.getD_eq_getElem _ _ (bound second), nodup.getElem_inj_iff] at same
  have inRow := (mem_row member).mp inRow
  have inRow' := (mem_row member).mp inRow'
  omega

/-- The matrix. -/
def matrix (sheet : Sheet) : Matrix where
  heads := List.range' 1 sheet.names.length
  nodes := sheet.nodes
  col node := sheet.header (sheet.part node)
  name := sheet.part
  mates := sheet.mates
  heads_nodup := by
    rw [List.nodup_cons, List.mem_range'_1]
    exact ⟨by omega, List.nodup_range'⟩
  nodes_nodup := List.nodup_range'
  fresh := by
    intro node member
    rw [mem_nodes] at member
    rw [List.mem_cons, List.mem_range'_1]
    unfold base at member
    omega
  col_mem := by
    intro node member
    have bound := List.idxOf_lt_length_of_mem (part_mem member)
    rw [List.mem_range'_1]
    unfold header
    omega
  mates_mem := fun node member mate inRow =>
    mem_nodes_of_mem_row member (List.mem_cons_of_mem node inRow)
  cycle := by
    intro node member mate inRow other
    have inRow' := List.mem_cons_of_mem node inRow
    rw [mem_row (mem_nodes_of_mem_row member inRow'), mem_row member,
      ((mem_row member).mp inRow').2]
  apart := by
    intro node member
    have nodup : (node :: sheet.mates node).Nodup := by
      have bound := (mem_nodes.mp member).1
      unfold mates beside
      simp only [List.nodup_cons, List.mem_cons, List.not_mem_nil, or_false,
        List.nodup_nil, and_true, not_or, not_false_eq_true]
      omega
    apply nodup.map_on
    intro first inRow second inRow' same
    exact part_injective member inRow inRow' (header_injective
      (part_mem (mem_nodes_of_mem_row member inRow)) same)

end Sheet

/-! ## The names and the candidates of a board -/

/-- The empty ones of these cells. -/
def emptyCells (board : Board) (cells : List Nat) : List Nat :=
  cells.filter fun cell => board cell = 0

/-- The name, unless it is used. -/
def unused (used : Bool) (name : Nat) : List Nat :=
  if used then [] else [name]

/-- The names of a digit in the row, the column and the box of this number. -/
def unitNames (used : Used) (unit : Nat × Nat) : List Nat :=
  unused (used.rows unit.1 unit.2) (getRowCol unit.1 unit.2) ++
    unused (used.cols unit.1 unit.2) (getColCol unit.1 unit.2) ++
    unused (used.boxes unit.1 unit.2) (getBoxCol unit.1 unit.2)

/-- Each number with each digit. -/
def units : List (Nat × Nat) :=
  (List.range 9).flatMap fun index => digits.map (index, ·)

/-- The digit is in the row, the column or the box of the cell. -/
def Used.blocks (used : Used) (cell val : Nat) : Bool :=
  used.rows (rowOf cell) val || used.cols (colOf cell) val ||
    used.boxes (boxOf cell) val

/-- The digits that a cell can have. -/
def cellCandidates (used : Used) (cell : Nat) : List (Nat × Nat) :=
  (digits.filter fun val => !used.blocks cell val).map (cell, ·)

/-- The names of the columns, in their order. -/
def columnNames (board : Board) : List Nat :=
  emptyCells board (List.range cellCount) ++
    units.flatMap (unitNames (Used.of board))

/-- The rows, in their order. -/
def rowCandidates (board : Board) : List (Nat × Nat) :=
  (emptyCells board (List.range cellCount)).flatMap
    (cellCandidates (Used.of board))

theorem mem_units {unit : Nat × Nat} :
    unit ∈ units ↔ unit.1 < 9 ∧ unit.2 ∈ digits := by
  unfold units
  simp only [List.mem_flatMap, List.mem_map, List.mem_range]
  constructor
  · rintro ⟨index, less, val, isDigit, rfl⟩
    exact ⟨less, isDigit⟩
  · rintro ⟨less, isDigit⟩
    exact ⟨unit.1, less, unit.2, isDigit, rfl⟩

theorem units_nodup : units.Nodup := by
  decide

theorem mem_emptyCells {board : Board} {cells : List Nat} {cell : Nat} :
    cell ∈ emptyCells board cells ↔ cell ∈ cells ∧ board cell = 0 := by
  unfold emptyCells
  rw [List.mem_filter, decide_eq_true_eq]

theorem mem_unused {used : Bool} {name other : Nat} :
    other ∈ unused used name ↔ used = false ∧ other = name := by
  unfold unused
  cases used with
  | false => simp
  | true => simp

theorem mem_unitNames {used : Used} {unit : Nat × Nat} {name : Nat} :
    name ∈ unitNames used unit ↔
      (used.rows unit.1 unit.2 = false ∧ name = getRowCol unit.1 unit.2) ∨
        (used.cols unit.1 unit.2 = false ∧ name = getColCol unit.1 unit.2) ∨
        (used.boxes unit.1 unit.2 = false ∧
          name = getBoxCol unit.1 unit.2) := by
  unfold unitNames
  rw [List.mem_append, List.mem_append, mem_unused, mem_unused, mem_unused,
    or_assoc]

theorem mem_cellCandidates
    {used : Used}
    {cell : Nat}
    {candidate : Nat × Nat} :
    candidate ∈ cellCandidates used cell ↔
      candidate.1 = cell ∧ candidate.2 ∈ digits ∧
        used.blocks cell candidate.2 = false := by
  unfold cellCandidates
  simp only [List.mem_map, List.mem_filter, Bool.not_eq_true']
  constructor
  · rintro ⟨val, ⟨isDigit, free⟩, rfl⟩
    exact ⟨rfl, isDigit, free⟩
  · rintro ⟨rfl, isDigit, free⟩
    exact ⟨candidate.2, ⟨isDigit, free⟩, rfl⟩

theorem mem_columnNames {board : Board} {name : Nat} :
    name ∈ columnNames board ↔
      (name < cellCount ∧ board name = 0) ∨
        ∃ unit, unit.1 < 9 ∧ unit.2 ∈ digits ∧
          name ∈ unitNames (Used.of board) unit := by
  unfold columnNames
  simp only [List.mem_append, mem_emptyCells, List.mem_range,
    List.mem_flatMap, mem_units, and_assoc]

theorem mem_rowCandidates {board : Board} {candidate : Nat × Nat} :
    candidate ∈ rowCandidates board ↔
      candidate.1 < cellCount ∧ board candidate.1 = 0 ∧
        candidate.2 ∈ digits ∧
          (Used.of board).blocks candidate.1 candidate.2 = false := by
  unfold rowCandidates
  simp only [List.mem_flatMap, mem_emptyCells, List.mem_range,
    mem_cellCandidates]
  constructor
  · rintro ⟨cell, ⟨less, empty⟩, rfl, isDigit, free⟩
    exact ⟨less, empty, isDigit, free⟩
  · rintro ⟨less, empty, isDigit, free⟩
    exact ⟨candidate.1, ⟨less, empty⟩, rfl, isDigit, free⟩

/-- The names of different units are different. -/
theorem unitNames_disjoint
    {used : Used}
    {first second : Nat × Nat}
    (isUnit : first ∈ units)
    (isUnit' : second ∈ units)
    (differs : first ≠ second) :
    (unitNames used first).Disjoint (unitNames used second) := by
  rw [mem_units, mem_digits] at isUnit isUnit'
  intro name inside inside'
  rw [mem_unitNames] at inside inside'
  unfold getRowCol getColCol getBoxCol at inside inside'
  have apart : first.1 ≠ second.1 ∨ first.2 ≠ second.2 := by
    by_contra same
    push Not at same
    exact differs (Prod.ext same.1 same.2)
  omega

theorem columnNames_nodup (board : Board) : (columnNames board).Nodup := by
  unfold columnNames
  rw [List.nodup_append]
  refine ⟨List.nodup_range.filter _, ?_, ?_⟩
  · rw [List.nodup_flatMap]
    constructor
    · intro unit isUnit
      rw [mem_units, mem_digits] at isUnit
      have three : [getRowCol unit.1 unit.2, getColCol unit.1 unit.2,
          getBoxCol unit.1 unit.2].Nodup := by
        unfold getRowCol getColCol getBoxCol
        simp only [List.nodup_cons, List.mem_cons, List.not_mem_nil,
          or_false, List.nodup_nil, and_true, not_or, not_false_eq_true]
        omega
      refine List.Nodup.sublist ?_ three
      have fewer : ∀ (used : Bool) (name : Nat),
          (unused used name).Sublist [name] := by
        intro used name
        cases used with
        | false => exact List.Sublist.refl _
        | true => exact List.nil_sublist _
      exact ((fewer _ _).append (fewer _ _)).append (fewer _ _)
    · refine units_nodup.imp_of_mem ?_
      intro first second isUnit isUnit' differs
      exact unitNames_disjoint isUnit isUnit' differs
  · intro cell isCell name isName same
    rw [mem_emptyCells, List.mem_range] at isCell
    obtain ⟨unit, isUnit, inUnit⟩ := List.mem_flatMap.mp isName
    rw [mem_unitNames] at inUnit
    unfold getRowCol getColCol getBoxCol at inUnit
    unfold cellCount at isCell
    omega

/-- A list of lists that are not long. -/
theorem length_flatMap_le
    {α β : Type*}
    {inner : α → List β}
    {bound : Nat}
    {items : List α}
    (short : ∀ item ∈ items, (inner item).length ≤ bound) :
    (items.flatMap inner).length ≤ bound * items.length := by
  induction items with
  | nil => exact Nat.zero_le _
  | cons item items inductionHypothesis =>
      have first := short item List.mem_cons_self
      have others := inductionHypothesis fun other inside =>
        short other (List.mem_cons_of_mem item inside)
      rw [List.flatMap_cons, List.length_append, List.length_cons,
        Nat.mul_succ]
      omega

theorem length_emptyCells_le (board : Board) :
    (emptyCells board (List.range cellCount)).length ≤ 81 := by
  have fewer : (emptyCells board (List.range cellCount)).length ≤ _ :=
    List.length_filter_le _ _
  rw [List.length_range] at fewer
  exact fewer

/-- There are at most 324 columns. -/
theorem length_columnNames_le (board : Board) :
    (columnNames board).length ≤ 81 * 4 := by
  have single : ∀ (used : Bool) (name : Nat),
      (unused used name).length ≤ 1 := by
    intro used name
    cases used with
    | false => exact le_refl 1
    | true => exact Nat.zero_le 1
  have short : ∀ unit ∈ units,
      (unitNames (Used.of board) unit).length ≤ 3 := by
    intro unit _
    unfold unitNames
    rw [List.length_append, List.length_append]
    have row := single ((Used.of board).rows unit.1 unit.2)
      (getRowCol unit.1 unit.2)
    have col := single ((Used.of board).cols unit.1 unit.2)
      (getColCol unit.1 unit.2)
    have box := single ((Used.of board).boxes unit.1 unit.2)
      (getBoxCol unit.1 unit.2)
    omega
  have cells := length_emptyCells_le board
  have others := length_flatMap_le short
  have count : units.length = 81 := by decide
  unfold columnNames
  rw [List.length_append]
  omega

/-- There are at most 729 rows. -/
theorem length_rowCandidates_le (board : Board) :
    (rowCandidates board).length ≤ 9 * 9 * 9 := by
  have short : ∀ cell ∈ emptyCells board (List.range cellCount),
      (cellCandidates (Used.of board) cell).length ≤ 9 := by
    intro cell _
    unfold cellCandidates
    rw [List.length_map]
    exact List.length_filter_le _ digits
  have cells := length_emptyCells_le board
  have rows := length_flatMap_le short
  unfold rowCandidates
  omega

/-- The columns of a candidate are not used, so they have names. -/
theorem parts_named
    {board : Board}
    {candidate : Nat × Nat}
    (member : candidate ∈ rowCandidates board) :
    parts candidate ⊆ columnNames board := by
  obtain ⟨less, empty, isDigit, free⟩ := mem_rowCandidates.mp member
  unfold Used.blocks at free
  rw [Bool.or_eq_false_iff, Bool.or_eq_false_iff] at free
  obtain ⟨⟨freeRow, freeCol⟩, freeBox⟩ := free
  unfold cellCount at less
  unfold parts
  simp only [List.cons_subset, List.nil_subset, and_true]
  refine ⟨mem_columnNames.mpr (Or.inl ⟨less, empty⟩), ?_, ?_, ?_⟩
  · refine mem_columnNames.mpr (Or.inr ⟨(rowOf candidate.1, candidate.2), ?_,
      isDigit, mem_unitNames.mpr (Or.inl ⟨freeRow, rfl⟩)⟩)
    unfold rowOf
    omega
  · refine mem_columnNames.mpr (Or.inr ⟨(colOf candidate.1, candidate.2), ?_,
      isDigit, mem_unitNames.mpr (Or.inr (Or.inl ⟨freeCol, rfl⟩))⟩)
    unfold colOf
    omega
  · refine mem_columnNames.mpr (Or.inr ⟨(boxOf candidate.1, candidate.2), ?_,
      isDigit, mem_unitNames.mpr (Or.inr (Or.inr ⟨freeBox, rfl⟩))⟩)
    unfold boxOf rowOf colOf
    omega

/-- The sheet with the first ones of the candidates of a board. -/
def Sheet.of
    (board : Board)
    (candidates : List (Nat × Nat))
    (listed : candidates ⊆ rowCandidates board) : Sheet where
  names := columnNames board
  candidates := candidates
  names_nodup := columnNames_nodup board
  cell_lt := fun _ member =>
    (mem_rowCandidates.mp (listed member)).1
  digit := fun _ member =>
    (mem_rowCandidates.mp (listed member)).2.2.1
  named := fun _ member => parts_named (listed member)

namespace Sheet

variable {sheet : Sheet}

/-- A node of a row has one of the four names. -/
theorem part_cases
    {node : Nat}
    (member : node ∈ sheet.nodes) :
    (sheet.part node < 100 ∧ sheet.part node = (sheet.place node).1) ∨
      (¬sheet.part node < 100 ∧
        sheet.part node % 10 = (sheet.place node).2) := by
  have candidate := place_mem member
  have cell := sheet.cell_lt _ candidate
  have digit := mem_digits.mp (sheet.digit _ candidate)
  have inside : sheet.part node ∈ parts (sheet.place node) :=
    part_mem_parts node
  unfold cellCount at cell
  unfold parts getRowCol getColCol getBoxCol at inside
  simp only [List.mem_cons, List.not_mem_nil, or_false] at inside
  omega

/-- The node at this position of a row. -/
theorem exists_part
    {node steps : Nat}
    (member : node ∈ sheet.nodes)
    (less : steps < 4) :
    ∃ mate ∈ node :: sheet.mates node,
      sheet.part mate = (parts (sheet.place node)).getD steps 0 := by
  let mate := sheet.base + 4 * ((node - sheet.base) / 4) + steps
  have inRow : mate ∈ node :: sheet.mates node := by
    rw [mem_row member]
    omega
  have position : (mate - sheet.base) % 4 = steps := by omega
  refine ⟨mate, inRow, ?_⟩
  unfold part
  rw [place_of_mem_row member inRow, position]

/-- The first node of a row is the one of the cell, and the second one has a
name with the digit. -/
theorem places : sheet.matrix.Places sheet.place where
  cell := by
    intro node member
    obtain ⟨mate, inRow, isCell⟩ := exists_part member (by decide : 0 < 4)
    have less := sheet.cell_lt _ (place_mem member)
    refine ⟨mate, inRow, ?_⟩
    change sheet.part mate < 100
    rw [isCell]
    exact less.trans (by decide)
  digit := by
    intro node member
    obtain ⟨mate, inRow, isDigit⟩ := exists_part member (by decide : 1 < 4)
    refine ⟨mate, inRow, ?_⟩
    change ¬sheet.part mate < 100
    rw [isDigit]
    change ¬getRowCol (rowOf (sheet.place node).1) (sheet.place node).2 < 100
    unfold getRowCol
    omega
  cell_eq := by
    intro node member mate inRow isCell
    have inNodes := mem_nodes_of_mem_row member inRow
    rw [← place_of_mem_row member inRow]
    rcases part_cases inNodes with ⟨_, same⟩ | ⟨notCell, _⟩
    · exact same
    · exact absurd isCell notCell
  digit_eq := by
    intro node member mate inRow notCell
    have inNodes := mem_nodes_of_mem_row member inRow
    rw [← place_of_mem_row member inRow]
    rcases part_cases inNodes with ⟨isCell, _⟩ | ⟨_, same⟩
    · exact absurd isCell notCell
    · exact same

/-- The columns that a row covers. -/
theorem mem_covers
    {node name : Nat}
    (member : node ∈ sheet.nodes) :
    sheet.header name ∈ sheet.matrix.covers node ↔
      name ∈ parts (sheet.place node) := by
  constructor
  · intro covered
    obtain ⟨mate, inRow, same⟩ := List.mem_map.mp covered
    have isName : sheet.part mate = name :=
      header_injective (part_mem (mem_nodes_of_mem_row member inRow)) same
    rw [← isName, ← place_of_mem_row member inRow]
    exact part_mem_parts mate
  · intro isPart
    obtain ⟨steps, less, isName⟩ := List.getElem_of_mem isPart
    obtain ⟨mate, inRow, part⟩ := exists_part member less
    rw [List.getD_eq_getElem _ _ less, isName] at part
    exact List.mem_map.mpr ⟨mate, inRow, congrArg sheet.header part⟩

/-- The columns are those of the names. -/
theorem mem_heads {head : Nat} :
    head ∈ sheet.matrix.heads ↔ ∃ name ∈ sheet.names, sheet.header name = head := by
  change head ∈ List.range' 1 sheet.names.length ↔ _
  rw [List.mem_range'_1]
  unfold header
  constructor
  · rintro ⟨low, high⟩
    have bound : head - 1 < sheet.names.length := by omega
    refine ⟨sheet.names[head - 1], List.getElem_mem bound, ?_⟩
    rw [sheet.names_nodup.idxOf_getElem]
    omega
  · rintro ⟨name, listed, rfl⟩
    have bound := List.idxOf_lt_length_of_mem listed
    omega

/-- Each candidate has a row. -/
theorem exists_place
    {candidate : Nat × Nat}
    (listed : candidate ∈ sheet.candidates) :
    ∃ node ∈ sheet.nodes, sheet.place node = candidate := by
  obtain ⟨position, less, isCandidate⟩ := List.getElem_of_mem listed
  refine ⟨sheet.base + 4 * position, ?_, ?_⟩
  · rw [mem_nodes]
    omega
  · have row : (sheet.base + 4 * position - sheet.base) / 4 = position := by
      omega
    unfold place
    rw [row, List.getD_eq_getElem _ _ less, isCandidate]

/-! ## One more row -/

/-- The sheet with one more row. -/
structure Adds (sheet next : Sheet) (candidate : Nat × Nat) : Prop where
  names : next.names = sheet.names
  candidates : next.candidates = sheet.candidates ++ [candidate]

namespace Adds

variable {next : Sheet} {candidate : Nat × Nat}

/-- The number of the first one of the new nodes. -/
def first (sheet : Sheet) : Nat :=
  sheet.base + 4 * sheet.candidates.length

theorem base (adds : sheet.Adds next candidate) : next.base = sheet.base := by
  unfold Sheet.base
  rw [adds.names]

theorem header (adds : sheet.Adds next candidate) (name : Nat) :
    next.header name = sheet.header name := by
  unfold Sheet.header
  rw [adds.names]

theorem mates (adds : sheet.Adds next candidate) (node : Nat) :
    next.mates node = sheet.mates node := by
  unfold Sheet.mates Sheet.beside
  rw [adds.base]

theorem nodes (adds : sheet.Adds next candidate) :
    next.nodes = sheet.nodes ++
      [first sheet, first sheet + 1, first sheet + 2, first sheet + 3] := by
  unfold Sheet.nodes first
  rw [adds.base, adds.candidates, List.length_append, List.length_singleton,
    Nat.mul_add, ← List.range'_append_1]
  rfl

/-- An old node or one of the four new ones. -/
theorem node_cases
    (adds : sheet.Adds next candidate)
    {node : Nat}
    (member : node ∈ next.nodes) :
    (node ∈ sheet.nodes ∧ node < first sheet) ∨
      ∃ steps < 4, node = first sheet + steps := by
  rw [mem_nodes, adds.base, adds.candidates, List.length_append,
    List.length_singleton] at member
  rw [mem_nodes]
  unfold first
  by_cases old : node < sheet.base + 4 * sheet.candidates.length
  · left
    omega
  · right
    exact ⟨node - (sheet.base + 4 * sheet.candidates.length), by omega,
      by omega⟩

/-- The old nodes have the names that they had. -/
theorem part_old
    (adds : sheet.Adds next candidate)
    {node : Nat}
    (member : node ∈ sheet.nodes) :
    next.part node = sheet.part node := by
  rw [mem_nodes] at member
  have bound : (node - sheet.base) / 4 < sheet.candidates.length := by
    omega
  unfold part place
  rw [adds.base, adds.candidates, List.getD_append _ _ _ _ bound]

/-- The new nodes have the names of the candidate. -/
theorem part_new
    (adds : sheet.Adds next candidate)
    {steps : Nat}
    (less : steps < 4) :
    next.part (first sheet + steps) = (parts candidate).getD steps 0 := by
  have row : (first sheet + steps - sheet.base) / 4 =
      sheet.candidates.length := by
    unfold first
    omega
  have position : (first sheet + steps - sheet.base) % 4 = steps := by
    unfold first
    omega
  unfold part place
  rw [adds.base, adds.candidates, row, position,
    List.getD_append_right _ _ _ _ (le_refl _), Nat.sub_self]
  rfl

/-- The ring of a new row, from each of its nodes. -/
theorem ring
    (adds : sheet.Adds next candidate)
    {right left : Nat → Nat}
    (ring : Ring right left (first sheet)
      [first sheet + 1, first sheet + 2, first sheet + 3])
    {steps : Nat}
    (less : steps < 4) :
    Ring right left (first sheet + steps)
      (next.mates (first sheet + steps)) := by
  have row : (first sheet + steps - sheet.base) / 4 =
      sheet.candidates.length := by
    unfold first
    omega
  have position : (first sheet + steps - sheet.base) % 4 = steps := by
    unfold first
    omega
  have four : steps = 0 ∨ steps = 1 ∨ steps = 2 ∨ steps = 3 := by omega
  rw [adds.mates]
  unfold Sheet.mates beside
  rw [row, position]
  change Ring right left _ [first sheet + _, first sheet + _, first sheet + _]
  rcases four with rfl | rfl | rfl | rfl
  · exact ring
  · have rotated : Ring right left (first sheet)
        ([] ++ (first sheet + 1) :: [first sheet + 2, first sheet + 3]) := ring
    exact rotated.rotate
  · have rotated : Ring right left (first sheet)
        ([first sheet + 1] ++ (first sheet + 2) :: [first sheet + 3]) := ring
    exact rotated.rotate
  · have rotated : Ring right left (first sheet)
        ([first sheet + 1, first sheet + 2] ++ (first sheet + 3) :: []) := ring
    exact rotated.rotate

end Adds

end Sheet

end Lab1
end CloudComputing
