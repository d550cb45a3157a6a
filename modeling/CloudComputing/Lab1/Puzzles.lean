import CloudComputing.Lab1.Board
import CloudComputing.Lab1.Construction

/-!
# Solving puzzles

The exact covers of the matrix of a board are its solutions: the digits that a
unit has already need no column, and a digit that stands twice in a unit leaves
it with fewer cells than columns.
-/

namespace CloudComputing
namespace Lab1

open Dance

namespace Kind

/-- The column of a digit in a unit. -/
def name : Kind → Nat → Nat → Nat
  | row => getRowCol
  | col => getColCol
  | box => getBoxCol

/-- The table of the digits that the units have. -/
def used (table : Used) : Kind → Nat → Nat → Bool
  | row => table.rows
  | col => table.cols
  | box => table.boxes

/-- Different digits in different units have different columns. -/
theorem name_injective
    {kind kind' : Kind}
    {unit unit' val val' : Nat}
    (isUnit : unit < 9)
    (isUnit' : unit' < 9)
    (isDigit : val ∈ digits)
    (isDigit' : val' ∈ digits)
    (same : kind.name unit val = kind'.name unit' val') :
    kind = kind' ∧ unit = unit' ∧ val = val' := by
  rw [mem_digits] at isDigit isDigit'
  cases kind <;> cases kind' <;>
    simp only [name, getRowCol, getColCol, getBoxCol] at same <;>
    first
      | exact ⟨rfl, by omega, by omega⟩
      | omega

/-- Cells are not columns of units. -/
theorem le_name (kind : Kind) (unit val : Nat) : 100 ≤ kind.name unit val := by
  cases kind <;> simp only [name, getRowCol, getColCol, getBoxCol] <;> omega

end Kind

theorem setTrue_eq_true
    {table : Nat → Nat → Bool}
    {index val unit other : Nat} :
    setTrue table index val unit other = true ↔
      table unit other = true ∨ (index = unit ∧ val = other) := by
  unfold setTrue
  rw [Function.update_apply]
  split
  case isTrue same =>
    subst same
    rw [Function.update_apply]
    split
    case isTrue same => simp [same]
    case isFalse differs => simp [Ne.symm differs]
  case isFalse differs => simp [Ne.symm differs]

/-- The tables have the digits of the cells. -/
theorem used_of {board : Board} {kind : Kind} {unit val : Nat} :
    kind.used (Used.of board) unit val = true ↔
      ∃ cell < cellCount, kind.index cell = unit ∧ board cell = val := by
  have go : ∀ (cells : List Nat) (start : Used),
      kind.used (cells.foldl (Used.add board) start) unit val = true ↔
        kind.used start unit val = true ∨
          ∃ cell ∈ cells, kind.index cell = unit ∧ board cell = val := by
    intro cells
    induction cells with
    | nil => simp
    | cons cell cells inductionHypothesis =>
        intro start
        have added : kind.used (Used.add board start cell) unit val = true ↔
            kind.used start unit val = true ∨
              (kind.index cell = unit ∧ board cell = val) := by
          cases kind with
          | row => exact setTrue_eq_true
          | col => exact setTrue_eq_true
          | box => exact setTrue_eq_true
        rw [List.foldl_cons, inductionHypothesis, added, or_assoc]
        simp only [List.mem_cons, exists_eq_or_imp]
  have start : kind.used ⟨fun _ _ => false, fun _ _ => false,
      fun _ _ => false⟩ unit val = false := by
    cases kind with
    | row => rfl
    | col => rfl
    | box => rfl
  unfold Used.of
  rw [go, start]
  simp only [Bool.false_eq_true, false_or, List.mem_range]

theorem used_of_eq_false {board : Board} {kind : Kind} {unit val : Nat} :
    kind.used (Used.of board) unit val = false ↔
      ∀ cell < cellCount, kind.index cell = unit → board cell ≠ val := by
  rw [← Bool.not_eq_true, used_of]
  push Not
  rfl

/-- The names that a digit in a cell covers. -/
theorem mem_parts {candidate : Nat × Nat} {name : Nat} :
    name ∈ parts candidate ↔ name = candidate.1 ∨
      ∃ kind : Kind, name = kind.name (kind.index candidate.1) candidate.2 := by
  unfold parts
  simp only [List.mem_cons, List.not_mem_nil, or_false]
  constructor
  · rintro (isCell | isRow | isCol | isBox)
    · exact Or.inl isCell
    · exact Or.inr ⟨Kind.row, isRow⟩
    · exact Or.inr ⟨Kind.col, isCol⟩
    · exact Or.inr ⟨Kind.box, isBox⟩
  · rintro (isCell | ⟨kind, isName⟩)
    · exact Or.inl isCell
    · cases kind with
      | row => exact Or.inr (Or.inl isName)
      | col => exact Or.inr (Or.inr (Or.inl isName))
      | box => exact Or.inr (Or.inr (Or.inr isName))

/-- The names of the columns: the empty cells, and the digits that the units
lack. -/
theorem mem_columnNames_iff {board : Board} {name : Nat} :
    name ∈ columnNames board ↔
      (name < cellCount ∧ board name = 0) ∨
        ∃ (kind : Kind), ∃ unit < 9, ∃ val ∈ digits,
          kind.used (Used.of board) unit val = false ∧
            name = kind.name unit val := by
  rw [mem_columnNames]
  apply or_congr_right
  constructor
  · rintro ⟨unit, isUnit, isDigit, inUnit⟩
    rcases mem_unitNames.mp inUnit with ⟨free, isName⟩ | ⟨free, isName⟩ |
      ⟨free, isName⟩
    · exact ⟨Kind.row, unit.1, isUnit, unit.2, isDigit, free, isName⟩
    · exact ⟨Kind.col, unit.1, isUnit, unit.2, isDigit, free, isName⟩
    · exact ⟨Kind.box, unit.1, isUnit, unit.2, isDigit, free, isName⟩
  · rintro ⟨kind, unit, isUnit, val, isDigit, free, isName⟩
    refine ⟨(unit, val), isUnit, isDigit, mem_unitNames.mpr ?_⟩
    cases kind with
    | row => exact Or.inl ⟨free, isName⟩
    | col => exact Or.inr (Or.inl ⟨free, isName⟩)
    | box => exact Or.inr (Or.inr ⟨free, isName⟩)

theorem blocks_eq_false {used : Used} {cell val : Nat} :
    used.blocks cell val = false ↔
      ∀ kind : Kind, kind.used used (kind.index cell) val = false := by
  unfold Used.blocks
  rw [Bool.or_eq_false_iff, Bool.or_eq_false_iff]
  constructor
  · rintro ⟨⟨freeRow, freeCol⟩, freeBox⟩ kind
    cases kind with
    | row => exact freeRow
    | col => exact freeCol
    | box => exact freeBox
  · intro free
    exact ⟨⟨free Kind.row, free Kind.col⟩, free Kind.box⟩

/-! ## Exact covers and solutions -/

/-- The sheet that the constructor makes of a board. -/
abbrev sheetOf (board : Board) : Sheet :=
  Sheet.of board (rowCandidates board) (List.Subset.refl _)

theorem header_mem_linked {board : Board} {name : Nat} :
    name ∈ columnNames board →
      (sheetOf board).header name ∈ (sheetOf board).matrix.linked [] := by
  intro listed
  rw [Matrix.mem_linked]
  exact ⟨Sheet.mem_heads.mpr ⟨name, listed, rfl⟩, List.not_mem_nil⟩

/-- A cell without a row keeps its digit. -/
theorem placed_of_notMem
    {place : Nat → Nat × Nat}
    {chosen : List Nat}
    {cell : Nat}
    (other : ∀ node ∈ chosen, (place node).1 ≠ cell)
    (board : Board) :
    Matrix.placed place board chosen cell = board cell := by
  induction chosen generalizing board with
  | nil => rfl
  | cons node chosen inductionHypothesis =>
      have further := inductionHypothesis (fun other' inside =>
        other other' (List.mem_cons_of_mem node inside))
        (Function.update board (place node).1 (place node).2)
      have differs := other node List.mem_cons_self
      rw [Function.update_of_ne differs.symm] at further
      exact further

/-- A cell whose rows have the same digit gets it. -/
theorem placed_of_mem
    {place : Nat → Nat × Nat}
    {chosen : List Nat}
    {cell val : Nat}
    (same : ∀ node ∈ chosen, (place node).1 = cell → (place node).2 = val) :
    ∀ board : Board, (∃ node ∈ chosen, (place node).1 = cell) ∨
        board cell = val →
      Matrix.placed place board chosen cell = val := by
  induction chosen with
  | nil =>
      rintro board (⟨node, inside, _⟩ | already)
      · cases inside
      · exact already
  | cons node chosen inductionHypothesis =>
      intro board found
      have further := inductionHypothesis (fun other inside =>
        same other (List.mem_cons_of_mem node inside))
        (Function.update board (place node).1 (place node).2)
      refine further ?_
      by_cases isCell : (place node).1 = cell
      · right
        rw [isCell, same node List.mem_cons_self isCell,
          Function.update_self]
      · rw [Function.update_of_ne (Ne.symm isCell)]
        rcases found with ⟨other, inside, isCell'⟩ | already
        · rcases List.mem_cons.mp inside with rfl | inside
          · exact absurd isCell' isCell
          · exact Or.inl ⟨other, inside, isCell'⟩
        · exact Or.inr already

/-- The rows of an exact cover make a solution. -/
theorem completes_of_exact
    {board : Board}
    {chosen : List Nat}
    (exact : (sheetOf board).matrix.Exact [] {node | node ∈ chosen}) :
    Completes board (Matrix.placed (sheetOf board).place board chosen) := by
  have candidates : ∀ node ∈ chosen,
      (sheetOf board).place node ∈ rowCandidates board :=
    fun node inside => Sheet.place_mem (exact.rows inside)
  have keeps : Keeps board
      (Matrix.placed (sheetOf board).place board chosen) := by
    intro cell less given
    apply placed_of_notMem
    rintro node inside rfl
    exact given (mem_rowCandidates.mp (candidates node inside)).2.1
  have puts : ∀ node ∈ chosen,
      Matrix.placed (sheetOf board).place board chosen
          ((sheetOf board).place node).1 =
        ((sheetOf board).place node).2 := by
    intro node inside
    obtain ⟨less, empty, _⟩ := mem_rowCandidates.mp (candidates node inside)
    have listed := header_mem_linked
      (mem_columnNames_iff.mpr (Or.inl ⟨less, empty⟩))
    obtain ⟨_, _, unique⟩ := exact.once _ listed
    refine placed_of_mem ?_ board (Or.inl ⟨node, inside, rfl⟩)
    intro other inside' sameCell
    have covers := (Sheet.mem_covers (exact.rows inside)).mpr
      (mem_parts.mpr (Or.inl rfl))
    have covers' := (Sheet.mem_covers (exact.rows inside')).mpr
      (mem_parts.mpr (Or.inl sameCell.symm))
    have same := (unique other ⟨inside', covers'⟩).trans
      (unique node ⟨inside, covers⟩).symm
    rw [same]
  refine ⟨keeps, valid_iff.mpr ?_⟩
  intro kind unit isUnit val isDigit
  cases isUsed : kind.used (Used.of board) unit val with
  | true =>
      obtain ⟨cell, less, isIn, isVal⟩ := used_of.mp isUsed
      refine ⟨cell, less, isIn, ?_⟩
      have given : board cell ≠ 0 := by
        rw [isVal]
        exact Nat.ne_of_gt (mem_digits.mp isDigit).1
      rw [keeps cell less given, isVal]
  | false =>
      have listed := header_mem_linked (mem_columnNames_iff.mpr
        (Or.inr ⟨kind, unit, isUnit, val, isDigit, isUsed, rfl⟩))
      obtain ⟨node, ⟨inside, covers⟩, _⟩ := exact.once _ listed
      rw [Sheet.mem_covers (exact.rows inside), mem_parts] at covers
      obtain ⟨less, _, isDigit', _⟩ :=
        mem_rowCandidates.mp (candidates node inside)
      rcases covers with isCell | ⟨kind', isName⟩
      · have large := kind.le_name unit val
        unfold cellCount at less
        omega
      · obtain ⟨rfl, isIn, isVal⟩ := Kind.name_injective isUnit
          (kind'.index_lt less) isDigit isDigit' isName
        exact ⟨_, less, isIn.symm, (puts node inside).trans isVal.symm⟩

/-- The digit that a solution puts in an empty cell has a row. -/
theorem Completes.candidate
    {board filled : Board}
    (completes : Completes board filled)
    {cell : Nat}
    (less : cell < cellCount)
    (empty : board cell = 0) :
    (cell, filled cell) ∈ rowCandidates board := by
  have isDigit := completes.valid.digit less
  refine mem_rowCandidates.mpr ⟨less, empty, isDigit,
    blocks_eq_false.mpr ?_⟩
  intro kind
  rw [used_of_eq_false]
  intro other less' sameUnit same
  change board other = filled cell at same
  have given : board other ≠ 0 := by
    rw [same]
    exact Nat.ne_of_gt (mem_digits.mp isDigit).1
  have sameDigit := (completes.keeps other less' given).trans same
  have isCell := completes.valid.injective kind less' less sameUnit sameDigit
  rw [isCell] at given
  exact given empty

/-- The digits of a solution make an exact cover. -/
theorem Completes.solvable
    {board filled : Board}
    (completes : Completes board filled) :
    (sheetOf board).matrix.Solvable [] := by
  have rows : ∀ cell, cell < cellCount → board cell = 0 →
      ∃ node, node ∈ (sheetOf board).nodes ∧
        (sheetOf board).place node = (cell, filled cell) := by
    intro cell less empty
    exact Sheet.exists_place (completes.candidate less empty)
  choose! row isNode isPlace using rows
  refine ⟨{node | ∃ cell < cellCount, board cell = 0 ∧ row cell = node}, ?_,
    ?_, ?_⟩
  · rintro node ⟨cell, less, empty, rfl⟩
    exact isNode cell less empty
  · rintro node ⟨cell, less, empty, rfl⟩ column covered
    obtain ⟨mate, inRow, rfl⟩ := List.mem_map.mp covered
    have member := Sheet.mem_nodes_of_mem_row (isNode cell less empty) inRow
    exact Matrix.mem_linked.mpr
      ⟨(sheetOf board).matrix.col_mem mate member, List.not_mem_nil⟩
  · intro column listed
    obtain ⟨name, isName, rfl⟩ :=
      Sheet.mem_heads.mp (Matrix.mem_linked.mp listed).1
    have covers : ∀ cell, cell < cellCount → board cell = 0 →
        ((sheetOf board).header name ∈
            (sheetOf board).matrix.covers (row cell) ↔
          name = cell ∨ ∃ kind : Kind,
            name = kind.name (kind.index cell) (filled cell)) := by
      intro cell less empty
      rw [Sheet.mem_covers (isNode cell less empty), mem_parts,
        isPlace cell less empty]
    rcases mem_columnNames_iff.mp isName with ⟨less, empty⟩ |
      ⟨kind, unit, isUnit, val, isDigit, free, rfl⟩
    · refine ⟨row name, ⟨⟨name, less, empty, rfl⟩,
        (covers name less empty).mpr (Or.inl rfl)⟩, ?_⟩
      rintro node ⟨⟨cell, less', empty', rfl⟩, covered⟩
      rcases (covers cell less' empty').mp covered with isCell |
        ⟨kind, isName'⟩
      · rw [isCell]
      · have large := kind.le_name (kind.index cell) (filled cell)
        unfold cellCount at less
        omega
    · obtain ⟨cell, less, isIn, isVal⟩ :=
        valid_iff.mp completes.valid kind unit isUnit val isDigit
      have empty : board cell = 0 := by
        by_contra given
        apply used_of_eq_false.mp free cell less isIn
        rw [← completes.keeps cell less given, isVal]
      refine ⟨row cell, ⟨⟨cell, less, empty, rfl⟩,
        (covers cell less empty).mpr (Or.inr ⟨kind, ?_⟩)⟩, ?_⟩
      · rw [isIn, isVal]
      · rintro node ⟨⟨other, less', empty', rfl⟩, covered⟩
        rcases (covers other less' empty').mp covered with isCell |
          ⟨kind', isName'⟩
        · have large := kind.le_name unit val
          unfold cellCount at less'
          omega
        · obtain ⟨rfl, isIn', isVal'⟩ := Kind.name_injective isUnit
            (kind'.index_lt less') isDigit (completes.valid.digit less')
            isName'
          have same := completes.valid.injective kind less' less
            (isIn'.symm.trans isIn.symm) (isVal'.symm.trans isVal.symm)
          rw [same]

/-! ## The solver -/

/-- Fuel for every loop of the solver. -/
theorem bounds {fuel : Nat} (board : Board) (enough : kMaxNodes < fuel) :
    (sheetOf board).matrix.nodes.length + 1 < fuel ∧
      (sheetOf board).matrix.heads.length < fuel := by
  have columns := length_columnNames_le board
  have rows := length_rowCandidates_le board
  have nodes : (sheetOf board).matrix.nodes.length =
      4 * (rowCandidates board).length := List.length_range'
  have heads : (sheetOf board).matrix.heads.length =
      (columnNames board).length := List.length_range'
  unfold kMaxNodes at enough
  omega

/-- The solver returns, with a solution or with the board as it was. -/
theorem solveSudokuDancingLinks_spec
    {board : Board}
    (entries : ∀ cell < cellCount, board cell ≤ 9)
    {fuel : Nat}
    (enough : kMaxNodes < fuel) :
    (∃ filled, solveSudokuDancingLinks fuel board = some (true, filled) ∧
        Completes board filled ∧
        ∀ cell, cellCount ≤ cell → filled cell = board cell) ∨
      (solveSudokuDancingLinks fuel board = some (false, board) ∧
        ¬∃ filled, Completes board filled) := by
  obtain ⟨d, made, filled⟩ := make_spec entries
  obtain ⟨enough', enough''⟩ := bounds board enough
  have listed : ∀ node ∈ d.stack, node ∈ (sheetOf board).matrix.nodes := by
    rw [filled.stack]
    intro node inside
    cases inside
  have short : ((sheetOf board).matrix.linked []).length < fuel :=
    (List.length_filter_le _ _).trans_lt enough''
  obtain ⟨result, solved, searched⟩ := Matrix.Holds.solve Sheet.places enough'
    enough'' fuel [] d filled.holds listed short
  have executed : solveSudokuDancingLinks fuel board =
      some (result.1, result.2.inout) := by
    unfold solveSudokuDancingLinks
    rw [made]
    change ((d.solve fuel fuel).bind _) = _
    rw [solved]
    rfl
  rw [executed]
  cases searched with
  | found chosen next exact inout =>
      left
      rw [filled.inout, filled.stack, List.nil_append] at inout
      refine ⟨next.inout, rfl, ?_, ?_⟩
      · rw [inout]
        exact completes_of_exact exact
      · intro cell outside
        rw [inout]
        apply placed_of_notMem
        rintro node inside rfl
        have candidate := Sheet.place_mem (exact.rows inside)
        exact absurd (mem_rowCandidates.mp candidate).1 (Nat.not_lt.mpr outside)
  | failed none =>
      right
      rw [filled.inout]
      refine ⟨rfl, ?_⟩
      rintro ⟨solution, completes⟩
      exact none completes.solvable

/-- The solver is sound and complete: it returns, it returns true exactly if
there is a solution, it leaves a solution on the board or else the board as it
was, and no assertion of `Run` fails. -/
theorem solver_correct
    {board : Board}
    (entries : ∀ cell < cellCount, board cell ≤ 9)
    {fuel : Nat}
    (enough : kMaxNodes < fuel) :
    ∃ found after,
      solveSudokuDancingLinks fuel board = some (found, after) ∧
      (found = true ↔ ∃ filled, Completes board filled) ∧
      (found = true → Completes board after ∧ solved after = some true) ∧
      (found = false → after = board) ∧
      runBoard fuel board = some (if found then some after else none) := by
  rcases solveSudokuDancingLinks_spec entries enough with
    ⟨filled, executed, completes, _⟩ | ⟨executed, none⟩
  · have isSolved := completes.valid.solved
    refine ⟨true, filled, executed, ?_, ?_, ?_, ?_⟩
    · exact iff_of_true rfl ⟨filled, completes⟩
    · exact fun _ => ⟨completes, isSolved⟩
    · intro absurd
      cases absurd
    · have run : runBoard fuel board = (solved filled).bind fun ok =>
          if ok then some (some filled) else none := by
        unfold runBoard
        rw [executed]
        rfl
      rw [run, isSolved]
      rfl
  · refine ⟨false, board, executed, ?_, ?_, ?_, ?_⟩
    · exact iff_of_false Bool.false_ne_true none
    · intro absurd
      cases absurd
    · exact fun _ => rfl
    · unfold runBoard
      rw [executed]
      rfl

/-- A puzzle with one empty cell. -/
def nearlyFull : Board := fun cell =>
  if cell = 0 then 0
  else (cell / 9 * 3 + cell / 9 / 3 + cell % 9) % 9 + 1

theorem solver_correct_nearlyFull :
    ∃ found after,
      solveSudokuDancingLinks 4000 nearlyFull = some (found, after) ∧
      (found = true ↔ ∃ filled, Completes nearlyFull filled) ∧
      (found = true → Completes nearlyFull after ∧
        solved after = some true) ∧
      (found = false → after = nearlyFull) ∧
      runBoard 4000 nearlyFull = some (if found then some after else none) := by
  apply solver_correct
  · decide
  · decide

end Lab1
end CloudComputing
