import Mathlib.Data.List.Perm.Subperm
import CloudComputing.Lab1.Dance

/-!
# Boards

`input` and `find_spaces`, `solved`, and what `Run` does with one puzzle.  A
failed assertion is `none`.  The rows, the columns and the boxes of a board are
units of nine cells; a board is a solution when each unit holds each digit.
-/

namespace CloudComputing
namespace Lab1

/-- `NUM`. -/
def num : Nat := 9

/-! ## Reading a puzzle -/

/-- `find_spaces`: the cells without a digit, written to `spaces`. -/
def findSpaces (board : Board) (spaces : Board) : Board × Nat :=
  (List.range cellCount).foldl (fun (spaces, nspaces) cell =>
    if board cell = 0 then (Function.update spaces nspaces cell, nspaces + 1)
    else (spaces, nspaces)) (spaces, 0)

/-- One cell of `input`.  A character below `'0'` or beyond `'9'` fails the
assertion. -/
def inputCell (text : Nat → UInt8) (board : Board) (cell : Nat) :
    Option Board :=
  if 48 ≤ (text cell).toNat ∧ (text cell).toNat ≤ 48 + num then
    some (Function.update board cell ((text cell).toNat - 48))
  else none

/-- `input`: the board, and `spaces`. -/
def input (text : Nat → UInt8) (board spaces : Board) :
    Option (Board × Board) :=
  ((List.range cellCount).foldlM (inputCell text) board).map fun board =>
    (board, (findSpaces board spaces).1)

/-! ## Checking a solution -/

/-- The array `occurs` after these values. -/
def occurs (values : List Nat) : Nat → Nat :=
  values.foldl (fun occurs val =>
    Function.update occurs val (occurs val + 1)) fun _ => 0

/-- `std::count(occurs, occurs+10, 1) == NUM`. -/
def onceEach (values : List Nat) : Bool :=
  (List.range 10).countP (fun val => occurs values val = 1) == num

/-- The cells of a row. -/
def rowCells (row : Nat) : List Nat :=
  (List.range 9).map fun col => row * 9 + col

/-- The cells of a column. -/
def colCells (col : Nat) : List Nat :=
  (List.range 9).map fun row => row * 9 + col

/-- The cells of the box whose first cell is in this row and this column. -/
def boxCells (row col : Nat) : List Nat :=
  [row * 9 + col, row * 9 + (col + 1), row * 9 + (col + 2),
    (row + 1) * 9 + col, (row + 1) * 9 + (col + 1), (row + 1) * 9 + (col + 2),
    (row + 2) * 9 + col, (row + 2) * 9 + (col + 1), (row + 2) * 9 + (col + 2)]

/-- The loop of `solved` over the rows, with its assertion. -/
def solvedRows (board : Board) : List Nat → Option Bool
  | [] => some true
  | row :: rows =>
      if (rowCells row).all fun cell => 1 ≤ board cell ∧ board cell ≤ num then
        if onceEach ((rowCells row).map board) then solvedRows board rows
        else some false
      else none

/-- `solved`. -/
def solved (board : Board) : Option Bool :=
  (solvedRows board (List.range 9)).map fun rows =>
    rows &&
      ((List.range 9).all fun col => onceEach ((colCells col).map board)) &&
      [0, 3, 6].all fun row => [0, 3, 6].all fun col =>
        onceEach ((boxCells row col).map board)

/-- What `Run` does with the board of a puzzle: the solution, if there is one.
The result is `none` where one of its assertions fails. -/
def runBoard (fuel : Nat) (board : Board) : Option (Option Board) := do
  let (found, board) ← solveSudokuDancingLinks fuel board
  if found then
    let ok ← solved board
    if ok then some (some board) else none
  else some none

/-! ## Solutions -/

/-- Three kinds of units of nine cells. -/
inductive Kind
  | row
  | col
  | box
  deriving DecidableEq

namespace Kind

/-- The unit that a cell is in. -/
def index : Kind → Nat → Nat
  | row => rowOf
  | col => colOf
  | box => boxOf

/-- The cells of a unit. -/
def cells : Kind → Nat → List Nat
  | row, unit => rowCells unit
  | col, unit => colCells unit
  | box, unit => boxCells (unit / 3 * 3) (unit % 3 * 3)

theorem mem_cells
    {kind : Kind}
    {unit cell : Nat}
    (isUnit : unit < 9) :
    cell ∈ kind.cells unit ↔ cell < cellCount ∧ kind.index cell = unit := by
  cases kind with
  | row =>
      simp only [cells, rowCells, List.mem_map, List.mem_range, index, rowOf,
        cellCount]
      constructor
      · rintro ⟨col, less, rfl⟩
        omega
      · rintro ⟨less, isIn⟩
        exact ⟨cell % 9, by omega, by omega⟩
  | col =>
      simp only [cells, colCells, List.mem_map, List.mem_range, index, colOf,
        cellCount]
      constructor
      · rintro ⟨row, less, rfl⟩
        omega
      · rintro ⟨less, isIn⟩
        exact ⟨cell / 9, by omega, by omega⟩
  | box =>
      simp only [cells, boxCells, List.mem_cons, List.not_mem_nil, or_false,
        index, boxOf, rowOf, colOf, cellCount]
      omega

theorem length_cells (kind : Kind) (unit : Nat) :
    (kind.cells unit).length = 9 := by
  cases kind with
  | row => rfl
  | col => rfl
  | box => rfl

end Kind

/-- Each unit is a permutation of the digits. -/
def Valid (board : Board) : Prop :=
  ∀ (kind : Kind), ∀ unit < 9, ((kind.cells unit).map board).Perm digits

/-- The given digits are where they were. -/
def Keeps (board filled : Board) : Prop :=
  ∀ cell < cellCount, board cell ≠ 0 → filled cell = board cell

/-- A solution of the puzzle. -/
structure Completes (board filled : Board) : Prop where
  keeps : Keeps board filled
  valid : Valid filled

/-- Nine cells that hold each digit hold it once. -/
theorem perm_digits_iff {values : List Nat} (nine : values.length = 9) :
    values.Perm digits ↔ digits ⊆ values := by
  constructor
  · intro perm
    exact perm.symm.subset
  · intro each
    have nodup : digits.Nodup := List.nodup_range'
    have subperm := List.subperm_of_subset nodup each
    exact (subperm.perm_of_length_le (le_of_eq nine)).symm

/-- A board is valid when each unit has a cell for each digit. -/
theorem valid_iff {board : Board} :
    Valid board ↔ ∀ (kind : Kind), ∀ unit < 9, ∀ val ∈ digits,
      ∃ cell < cellCount, kind.index cell = unit ∧ board cell = val := by
  unfold Valid
  apply forall_congr'
  intro kind
  apply forall₂_congr
  intro unit isUnit
  have nine : ((kind.cells unit).map board).length = 9 := by
    rw [List.length_map, kind.length_cells]
  rw [perm_digits_iff nine]
  constructor
  · intro each val isDigit
    obtain ⟨cell, inside, isVal⟩ := List.mem_map.mp (each isDigit)
    obtain ⟨less, isIn⟩ := (Kind.mem_cells isUnit).mp inside
    exact ⟨cell, less, isIn, isVal⟩
  · intro each val isDigit
    obtain ⟨cell, less, isIn, isVal⟩ := each val isDigit
    exact List.mem_map.mpr ⟨cell, (Kind.mem_cells isUnit).mpr ⟨less, isIn⟩,
      isVal⟩

theorem Kind.index_lt (kind : Kind) {cell : Nat} (less : cell < cellCount) :
    kind.index cell < 9 := by
  unfold cellCount at less
  cases kind with
  | row =>
      simp only [index, rowOf]
      omega
  | col =>
      simp only [index, colOf]
      omega
  | box =>
      simp only [index, boxOf, rowOf, colOf]
      omega

/-- The digits of a valid board. -/
theorem Valid.digit
    {board : Board}
    (valid : Valid board)
    {cell : Nat}
    (less : cell < cellCount) :
    board cell ∈ digits := by
  have isUnit := Kind.row.index_lt less
  have inside := (Kind.mem_cells isUnit).mpr ⟨less, rfl⟩
  exact (valid Kind.row _ isUnit).subset (List.mem_map_of_mem inside)

/-- No digit is twice in a unit of a valid board. -/
theorem Valid.injective
    {board : Board}
    (valid : Valid board)
    (kind : Kind)
    {first second : Nat}
    (less : first < cellCount)
    (less' : second < cellCount)
    (sameUnit : kind.index first = kind.index second)
    (sameDigit : board first = board second) :
    first = second := by
  have isUnit := kind.index_lt less
  have nodup : ((kind.cells (kind.index first)).map board).Nodup :=
    (valid kind _ isUnit).nodup_iff.mpr List.nodup_range'
  exact List.inj_on_of_nodup_map nodup
    ((Kind.mem_cells isUnit).mpr ⟨less, rfl⟩)
    ((Kind.mem_cells isUnit).mpr ⟨less', sameUnit.symm⟩) sameDigit

/-! ## `solved` -/

/-- `occurs` counts. -/
theorem occurs_eq (values : List Nat) (val : Nat) :
    occurs values val = values.count val := by
  have go : ∀ (values : List Nat) (start : Nat → Nat),
      values.foldl (fun occurs val =>
          Function.update occurs val (occurs val + 1)) start val =
        start val + values.count val := by
    intro values
    induction values with
    | nil => exact fun start => rfl
    | cons first values inductionHypothesis =>
        intro start
        rw [List.foldl_cons, inductionHypothesis, List.count_cons,
          Function.update_apply]
        split
        case isTrue same =>
          rw [same, beq_self_eq_true, if_pos rfl]
          omega
        case isFalse differs =>
          rw [if_neg (by simpa using Ne.symm differs), Nat.add_zero]
  exact (go values _).trans (Nat.zero_add _)

/-- Nine different digits are what the check looks for. -/
theorem onceEach_iff
    {values : List Nat}
    (inRange : ∀ val ∈ values, val ∈ digits) :
    onceEach values = true ↔ ∀ val ∈ digits, values.count val = 1 := by
  have ten : List.range 10 = 0 :: digits := rfl
  have zero : values.count 0 = 0 := by
    apply List.count_eq_zero_of_not_mem
    intro inside
    exact absurd (inRange 0 inside) (by decide)
  have nine : num = digits.length := rfl
  unfold onceEach
  simp only [occurs_eq]
  rw [ten, List.countP_cons_of_neg (by simp [zero]), nine, beq_iff_eq,
    List.countP_eq_length]
  simp only [decide_eq_true_eq]

/-- A permutation of the digits passes the check. -/
theorem onceEach_of_perm {values : List Nat} (perm : values.Perm digits) :
    onceEach values = true := by
  apply (onceEach_iff fun val inside => perm.subset inside).mpr
  intro val isDigit
  rw [perm.count_eq]
  exact List.count_eq_one_of_mem List.nodup_range' isDigit

/-- The values of the cells are digits. -/
abbrev Filled (board : Board) : Prop :=
  ∀ cell < cellCount, board cell ∈ digits

theorem Filled.values
    {board : Board}
    (filled : Filled board)
    (kind : Kind)
    {unit : Nat}
    (isUnit : unit < 9) :
    ∀ val ∈ (kind.cells unit).map board, val ∈ digits := by
  intro val inside
  obtain ⟨cell, isCell, rfl⟩ := List.mem_map.mp inside
  exact filled cell ((Kind.mem_cells isUnit).mp isCell).1

/-- The loop over the rows passes its assertion. -/
theorem Filled.solvedRows
    {board : Board}
    (filled : Filled board)
    {rows : List Nat}
    (small : ∀ row ∈ rows, row < 9) :
    solvedRows board rows =
      some (rows.all fun row => onceEach ((rowCells row).map board)) := by
  induction rows with
  | nil => rfl
  | cons row rows inductionHypothesis =>
      obtain ⟨isRow, others⟩ := List.forall_mem_cons.mp small
      have inRange : ((rowCells row).all
          fun cell => 1 ≤ board cell ∧ board cell ≤ num) = true := by
        rw [List.all_eq_true]
        intro cell inside
        have isCell : cell ∈ Kind.row.cells row := inside
        have isDigit := filled cell ((Kind.mem_cells isRow).mp isCell).1
        unfold digits at isDigit
        rw [List.mem_range'_1] at isDigit
        unfold num
        rw [decide_eq_true_eq]
        omega
      rw [Lab1.solvedRows, if_pos inRange, inductionHypothesis others,
        List.all_cons]
      cases onceEach ((rowCells row).map board) with
      | true => rfl
      | false => rfl

/-- The boxes by the numbers of their first cells. -/
theorem all_boxes (check : Nat → Nat → Bool) :
    ([0, 3, 6].all fun row => [0, 3, 6].all fun col => check row col) = true ↔
      ∀ unit < 9, check (unit / 3 * 3) (unit % 3 * 3) = true := by
  simp only [List.all_cons, List.all_nil, Bool.and_true, Bool.and_eq_true]
  constructor
  · intro all unit isUnit
    interval_cases unit <;> simp only [Nat.reduceDiv, Nat.reduceMod,
      Nat.reduceMul, all]
  · intro each
    exact ⟨⟨each 0 (by decide), each 1 (by decide), each 2 (by decide)⟩,
      ⟨each 3 (by decide), each 4 (by decide), each 5 (by decide)⟩,
      each 6 (by decide), each 7 (by decide), each 8 (by decide)⟩

/-- `solved` returns, and checks each unit of the three kinds. -/
theorem Filled.solved
    {board : Board}
    (filled : Filled board) :
    ∃ ok, solved board = some ok ∧
      (ok = true ↔ ∀ (kind : Kind), ∀ unit < 9,
        onceEach ((kind.cells unit).map board) = true) := by
  unfold Lab1.solved
  rw [filled.solvedRows fun row inside => List.mem_range.mp inside,
    Option.map_some]
  refine ⟨_, rfl, ?_⟩
  rw [Bool.and_eq_true, Bool.and_eq_true, all_boxes, List.all_eq_true,
    List.all_eq_true]
  simp only [List.mem_range]
  constructor
  · rintro ⟨⟨rows, cols⟩, boxes⟩ kind unit isUnit
    cases kind with
    | row => exact rows unit isUnit
    | col => exact cols unit isUnit
    | box => exact boxes unit isUnit
  · exact fun each => ⟨⟨each .row, each .col⟩, each .box⟩

/-- A valid board passes all checks. -/
theorem Valid.solved {board : Board} (valid : Valid board) :
    solved board = some true := by
  obtain ⟨ok, executed, exact'⟩ :=
    Filled.solved fun cell less => valid.digit less
  rw [executed, exact'.mpr fun kind unit isUnit =>
    onceEach_of_perm (valid kind unit isUnit)]

/-! ## The array of `solved` -/

/-- `++occurs[val]`; `none` beyond the ten entries of the array. -/
def countUp (occurs : Nat → Nat) (val : Nat) : Option (Nat → Nat) :=
  if val < 10 then some (Function.update occurs val (occurs val + 1))
  else none

/-- One unit of `solved`, with each access to `occurs` checked. -/
def onceEachChecked (values : List Nat) : Option Bool :=
  (values.foldlM countUp fun _ => 0).map fun occurs =>
    (List.range 10).countP (fun val => occurs val = 1) == num

/-- The loops of `solved` that return false at the first unit that fails. -/
def allOnceChecked : List (List Nat) → Option Bool
  | [] => some true
  | values :: units => do
      if ← onceEachChecked values then allOnceChecked units
      else some false

/-- The loop of `solved` over the rows, with its assertion. -/
def solvedRowsChecked (board : Board) : List Nat → Option Bool
  | [] => some true
  | row :: rows =>
      if (rowCells row).all fun cell => 1 ≤ board cell ∧ board cell ≤ num then do
        if ← onceEachChecked ((rowCells row).map board) then
          solvedRowsChecked board rows
        else some false
      else none

/-- `solved`, with each access to `occurs` checked. -/
def solvedChecked (board : Board) : Option Bool := do
  if ← solvedRowsChecked board (List.range 9) then
    let cols := (List.range 9).map colCells
    let boxes := [0, 3, 6].flatMap fun row => [0, 3, 6].map (boxCells row)
    allOnceChecked ((cols ++ boxes).map (List.map board))
  else some false

theorem onceEachChecked_eq
    {values : List Nat}
    (inRange : ∀ val ∈ values, val < 10) :
    onceEachChecked values = some (onceEach values) := by
  have go : ∀ (values : List Nat) (start : Nat → Nat),
      (∀ val ∈ values, val < 10) →
        values.foldlM countUp start = some (values.foldl (fun occurs val =>
          Function.update occurs val (occurs val + 1)) start) := by
    intro values
    induction values with
    | nil => exact fun start _ => rfl
    | cons val values inductionHypothesis =>
        intro start inRange
        obtain ⟨less, others⟩ := List.forall_mem_cons.mp inRange
        rw [List.foldlM_cons, countUp, if_pos less, List.foldl_cons]
        exact inductionHypothesis _ others
  unfold onceEachChecked
  rw [go values _ inRange]
  rfl

theorem allOnceChecked_eq
    {units : List (List Nat)}
    (inRange : ∀ values ∈ units, ∀ val ∈ values, val < 10) :
    allOnceChecked units = some (units.all onceEach) := by
  induction units with
  | nil => rfl
  | cons values units inductionHypothesis =>
      obtain ⟨first, others⟩ := List.forall_mem_cons.mp inRange
      rw [allOnceChecked, onceEachChecked_eq first, Option.bind_eq_bind,
        Option.bind_some, inductionHypothesis others, List.all_cons]
      cases onceEach values with
      | true => rfl
      | false => rfl

theorem solvedRowsChecked_eq
    {board : Board}
    {rows : List Nat} :
    solvedRowsChecked board rows = solvedRows board rows := by
  induction rows with
  | nil => rfl
  | cons row rows inductionHypothesis =>
      rw [solvedRowsChecked, solvedRows]
      split
      case isTrue inRange =>
        rw [onceEachChecked_eq, Option.bind_eq_bind, Option.bind_some,
          inductionHypothesis]
        intro val inside
        obtain ⟨cell, isCell, rfl⟩ := List.mem_map.mp inside
        have small := List.all_eq_true.mp inRange cell isCell
        rw [decide_eq_true_eq, num] at small
        omega
      case isFalse => rfl

/-- The loops over the columns and the boxes stay on the board. -/
theorem lt_cellCount_of_units :
    ∀ cells ∈ (List.range 9).map colCells ++
      [0, 3, 6].flatMap fun row => [0, 3, 6].map (boxCells row),
        ∀ cell ∈ cells, cell < cellCount := by
  decide

/-- No access is out of the array when all values are digits. -/
theorem solvedChecked_eq
    {board : Board}
    (filled : Filled board) :
    solvedChecked board = solved board := by
  have inRange : ∀ values ∈ ((List.range 9).map colCells ++
      [0, 3, 6].flatMap fun row => [0, 3, 6].map (boxCells row)).map
        (List.map board), ∀ val ∈ values, val < 10 := by
    intro values isUnit val inside
    obtain ⟨cells, listed, rfl⟩ := List.mem_map.mp isUnit
    obtain ⟨cell, isCell, rfl⟩ := List.mem_map.mp inside
    have isDigit := filled cell (lt_cellCount_of_units cells listed cell isCell)
    rw [digits, List.mem_range'_1] at isDigit
    omega
  unfold solvedChecked
  rw [allOnceChecked_eq inRange, solvedRowsChecked_eq, Lab1.solved,
    filled.solvedRows fun row inside => List.mem_range.mp inside,
    Option.bind_eq_bind, Option.bind_some, Option.map_some, List.all_map,
    List.all_append, List.all_map, List.all_flatMap]
  simp only [List.all_map]
  cases (List.range 9).all fun row => onceEach ((rowCells row).map board) with
  | true => rfl
  | false => rfl

/-- `solved` returns true exactly for the boards on which each row, column and
box has each digit once; its assertion holds, and it stays in its array. -/
theorem solved_exact
    {board : Board}
    (values : ∀ cell < cellCount, 1 ≤ board cell ∧ board cell ≤ 9) :
    ∃ ok, solved board = some ok ∧ solvedChecked board = some ok ∧
      (ok = true ↔ ∀ (kind : Kind), ∀ unit < 9, ∀ val ∈ digits,
        ((kind.cells unit).map board).count val = 1) := by
  have filled : Filled board := by
    intro cell less
    have bounds := values cell less
    rw [digits, List.mem_range'_1]
    omega
  obtain ⟨ok, executed, exact'⟩ := filled.solved
  refine ⟨ok, executed, (solvedChecked_eq filled).trans executed,
    exact'.trans ?_⟩
  apply forall_congr'
  intro kind
  apply forall₂_congr
  intro unit isUnit
  exact onceEach_iff (filled.values kind isUnit)

/-- A board that is solved. -/
def fullBoard : Board := fun cell =>
  (cell / 9 * 3 + cell / 9 / 3 + cell % 9) % 9 + 1

theorem solved_exact_fullBoard : solved fullBoard = some true := by
  have values : ∀ cell < cellCount,
      1 ≤ fullBoard cell ∧ fullBoard cell ≤ 9 := by
    decide
  obtain ⟨ok, executed, _, exact'⟩ := solved_exact values
  rw [executed, exact'.mpr]
  intro kind
  cases kind <;> decide

end Lab1
end CloudComputing
