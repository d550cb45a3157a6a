import CloudComputing.Lib.Ring

/-!
# The dancing-links solver

`Dance`: the nodes are numbered in the order in which `nodes_` hands them out,
and each field of the nodes is a function of the number.  A failed assertion
and a lack of fuel give `none`; one fuel bounds every loop.
-/

namespace CloudComputing
namespace Lab1

/-- The cells of a board, and the other arrays of 81 values. -/
abbrev Board := Nat → Nat

/-- `N`. -/
def cellCount : Nat := 81

/-- `kMaxNodes`. -/
def kMaxNodes : Nat := 1 + 81 * 4 + 9 * 9 * 9 * 4

/-- The fields of `Dance`, with one function for each field of the nodes. -/
@[ext] structure Dance where
  left : Nat → Nat
  right : Nat → Nat
  up : Nat → Nat
  down : Nat → Nat
  col : Nat → Nat
  name : Nat → Nat
  size : Nat → Int
  root : Nat
  inout : Board
  columns : Nat → Option Nat
  stack : List Nat
  curNode : Nat

namespace Dance

/-! ## Single fields -/

def setLeft (node value : Nat) (d : Dance) : Dance :=
  { d with left := Function.update d.left node value }

def setRight (node value : Nat) (d : Dance) : Dance :=
  { d with right := Function.update d.right node value }

def setUp (node value : Nat) (d : Dance) : Dance :=
  { d with up := Function.update d.up node value }

def setDown (node value : Nat) (d : Dance) : Dance :=
  { d with down := Function.update d.down node value }

def setCol (node value : Nat) (d : Dance) : Dance :=
  { d with col := Function.update d.col node value }

def setName (node value : Nat) (d : Dance) : Dance :=
  { d with name := Function.update d.name node value }

def setSize (node : Nat) (value : Int) (d : Dance) : Dance :=
  { d with size := Function.update d.size node value }

/-! ## Building the matrix -/

/-- `put_left`. -/
def putLeft (old nnew : Nat) (d : Dance) : Dance :=
  let d := d.setLeft nnew (d.left old)
  let d := d.setRight nnew old
  let d := d.setRight (d.left old) nnew
  d.setLeft old nnew

/-- `put_up`. -/
def putUp (old nnew : Nat) (d : Dance) : Dance :=
  let d := d.setUp nnew (d.up old)
  let d := d.setDown nnew old
  let d := d.setDown (d.up old) nnew
  let d := d.setUp old nnew
  let d := d.setSize old (d.size old + 1)
  d.setCol nnew old

/-- A node from `nodes_`, cleared and linked to itself. -/
def alone (node : Nat) (d : Dance) : Dance :=
  let d := d.setSize node 0
  let d := d.setLeft node node
  let d := d.setRight node node
  let d := d.setUp node node
  d.setDown node node

/-- `new_column`. -/
def newColumn (n : Nat) (d : Dance) : Option (Nat × Dance) :=
  if d.curNode < kMaxNodes then
    let c := d.curNode
    let d := { d with curNode := c + 1 }
    let d := d.alone c
    let d := d.setCol c c
    some (c, d.setName c n)
  else none

/-- `append_column`. -/
def appendColumn (n : Nat) (d : Dance) : Option Dance :=
  if d.columns n = none then
    (d.newColumn n).map fun (c, d) =>
      let d := d.putLeft d.root c
      { d with columns := Function.update d.columns n (some c) }
  else none

/-- `new_row`. -/
def newRow (col : Nat) (d : Dance) : Option (Nat × Dance) :=
  (d.columns col).bind fun c =>
    if d.curNode < kMaxNodes then
      let r := d.curNode
      let d := { d with curNode := r + 1 }
      let d := d.alone r
      let d := d.setName r col
      let d := d.setCol r c
      some (r, d.putUp (d.col r) r)
    else none

/-- `get_row_col`. -/
def getRowCol (row val : Nat) : Nat :=
  100 + row * 10 + val

/-- `get_col_col`. -/
def getColCol (col val : Nat) : Nat :=
  200 + col * 10 + val

/-- `get_box_col`. -/
def getBoxCol (box val : Nat) : Nat :=
  300 + box * 10 + val

end Dance

/-- The row of a cell. -/
def rowOf (cell : Nat) : Nat :=
  cell / 9

/-- The column of a cell. -/
def colOf (cell : Nat) : Nat :=
  cell % 9

/-- The box of a cell. -/
def boxOf (cell : Nat) : Nat :=
  rowOf cell / 3 * 3 + colOf cell / 3

/-- The tables `rows`, `cols` and `boxes` of the constructor. -/
structure Used where
  rows : Nat → Nat → Bool
  cols : Nat → Nat → Bool
  boxes : Nat → Nat → Bool

/-- An entry of a table becomes true. -/
def setTrue (table : Nat → Nat → Bool) (index val : Nat) : Nat → Nat → Bool :=
  Function.update table index (Function.update (table index) val true)

/-- The values of one cell. -/
def Used.add (inout : Board) (used : Used) (cell : Nat) : Used where
  rows := setTrue used.rows (rowOf cell) (inout cell)
  cols := setTrue used.cols (colOf cell) (inout cell)
  boxes := setTrue used.boxes (boxOf cell) (inout cell)

/-- The values of all cells. -/
def Used.of (inout : Board) : Used :=
  (List.range cellCount).foldl (Used.add inout)
    ⟨fun _ _ => false, fun _ _ => false, fun _ _ => false⟩

/-- The loop that fills the tables.  A value beyond 9 is outside of them. -/
def Used.read (inout : Board) : Option Used :=
  if (List.range cellCount).all fun cell => inout cell < 10 then
    some (Used.of inout)
  else none

/-- The digits from 1 to 9. -/
def digits : List Nat :=
  List.range' 1 9

namespace Dance

/-- A column unless the table has the value. -/
def appendUnless (used : Bool) (n : Nat) (d : Dance) : Option Dance :=
  if used then some d else d.appendColumn n

/-- The columns of a digit in the row, the column and the box of this number. -/
def appendUnits (used : Used) (d : Dance) (unit : Nat × Nat) : Option Dance := do
  let d ← d.appendUnless (used.rows unit.1 unit.2) (getRowCol unit.1 unit.2)
  let d ← d.appendUnless (used.cols unit.1 unit.2) (getColCol unit.1 unit.2)
  d.appendUnless (used.boxes unit.1 unit.2) (getBoxCol unit.1 unit.2)

/-- The column of an empty cell. -/
def appendCell (inout : Board) (d : Dance) (cell : Nat) : Option Dance :=
  if inout cell = 0 then d.appendColumn cell else some d

/-- The four nodes of a digit in a cell. -/
def addRow (cell val : Nat) (d : Dance) : Option Dance := do
  let (n0, d) ← d.newRow cell
  let (nr, d) ← d.newRow (getRowCol (rowOf cell) val)
  let (nc, d) ← d.newRow (getColCol (colOf cell) val)
  let (nb, d) ← d.newRow (getBoxCol (boxOf cell) val)
  let d := d.putLeft n0 nr
  let d := d.putLeft n0 nc
  some (d.putLeft n0 nb)

/-- The row of a digit in a cell, unless the digit is used. -/
def addCandidate
    (used : Used)
    (cell : Nat)
    (d : Dance)
    (val : Nat) : Option Dance :=
  if used.rows (rowOf cell) val || used.cols (colOf cell) val ||
      used.boxes (boxOf cell) val then
    some d
  else d.addRow cell val

/-- The rows of an empty cell. -/
def addCell
    (inout : Board)
    (used : Used)
    (d : Dance)
    (cell : Nat) : Option Dance :=
  if inout cell = 0 then digits.foldlM (addCandidate used cell) d
  else some d

/-- A `Dance` in front of its constructor. -/
def blank (inout : Board) : Dance where
  left _ := 0
  right _ := 0
  up _ := 0
  down _ := 0
  col _ := 0
  name _ := 0
  size _ := 0
  root := 0
  inout := inout
  columns _ := none
  stack := []
  curNode := 0

/-- The constructor. -/
def make (inout : Board) : Option Dance := do
  let (root, d) ← (blank inout).newColumn 0
  let d := { d with root := root }
  let d := (d.setRight root root).setLeft root root
  let used ← Used.read inout
  let d ← (List.range cellCount).foldlM (appendCell inout) d
  let d ← ((List.range 9).flatMap fun i => digits.map (i, ·)).foldlM
    (appendUnits used) d
  (List.range cellCount).foldlM (addCell inout used) d

/-! ## The search -/

/-- The loop of `get_min_column`. -/
def minLoop (d : Dance) : Nat → Nat → Nat → Int → Option Nat
  | 0, _, _, _ => none
  | fuel + 1, cc, c, minSize =>
      if cc = d.root then some c
      else if minSize > d.size cc then
        if d.size cc ≤ 1 then some cc
        else minLoop d fuel (d.right cc) cc (d.size cc)
      else minLoop d fuel (d.right cc) c minSize

/-- `get_min_column`. -/
def getMinColumn (fuel : Nat) (d : Dance) : Option Nat :=
  let c := d.right d.root
  if d.size c > 1 then d.minLoop fuel (d.right c) c (d.size c) else some c

/-- What `cover` does with a node `j`. -/
def unlink (j : Nat) (d : Dance) : Dance :=
  let d := d.setUp (d.down j) (d.up j)
  let d := d.setDown (d.up j) (d.down j)
  d.setSize (d.col j) (d.size (d.col j) - 1)

/-- What `uncover` does with a node `j`. -/
def relink (j : Nat) (d : Dance) : Dance :=
  let d := d.setSize (d.col j) (d.size (d.col j) + 1)
  let d := d.setUp (d.down j) j
  d.setDown (d.up j) j

/-- `cover` takes a column out of the list of columns. -/
def unlinkHead (c : Nat) (d : Dance) : Dance :=
  let d := d.setLeft (d.right c) (d.left c)
  d.setRight (d.left c) (d.right c)

/-- `uncover` puts a column back into the list of columns. -/
def relinkHead (c : Nat) (d : Dance) : Dance :=
  let d := d.setLeft (d.right c) c
  d.setRight (d.left c) c

/-- `cover`. -/
def cover (fuel : Nat) (c : Nat) (d : Dance) : Option Dance :=
  let d := d.unlinkHead c
  loop Dance.down c
    (fun row d =>
      loop Dance.right row (fun j d => some (d.unlink j)) fuel (d.right row) d)
    fuel (d.down c) d

/-- `uncover`. -/
def uncover (fuel : Nat) (c : Nat) (d : Dance) : Option Dance :=
  (loop Dance.up c
    (fun row d =>
      loop Dance.left row (fun j d => some (d.relink j)) fuel (d.left row) d)
    fuel (d.up c) d).map (relinkHead c)

/-- The loop that finds the cell and the value of a row. -/
def scan (d : Dance) : Nat → Nat → Option Nat → Option Nat → Option (Nat × Nat)
  | 0, _, _, _ => none
  | fuel + 1, n, cell, val =>
      match cell, val with
      | some cell, some val => some (cell, val)
      | _, _ =>
          if d.name n < 100 then
            scan d fuel (d.right n) (some (d.name n)) val
          else scan d fuel (d.right n) cell (some (d.name n % 10))

/-- The row of a node is written to the board. -/
def writeRow (fuel : Nat) (d : Dance) (n : Nat) : Option Dance :=
  (d.scan fuel n none none).map fun place =>
    { d with inout := Function.update d.inout place.1 place.2 }

/-- The rows on the stack are written to the board. -/
def write (fuel : Nat) (d : Dance) : Option Dance :=
  d.stack.foldlM (writeRow fuel) d

/-- The loop of `solve` over the rows of the covered column `col`. -/
def tryRows
    (solve : Dance → Option (Bool × Dance))
    (fuel : Nat)
    (col : Nat) : Nat → Nat → Dance → Option (Bool × Dance)
  | 0, _, _ => none
  | steps + 1, row, d =>
      if row = col then some (false, d)
      else do
        let d := { d with stack := d.stack ++ [row] }
        let d ← loop Dance.right row (fun j d => d.cover fuel (d.col j))
          fuel (d.right row) d
        let (found, d) ← solve d
        if found then some (true, d)
        else do
          let d := { d with stack := d.stack.dropLast }
          let d ← loop Dance.left row (fun j d => d.uncover fuel (d.col j))
            fuel (d.left row) d
          tryRows solve fuel col steps (d.down row) d

/-- `solve`: whether it returns true, and the state it leaves behind. -/
def solve (fuel : Nat) : Nat → Dance → Option (Bool × Dance)
  | 0, _ => none
  | depth + 1, d =>
      if d.left d.root = d.root then
        (d.write fuel).map fun d => (true, d)
      else do
        let col ← d.getMinColumn fuel
        let d ← d.cover fuel col
        let (found, d) ← tryRows (solve fuel depth) fuel col fuel (d.down col) d
        if found then some (true, d)
        else do
          let d ← d.uncover fuel col
          some (false, d)

end Dance

/-- `solve_sudoku_dancing_links`: its result, and the board afterwards. -/
def solveSudokuDancingLinks (fuel : Nat) (board : Board) :
    Option (Bool × Board) := do
  let d ← Dance.make board
  let (found, d) ← d.solve fuel fuel
  some (found, d.inout)

end Lab1
end CloudComputing
