import CloudComputing.Lab1.Puzzles

/-!
# What the constructor makes

Every node counts the nodes of its column, and each column is found under its
name.  With the matrix of the board this tells what all fields are when the
constructor returns.
-/

namespace CloudComputing
namespace Lab1
namespace Dance

variable {d next : Dance}

/-! ## The steps of the constructor -/

/-- What `append_column` does. -/
structure NewColumn (n : Nat) (d next : Dance) : Prop where
  absent : d.columns n = none
  up : next.up = Function.update d.up d.curNode d.curNode
  down : next.down = Function.update d.down d.curNode d.curNode
  col : next.col = Function.update d.col d.curNode d.curNode
  name : next.name = Function.update d.name d.curNode n
  size : next.size = Function.update d.size d.curNode 0
  root : next.root = d.root
  columns : next.columns = Function.update d.columns n (some d.curNode)
  curNode : next.curNode = d.curNode + 1

theorem appendColumn_cases
    {name : Nat}
    (appended : d.appendColumn name = some next) :
    NewColumn name d next := by
  unfold appendColumn newColumn at appended
  split at appended
  case isTrue absent =>
    split at appended
    case isTrue room =>
      cases appended
      exact ⟨absent, rfl, rfl, rfl, rfl, rfl, rfl, rfl, rfl⟩
    case isFalse => cases appended
  case isFalse => cases appended

/-- The column that `new_row` puts its node into. -/
structure Below (head : Nat) (d next : Dance) : Prop where
  up : next.up =
    Ring.insertPrev (Function.update d.up d.curNode d.curNode) head d.curNode
  down : next.down =
    Ring.insertNext (Function.update d.down d.curNode d.curNode)
      (Function.update d.up d.curNode d.curNode) head d.curNode
  size : next.size = Function.update (Function.update d.size d.curNode 0) head
    (d.size head + 1)

theorem newRow_cases
    {name node : Nat}
    (known : ∀ head, d.columns name = some head → head ≠ d.curNode)
    (added : d.newRow name = some (node, next)) :
    ∃ head, d.columns name = some head ∧ NewNode name head d next ∧
      Below head d next := by
  unfold newRow at added
  obtain ⟨head, isColumn, added⟩ := Option.bind_eq_some_iff.mp added
  split at added
  case isTrue room =>
    have differs := known head isColumn
    let before := ((({ d with curNode := d.curNode + 1 } : Dance).alone
      d.curNode).setName d.curNode name).setCol d.curNode head
    have isCol : before.col d.curNode = head := Function.update_self _ _ _
    have same : next = before.putUp head d.curNode := by
      rw [Option.some.injEq, Prod.mk.injEq] at added
      rw [← added.2]
      change before.putUp (before.col d.curNode) d.curNode = _
      rw [isCol]
    rw [putUp_eq differs] at same
    refine ⟨head, isColumn, ?_, ?_⟩
    · rw [same]
      exact ⟨rfl, rfl, rfl, Function.update_idem _ _ _, rfl, rfl, rfl, rfl, rfl⟩
    · have size : before.size head = d.size head :=
        Function.update_of_ne differs _ _
      rw [same, size]
      exact ⟨rfl, rfl, rfl⟩
  case isFalse => cases added

/-- One more node, with its column and its name. -/
structure Grown (c n : Nat) (d next : Dance) : Prop where
  root : next.root = d.root
  col : next.col = Function.update d.col d.curNode c
  name : next.name = Function.update d.name d.curNode n
  curNode : next.curNode = d.curNode + 1

theorem NewColumn.grown {n : Nat} (new : NewColumn n d next) :
    Grown d.curNode n d next :=
  ⟨new.root, new.col, new.name, new.curNode⟩

theorem NewNode.grown {n c : Nat} (new : NewNode n c d next) :
    Grown c n d next :=
  ⟨new.root, new.col, new.name, new.curNode⟩

/-! ## Counting the nodes of a column -/

/-- The nodes of a column, without its head. -/
def nodesOf (d : Dance) (head : Nat) : List Nat :=
  (List.range d.curNode).filter fun node => node ≠ head ∧ d.col node = head

theorem mem_nodesOf {head node : Nat} :
    node ∈ d.nodesOf head ↔
      node < d.curNode ∧ node ≠ head ∧ d.col node = head := by
  unfold nodesOf
  rw [List.mem_filter, List.mem_range, decide_eq_true_eq]

/-- One more node. -/
theorem nodesOf_succ
    {head : Nat}
    (curNode : next.curNode = d.curNode + 1)
    (col : next.col = Function.update d.col d.curNode head)
    (other : Nat) :
    next.nodesOf other = d.nodesOf other ++
      if d.curNode ≠ other ∧ head = other then [d.curNode] else [] := by
  have old : (List.range d.curNode).filter (fun node =>
        node ≠ other ∧ Function.update d.col d.curNode head node = other) =
      d.nodesOf other := by
    apply List.filter_congr
    intro node inside
    rw [Function.update_of_ne (List.mem_range.mp inside).ne]
  unfold nodesOf at old ⊢
  rw [curNode, col, List.range_succ, List.filter_append, old]
  congr 1
  rw [List.filter_singleton, Function.update_self, Bool.cond_decide]

/-- Every node counts the nodes of its column, the columns are found under
their names, and the root is in no column. -/
structure Counted (d : Dance) : Prop where
  root_lt : d.root < d.curNode
  root_col : d.col d.root = d.root
  root_name : d.name d.root = 0
  col_lt : ∀ node < d.curNode, d.col node < d.curNode
  column_lt : ∀ name head, d.columns name = some head → head < d.curNode
  column_ne : ∀ name head, d.columns name = some head → head ≠ d.root
  column_col : ∀ name head, d.columns name = some head → d.col head = head
  column_name : ∀ name head, d.columns name = some head → d.name head = name
  size : ∀ head < d.curNode, d.size head = (d.nodesOf head).length
  down_root : d.down d.root = d.root
  up_root : d.up d.root = d.root
  up_ne : ∀ node < d.curNode, node ≠ d.root → d.up node ≠ d.root

namespace Counted

/-- No node is in a column that is still to come. -/
theorem nodesOf_curNode (counted : d.Counted) : d.nodesOf d.curNode = [] := by
  apply List.eq_nil_iff_forall_not_mem.mpr
  intro node inside
  obtain ⟨less, _, same⟩ := mem_nodesOf.mp inside
  exact absurd same (counted.col_lt node less).ne

variable {c n : Nat}

/-- The root when there is one more node. -/
theorem grow_root
    (counted : d.Counted)
    (grown : Grown c n d next) :
    next.root < next.curNode ∧ next.col next.root = next.root ∧
      next.name next.root = 0 := by
  have rootLt := counted.root_lt
  rw [grown.root, grown.curNode, grown.col, grown.name,
    Function.update_of_ne rootLt.ne, Function.update_of_ne rootLt.ne]
  exact ⟨Nat.lt_succ_of_lt rootLt, counted.root_col, counted.root_name⟩

/-- A column when there is one more node. -/
theorem grow_column
    (counted : d.Counted)
    (grown : Grown c n d next)
    {name head : Nat}
    (isColumn : d.columns name = some head) :
    head < next.curNode ∧ head ≠ next.root ∧ next.col head = head ∧
      next.name head = name := by
  have less := counted.column_lt name head isColumn
  rw [grown.root, grown.curNode, grown.col, grown.name,
    Function.update_of_ne less.ne, Function.update_of_ne less.ne]
  exact ⟨Nat.lt_succ_of_lt less, counted.column_ne name head isColumn,
    counted.column_col name head isColumn,
    counted.column_name name head isColumn⟩

theorem grow_col_lt
    (counted : d.Counted)
    (grown : Grown c n d next)
    (known : c ≤ d.curNode)
    {node : Nat}
    (less : node < next.curNode) :
    next.col node < next.curNode := by
  rw [grown.curNode] at less ⊢
  rw [grown.col, Function.update_apply]
  split
  case isTrue => exact Nat.lt_succ_of_le known
  case isFalse differs =>
    exact Nat.lt_succ_of_lt (counted.col_lt node (by omega))

theorem appendColumn
    {name : Nat}
    (counted : d.Counted)
    (appended : d.appendColumn name = some next) :
    next.Counted := by
  have new := appendColumn_cases appended
  have rootLt := counted.root_lt
  have cases : ∀ other head, next.columns other = some head →
      (other = name ∧ head = d.curNode) ∨ d.columns other = some head := by
    intro other head isColumn
    rw [new.columns, Function.update_apply] at isColumn
    split at isColumn
    case isTrue same => exact Or.inl ⟨same, (Option.some.inj isColumn).symm⟩
    case isFalse => exact Or.inr isColumn
  have columns : ∀ other head, next.columns other = some head →
      head < next.curNode ∧ head ≠ next.root ∧ next.col head = head ∧
        next.name head = other := by
    intro other head isColumn
    rcases cases other head isColumn with ⟨rfl, rfl⟩ | old
    · rw [new.curNode, new.root, new.col, new.name, Function.update_self,
        Function.update_self]
      exact ⟨Nat.lt_succ_self _, rootLt.ne', rfl, rfl⟩
    · exact counted.grow_column new.grown old
  obtain ⟨root_lt, root_col, root_name⟩ := counted.grow_root new.grown
  refine ⟨root_lt, root_col, root_name, ?_, ?_, ?_, ?_, ?_, ?_, ?_, ?_, ?_⟩
  · exact fun node => counted.grow_col_lt new.grown (le_refl _)
  · exact fun other head isColumn => (columns other head isColumn).1
  · exact fun other head isColumn => (columns other head isColumn).2.1
  · exact fun other head isColumn => (columns other head isColumn).2.2.1
  · exact fun other head isColumn => (columns other head isColumn).2.2.2
  · intro head less
    have same : next.nodesOf head = d.nodesOf head := by
      rw [nodesOf_succ new.curNode new.col, if_neg (fun both => both.1 both.2),
        List.append_nil]
    rw [same, new.size, Function.update_apply]
    split
    case isTrue isNew => rw [isNew, counted.nodesOf_curNode]; rfl
    case isFalse differs =>
      rw [new.curNode] at less
      exact counted.size head (by omega)
  · rw [new.root, new.down, Function.update_of_ne rootLt.ne]
    exact counted.down_root
  · rw [new.root, new.up, Function.update_of_ne rootLt.ne]
    exact counted.up_root
  · intro node less differs
    rw [new.root] at differs ⊢
    rw [new.curNode] at less
    rw [new.up, Function.update_apply]
    split
    case isTrue => exact rootLt.ne'
    case isFalse old => exact counted.up_ne node (by omega) differs

/-- `new_row` leaves the root alone. -/
theorem newRow_root
    {head : Nat}
    (counted : d.Counted)
    (headLt : head < d.curNode)
    (headNe : head ≠ d.root)
    (new : NewNode n head d next)
    (below : Below head d next) :
    next.down next.root = next.root ∧ next.up next.root = next.root ∧
      ∀ node < next.curNode, node ≠ next.root → next.up node ≠ next.root := by
  have rootLt := counted.root_lt
  have upHead : Function.update d.up d.curNode d.curNode head = d.up head :=
    Function.update_of_ne headLt.ne _ _
  rw [new.root, below.down, below.up, new.curNode]
  unfold Ring.insertNext Ring.insertPrev
  rw [upHead]
  refine ⟨?_, ?_, ?_⟩
  · rw [Function.update_of_ne (counted.up_ne head headLt headNe).symm,
      Function.update_of_ne rootLt.ne, Function.update_of_ne rootLt.ne]
    exact counted.down_root
  · rw [Function.update_of_ne headNe.symm, Function.update_of_ne rootLt.ne,
      Function.update_of_ne rootLt.ne]
    exact counted.up_root
  · intro node less differs
    rw [Function.update_apply]
    split
    case isTrue => exact rootLt.ne'
    case isFalse notHead =>
      rw [Function.update_apply]
      split
      case isTrue => exact counted.up_ne head headLt headNe
      case isFalse isOld =>
        rw [Function.update_of_ne isOld]
        exact counted.up_ne node (by omega) differs

theorem newRow
    {name node : Nat}
    (counted : d.Counted)
    (added : d.newRow name = some (node, next)) :
    next.Counted := by
  have known : ∀ head, d.columns name = some head → head ≠ d.curNode :=
    fun head isColumn => (counted.column_lt name head isColumn).ne
  obtain ⟨head, isColumn, new, below⟩ := newRow_cases known added
  have headLt := counted.column_lt name head isColumn
  have headNe := counted.column_ne name head isColumn
  have columns : ∀ other column, next.columns other = some column →
      column < next.curNode ∧ column ≠ next.root ∧ next.col column = column ∧
        next.name column = other := by
    intro other column isColumn
    rw [new.columns] at isColumn
    exact counted.grow_column new.grown isColumn
  obtain ⟨root_lt, root_col, root_name⟩ := counted.grow_root new.grown
  obtain ⟨down_root, up_root, up_ne⟩ :=
    counted.newRow_root headLt headNe new below
  refine ⟨root_lt, root_col, root_name, ?_, ?_, ?_, ?_, ?_, ?_, down_root,
    up_root, up_ne⟩
  · exact fun node => counted.grow_col_lt new.grown headLt.le
  · exact fun other head isColumn => (columns other head isColumn).1
  · exact fun other head isColumn => (columns other head isColumn).2.1
  · exact fun other head isColumn => (columns other head isColumn).2.2.1
  · exact fun other head isColumn => (columns other head isColumn).2.2.2
  · intro other less
    rw [new.curNode] at less
    rw [nodesOf_succ new.curNode new.col, below.size, Function.update_apply]
    split
    case isTrue same =>
      rw [same, if_pos ⟨headLt.ne', rfl⟩, List.length_append,
        counted.size head headLt]
      simp
    case isFalse differs =>
      rw [if_neg (fun both => differs both.2.symm), List.append_nil,
        Function.update_apply]
      split
      case isTrue isNew => rw [isNew, counted.nodesOf_curNode]; rfl
      case isFalse differs' => exact counted.size other (by omega)

theorem putLeft (counted : d.Counted) (old nnew : Nat) :
    (d.putLeft old nnew).Counted :=
  ⟨counted.root_lt, counted.root_col, counted.root_name, counted.col_lt,
    counted.column_lt, counted.column_ne, counted.column_col,
    counted.column_name, counted.size, counted.down_root, counted.up_root,
    counted.up_ne⟩

theorem addRow
    {cell val : Nat}
    (counted : d.Counted)
    (added : d.addRow cell val = some next) :
    next.Counted := by
  unfold Dance.addRow at added
  obtain ⟨⟨n0, d₀⟩, added₀, added⟩ := Option.bind_eq_some_iff.mp added
  obtain ⟨⟨nr, d₁⟩, added₁, added⟩ := Option.bind_eq_some_iff.mp added
  obtain ⟨⟨nc, d₂⟩, added₂, added⟩ := Option.bind_eq_some_iff.mp added
  obtain ⟨⟨nb, d₃⟩, added₃, added⟩ := Option.bind_eq_some_iff.mp added
  cases added
  have four : d₃.Counted :=
    (((counted.newRow added₀).newRow added₁).newRow added₂).newRow added₃
  exact ((four.putLeft n0 nr).putLeft n0 nc).putLeft n0 nb

theorem appendUnless
    {used : Bool}
    {name : Nat}
    (counted : d.Counted)
    (appended : d.appendUnless used name = some next) :
    next.Counted := by
  unfold Dance.appendUnless at appended
  split at appended
  · cases appended
    exact counted
  · exact counted.appendColumn appended

theorem appendCell
    {board : Board}
    {cell : Nat}
    (counted : d.Counted)
    (appended : Dance.appendCell board d cell = some next) :
    next.Counted := by
  unfold Dance.appendCell at appended
  split at appended
  · exact counted.appendColumn appended
  · cases appended
    exact counted

theorem appendUnits
    {used : Used}
    {unit : Nat × Nat}
    (counted : d.Counted)
    (appended : Dance.appendUnits used d unit = some next) :
    next.Counted := by
  unfold Dance.appendUnits at appended
  obtain ⟨d₁, appended₁, appended⟩ := Option.bind_eq_some_iff.mp appended
  obtain ⟨d₂, appended₂, appended⟩ := Option.bind_eq_some_iff.mp appended
  exact ((counted.appendUnless appended₁).appendUnless
    appended₂).appendUnless appended

theorem addCandidate
    {used : Used}
    {cell val : Nat}
    (counted : d.Counted)
    (added : Dance.addCandidate used cell d val = some next) :
    next.Counted := by
  unfold Dance.addCandidate at added
  split at added
  · cases added
    exact counted
  · exact counted.addRow added

theorem addCell
    {board : Board}
    {used : Used}
    {cell : Nat}
    (counted : d.Counted)
    (added : Dance.addCell board used d cell = some next) :
    next.Counted := by
  unfold Dance.addCell at added
  split at added
  · apply foldlM_kept _ added counted
    intro s val next added counted
    exact counted.addCandidate added
  · cases added
    exact counted

/-- The root alone. -/
theorem root (board : Board) :
    ∃ d, (blank board).newColumn 0 = some (0, d) ∧
      ((({ d with root := 0 } : Dance).setRight 0 0).setLeft 0 0).Counted := by
  refine ⟨_, rfl, ⟨Nat.one_pos, rfl, rfl, ?_, ?_, ?_, ?_, ?_, ?_, rfl, rfl,
    ?_⟩⟩
  · intro node less
    rw [Nat.lt_one_iff.mp less]
    exact Nat.one_pos
  · intro name head isColumn
    cases isColumn
  · intro name head isColumn
    cases isColumn
  · intro name head isColumn
    cases isColumn
  · intro name head isColumn
    cases isColumn
  · intro head less
    rw [Nat.lt_one_iff.mp less]
    rfl
  · intro node less differs
    exact absurd (Nat.lt_one_iff.mp less) differs

/-- The constructor counts its nodes. -/
theorem make
    {board : Board}
    (made : Dance.make board = some d) :
    d.Counted := by
  obtain ⟨first, started, counted⟩ := root board
  unfold Dance.make at made
  rw [started] at made
  obtain ⟨_, isFirst, made⟩ := Option.bind_eq_some_iff.mp made
  cases isFirst
  obtain ⟨used, _, made⟩ := Option.bind_eq_some_iff.mp made
  obtain ⟨second, cells, made⟩ := Option.bind_eq_some_iff.mp made
  obtain ⟨third, units, rows⟩ := Option.bind_eq_some_iff.mp made
  have withCells : second.Counted :=
    foldlM_kept (fun _ _ _ appended kept => kept.appendCell appended) cells
      counted
  have withUnits : third.Counted :=
    foldlM_kept (fun _ _ _ appended kept => kept.appendUnits appended) units
      withCells
  exact foldlM_kept (fun _ _ _ added kept => kept.addCell added) rows
    withUnits

end Counted

/-! ## The matrix of a board in the nodes -/

/-- A column of a board: an empty cell, or a digit that a unit lacks. -/
def IsColumn (board : Board) (name : Nat) : Prop :=
  (name < cellCount ∧ board name = 0) ∨
    ∃ kind : Kind, ∃ unit < 9, ∃ val ∈ digits,
      (∀ cell < cellCount, kind.index cell = unit → board cell ≠ val) ∧
        name = kind.name unit val

/-- A row of a board: an empty cell, and a digit that its units lack. -/
def IsRow (board : Board) (candidate : Nat × Nat) : Prop :=
  candidate.1 < cellCount ∧ board candidate.1 = 0 ∧ candidate.2 ∈ digits ∧
    ∀ kind : Kind, ∀ cell < cellCount,
      kind.index cell = kind.index candidate.1 → board cell ≠ candidate.2

/-- All nodes of a `Dance` in front of the search: the root, the columns in
their order, and the rows, given by their first nodes. -/
structure Constructed
    (board : Board)
    (heads : List Nat)
    (first : Nat × Nat → Nat)
    (d : Dance) : Prop where
  inout : d.inout = board
  stack : d.stack = []
  nodes : ∀ node, node < d.curNode ↔ node = d.root ∨ node ∈ heads ∨
    ∃ candidate, IsRow board candidate ∧ ∃ steps < 4,
      node = first candidate + steps
  apart : ∀ candidate, IsRow board candidate → ∀ steps < 4,
    first candidate + steps ∉ d.root :: heads ∧
      ∀ other, IsRow board other → ∀ steps' < 4,
        first candidate + steps = first other + steps' → candidate = other
  column_iff : ∀ name, (∃ head, d.columns name = some head) ↔
    IsColumn board name
  mem_heads : ∀ head, head ∈ heads ↔ ∃ name, d.columns name = some head
  column : ∀ name head, d.columns name = some head →
    d.name head = name ∧ d.col head = head
  part : ∀ candidate, IsRow board candidate → ∀ steps < 4,
    d.name (first candidate + steps) = (parts candidate).getD steps 0 ∧
      d.columns (d.name (first candidate + steps)) =
        some (d.col (first candidate + steps))
  ring : Ring d.right d.left d.root heads
  rows : ∀ candidate, IsRow board candidate →
    Ring d.right d.left (first candidate)
      [first candidate + 1, first candidate + 2, first candidate + 3]
  vertical : ∀ head ∈ d.root :: heads,
    Ring d.down d.up head (d.nodesOf head)
  size : ∀ head ∈ d.root :: heads, d.size head = (d.nodesOf head).length
  room : d.curNode ≤ kMaxNodes
  index : ∀ node < d.curNode, d.name node < 400

theorem isColumn_iff {board : Board} {name : Nat} :
    IsColumn board name ↔ name ∈ columnNames board := by
  rw [mem_columnNames_iff]
  simp only [used_of_eq_false]
  rfl

theorem isRow_iff {board : Board} {candidate : Nat × Nat} :
    IsRow board candidate ↔ candidate ∈ rowCandidates board := by
  rw [mem_rowCandidates, blocks_eq_false]
  simp only [used_of_eq_false]
  rfl

/-- Each candidate has one row. -/
theorem rowCandidates_nodup (board : Board) : (rowCandidates board).Nodup := by
  unfold rowCandidates
  rw [List.nodup_flatMap]
  constructor
  · intro cell _
    have nodup : digits.Nodup := List.nodup_range'
    exact (nodup.filter _).map (Prod.mk_right_injective cell)
  · have cells : (emptyCells board (List.range cellCount)).Nodup :=
      List.nodup_range.filter _
    apply cells.imp
    intro cell other differs candidate inside inside'
    have isCell := (mem_cellCandidates.mp inside).1
    have isOther := (mem_cellCandidates.mp inside').1
    exact differs (isCell.symm.trans isOther)

/-- All names are indices of `columns_`. -/
theorem name_lt
    {board : Board}
    {name : Nat}
    (listed : name ∈ columnNames board) :
    name < 400 := by
  rcases isColumn_iff.mpr listed with ⟨less, _⟩ |
    ⟨kind, unit, isUnit, val, isDigit, _, rfl⟩
  · exact less.trans (by decide)
  · rw [mem_digits] at isDigit
    cases kind with
    | row =>
        change getRowCol unit val < 400
        unfold getRowCol
        omega
    | col =>
        change getColCol unit val < 400
        unfold getColCol
        omega
    | box =>
        change getBoxCol unit val < 400
        unfold getBoxCol
        omega

namespace Filled

variable {board : Board} {sheet : Sheet}

/-- The names of the columns, and no others, are in `columns_`. -/
theorem columns_iff
    (filled : Filled board sheet d)
    (counted : d.Counted)
    {name head : Nat} :
    d.columns name = some head ↔
      name ∈ sheet.names ∧ sheet.header name = head := by
  constructor
  · intro isColumn
    have less := counted.column_lt name head isColumn
    have notRoot := counted.column_ne name head isColumn
    have isCol := counted.column_col name head isColumn
    have isName := counted.column_name name head isColumn
    rw [filled.holds.root] at notRoot
    rw [filled.curNode] at less
    have isHead : head ∈ sheet.matrix.heads := by
      by_contra notHead
      have member : head ∈ sheet.nodes := by
        change head ∉ List.range' 1 sheet.names.length at notHead
        rw [List.mem_range'_1] at notHead
        rw [Sheet.mem_nodes]
        unfold Sheet.base at less ⊢
        omega
      have inHeads := sheet.matrix.col_mem head member
      rw [← filled.holds.col head member, isCol] at inHeads
      exact notHead inHeads
    obtain ⟨other, listed, rfl⟩ := Sheet.mem_heads.mp isHead
    have same := counted.column_name other _ (filled.columns other listed)
    rw [isName] at same
    exact ⟨same ▸ listed, same ▸ rfl⟩
  · rintro ⟨listed, rfl⟩
    exact filled.columns name listed

/-- The root and the columns are in their own columns. -/
theorem col_head
    (filled : Filled board sheet d)
    (counted : d.Counted)
    {head : Nat}
    (less : head < sheet.base) :
    d.col head = head := by
  by_cases isRoot : head = 0
  · have rootCol := counted.root_col
    rw [filled.holds.root] at rootCol
    rw [isRoot]
    exact rootCol
  · have isHead : head ∈ sheet.matrix.heads := by
      change head ∈ List.range' 1 sheet.names.length
      unfold Sheet.base at less
      rw [List.mem_range'_1]
      omega
    obtain ⟨name, listed, rfl⟩ := Sheet.mem_heads.mp isHead
    exact counted.column_col name _ (filled.columns name listed)

/-- The nodes of a column are those of the matrix. -/
theorem nodesOf_eq
    (filled : Filled board sheet d)
    (counted : d.Counted)
    (head : Nat) :
    d.nodesOf head = sheet.matrix.active [] head := by
  have split : List.range d.curNode =
      List.range sheet.base ++ sheet.nodes := by
    rw [filled.curNode, List.range_add]
    unfold Sheet.nodes
    rw [List.range'_eq_map_range]
  have heads : (List.range sheet.base).filter (fun node =>
      node ≠ head ∧ d.col node = head) = [] := by
    apply List.filter_eq_nil_iff.mpr
    intro node inside
    rw [filled.col_head counted (List.mem_range.mp inside)]
    simp only [decide_eq_true_eq]
    exact fun both => both.1 both.2
  unfold nodesOf
  rw [split, List.filter_append, heads, List.nil_append, active_nil]
  apply List.filter_congr
  intro node member
  have inHeads := sheet.matrix.col_mem node member
  rw [decide_eq_decide, filled.holds.col node member]
  constructor
  · exact fun both => both.2
  · intro same
    refine ⟨?_, same⟩
    rintro rfl
    apply sheet.matrix.fresh node member
    rw [← same]
    exact List.mem_cons_of_mem 0 inHeads

end Filled

/-! ## The constructor as a whole -/

/-- The number of the first node of a row. -/
def firstOf (board : Board) (candidate : Nat × Nat) : Nat :=
  (sheetOf board).base + 4 * (rowCandidates board).idxOf candidate

/-- The nodes of a row. -/
structure Positioned
    (board : Board)
    (candidate : Nat × Nat)
    (steps node : Nat) : Prop where
  member : node ∈ (sheetOf board).nodes
  row : (node - (sheetOf board).base) / 4 =
    (rowCandidates board).idxOf candidate
  position : (node - (sheetOf board).base) % 4 = steps
  part : (sheetOf board).part node = (parts candidate).getD steps 0

theorem positioned
    {board : Board}
    {candidate : Nat × Nat}
    (listed : candidate ∈ rowCandidates board)
    {steps : Nat}
    (less : steps < 4) :
    Positioned board candidate steps (firstOf board candidate + steps) := by
  have bound : (rowCandidates board).idxOf candidate <
      (rowCandidates board).length := List.idxOf_lt_length_of_mem listed
  have row : (firstOf board candidate + steps - (sheetOf board).base) / 4 =
      (rowCandidates board).idxOf candidate := by
    unfold firstOf
    omega
  have position :
      (firstOf board candidate + steps - (sheetOf board).base) % 4 = steps := by
    unfold firstOf
    omega
  refine ⟨?_, row, position, ?_⟩
  · rw [Sheet.mem_nodes]
    change _ ∧ _ < (sheetOf board).base + 4 * (rowCandidates board).length
    unfold firstOf
    omega
  · have place : (sheetOf board).place (firstOf board candidate + steps) =
        candidate := by
      unfold Sheet.place
      rw [row]
      change (rowCandidates board).getD _ _ = _
      rw [List.getD_eq_getElem _ _ bound, List.getElem_idxOf]
    unfold Sheet.part
    rw [place, position]

/-- Each node of the sheet has a position in a row. -/
theorem exists_positioned
    {board : Board}
    {node : Nat}
    (member : node ∈ (sheetOf board).nodes) :
    ∃ candidate ∈ rowCandidates board, ∃ steps < 4,
      node = firstOf board candidate + steps := by
  rw [Sheet.mem_nodes] at member
  change _ ∧ _ < (sheetOf board).base + 4 * (rowCandidates board).length
    at member
  have bound : (node - (sheetOf board).base) / 4 <
      (rowCandidates board).length := by
    omega
  refine ⟨(rowCandidates board)[(node - (sheetOf board).base) / 4],
    List.getElem_mem bound, (node - (sheetOf board).base) % 4,
    Nat.mod_lt _ (by decide), ?_⟩
  unfold firstOf
  rw [(rowCandidates_nodup board).idxOf_getElem]
  omega

namespace Filled

variable {board : Board}

/-- The root, the columns and the nodes of the rows, and no others. -/
theorem lt_curNode_iff
    (filled : Filled board (sheetOf board) d)
    {node : Nat} :
    node < d.curNode ↔ node = 0 ∨ node ∈ (sheetOf board).matrix.heads ∨
      node ∈ (sheetOf board).nodes := by
  have heads : node ∈ (sheetOf board).matrix.heads ↔
      1 ≤ node ∧ node < (sheetOf board).base := List.mem_range'_1
  have base : 1 ≤ (sheetOf board).base := Nat.le_add_right 1 _
  rw [heads, Sheet.mem_nodes, filled.curNode]
  omega

/-- The lists of the columns, and of the root. -/
theorem vertical
    (filled : Filled board (sheetOf board) d)
    (counted : d.Counted)
    {head : Nat}
    (inside : head ∈ d.root :: (sheetOf board).matrix.heads) :
    Ring d.down d.up head (d.nodesOf head) := by
  rw [filled.nodesOf_eq counted]
  rcases List.mem_cons.mp inside with rfl | isHead
  · have empty : (sheetOf board).matrix.active [] d.root = [] := by
      apply List.eq_nil_iff_forall_not_mem.mpr
      intro node active
      obtain ⟨member, same, _⟩ := Matrix.mem_active.mp active
      have inHeads := (sheetOf board).matrix.col_mem node member
      rw [same, filled.holds.root] at inHeads
      have nodup := (sheetOf board).matrix.heads_nodup
      exact (List.nodup_cons.mp nodup).1 inHeads
    rw [empty]
    exact Ring.singleton counted.down_root counted.up_root
  · apply filled.holds.columns.ring head
    rw [linked_nil]
    exact isHead

/-- The ring of a row, from its first node. -/
theorem row_ring
    (filled : Filled board (sheetOf board) d)
    {candidate : Nat × Nat}
    (listed : candidate ∈ rowCandidates board) :
    Ring d.right d.left (firstOf board candidate)
      [firstOf board candidate + 1, firstOf board candidate + 2,
        firstOf board candidate + 3] := by
  have here := positioned listed (by decide : 0 < 4)
  have row := here.row
  have position := here.position
  rw [Nat.add_zero] at row position
  have mates : (sheetOf board).mates (firstOf board candidate) =
      [firstOf board candidate + 1, firstOf board candidate + 2,
        firstOf board candidate + 3] := by
    unfold Sheet.mates Sheet.beside
    rw [row, position]
    rfl
  have ring := filled.holds.rows _ here.member
  change Ring _ _ _ ((sheetOf board).mates (firstOf board candidate)) at ring
  rw [mates] at ring
  exact ring

/-- Every node has a name that `columns_` has room for. -/
theorem node_name_lt
    (filled : Filled board (sheetOf board) d)
    (counted : d.Counted)
    {node : Nat}
    (less : node < d.curNode) :
    d.name node < 400 := by
  rcases filled.lt_curNode_iff.mp less with rfl | isHead | member
  · have rootName := counted.root_name
    rw [filled.holds.root] at rootName
    rw [rootName]
    decide
  · obtain ⟨name, listed, rfl⟩ := Sheet.mem_heads.mp isHead
    rw [counted.column_name name _ (filled.columns name listed)]
    exact name_lt listed
  · rw [filled.holds.name node member]
    exact name_lt (Sheet.part_mem member)

end Filled

/-- The fields of the nodes when the constructor returns. -/
theorem Filled.constructed
    {board : Board}
    (filled : Filled board (sheetOf board) d)
    (counted : d.Counted) :
    Constructed board (sheetOf board).matrix.heads (firstOf board) d := by
  have isRoot := filled.holds.root
  have mem_heads : ∀ head, head ∈ (sheetOf board).matrix.heads ↔
      ∃ name, d.columns name = some head := by
    intro head
    rw [Sheet.mem_heads]
    simp only [filled.columns_iff counted]
  refine ⟨filled.inout, filled.stack, ?_, ?_, ?_, mem_heads, ?_, ?_, ?_, ?_,
    ?_, ?_, ?_, ?_⟩
  · intro node
    rw [filled.lt_curNode_iff, isRoot]
    apply or_congr_right
    apply or_congr_right
    constructor
    · intro member
      obtain ⟨candidate, listed, steps, less, same⟩ :=
        exists_positioned member
      exact ⟨candidate, isRow_iff.mpr listed, steps, less, same⟩
    · rintro ⟨candidate, isRow, steps, less, rfl⟩
      exact (positioned (isRow_iff.mp isRow) less).member
  · intro candidate isRow steps less
    have here := positioned (isRow_iff.mp isRow) less
    refine ⟨isRoot ▸ (sheetOf board).matrix.fresh _ here.member, ?_⟩
    intro other isRow' steps' less' same
    have there := positioned (isRow_iff.mp isRow') less'
    have row := here.row
    rw [same, there.row] at row
    exact ((List.idxOf_inj (isRow_iff.mp isRow')).mp row).symm
  · intro name
    rw [isColumn_iff]
    simp only [filled.columns_iff counted]
    exact ⟨fun found => found.elim fun _ both => both.1,
      fun listed => ⟨_, listed, rfl⟩⟩
  · intro name head isColumn
    exact ⟨counted.column_name name head isColumn,
      counted.column_col name head isColumn⟩
  · intro candidate isRow steps less
    have here := positioned (isRow_iff.mp isRow) less
    rw [filled.holds.name _ here.member, filled.holds.col _ here.member]
    exact ⟨here.part, filled.columns _ (Sheet.part_mem here.member)⟩
  · have heads := filled.holds.heads
    rw [linked_nil] at heads
    rw [isRoot]
    exact heads
  · exact fun candidate isRow => filled.row_ring (isRow_iff.mp isRow)
  · exact fun head inside => filled.vertical counted inside
  · intro head inside
    apply counted.size
    rcases List.mem_cons.mp inside with rfl | isHead
    · exact counted.root_lt
    · exact filled.lt_curNode_iff.mpr (Or.inr (Or.inl isHead))
  · have columns := length_columnNames_le board
    have rows := length_rowCandidates_le board
    rw [filled.curNode]
    change 1 + (columnNames board).length +
      4 * (rowCandidates board).length ≤ _
    unfold kMaxNodes
    omega
  · exact fun node less => filled.node_name_lt counted less

/-! ## The empty board -/

/-- A list of lists of one length. -/
theorem length_flatMap_of_eq
    {α β : Type*}
    {inner : α → List β}
    {length : Nat}
    {items : List α}
    (same : ∀ item ∈ items, (inner item).length = length) :
    (items.flatMap inner).length = length * items.length := by
  have lengths : items.map (fun item => (inner item).length) =
      List.replicate items.length length := by
    rw [List.eq_replicate_iff, List.length_map]
    refine ⟨rfl, ?_⟩
    intro other inside
    obtain ⟨item, listed, rfl⟩ := List.mem_map.mp inside
    exact same item listed
  rw [List.length_flatMap, lengths, List.sum_replicate, smul_eq_mul,
    Nat.mul_comm]

/-- A board without digits has all columns and all rows. -/
theorem lengths_of_empty
    {board : Board}
    (empty : ∀ cell < cellCount, board cell = 0) :
    (columnNames board).length = 81 * 4 ∧
      (rowCandidates board).length = 9 * 9 * 9 := by
  have cells : emptyCells board (List.range cellCount) =
      List.range cellCount := by
    apply List.filter_eq_self.mpr
    intro cell inside
    exact decide_eq_true (empty cell (List.mem_range.mp inside))
  have free : ∀ (kind : Kind) (unit : Nat), ∀ val ∈ digits,
      kind.used (Used.of board) unit val = false := by
    intro kind unit val isDigit
    rw [used_of_eq_false]
    intro cell less _ isVal
    rw [empty cell less] at isVal
    rw [mem_digits] at isDigit
    omega
  have names : ∀ unit ∈ units,
      (unitNames (Used.of board) unit).length = 3 := by
    intro unit isUnit
    have isDigit := (mem_units.mp isUnit).2
    have row : (Used.of board).rows unit.1 unit.2 = false :=
      free Kind.row unit.1 unit.2 isDigit
    have col : (Used.of board).cols unit.1 unit.2 = false :=
      free Kind.col unit.1 unit.2 isDigit
    have box : (Used.of board).boxes unit.1 unit.2 = false :=
      free Kind.box unit.1 unit.2 isDigit
    unfold unitNames unused
    rw [row, col, box]
    rfl
  have rows : ∀ cell ∈ List.range cellCount,
      (cellCandidates (Used.of board) cell).length = 9 := by
    intro cell _
    have all : (digits.filter fun val =>
        !(Used.of board).blocks cell val) = digits := by
      apply List.filter_eq_self.mpr
      intro val isDigit
      have isFree : (Used.of board).blocks cell val = false :=
        blocks_eq_false.mpr fun kind => free kind _ val isDigit
      rw [isFree, Bool.not_false]
    unfold cellCandidates
    rw [all, List.length_map]
    rfl
  have count : units.length = 81 := by decide
  constructor
  · unfold columnNames
    rw [cells, List.length_append, length_flatMap_of_eq names, count,
      List.length_range]
    rfl
  · unfold rowCandidates
    rw [cells, length_flatMap_of_eq rows, List.length_range]
    rfl

/-- The constructor returns for every board, with the matrix of the board in
its nodes; the empty board needs all of them. -/
theorem make_constructs
    {board : Board}
    (entries : ∀ cell < cellCount, board cell ≤ 9) :
    ∃ d heads first, Dance.make board = some d ∧
      Constructed board heads first d ∧
      ((∀ cell < cellCount, board cell = 0) → d.curNode = kMaxNodes) := by
  obtain ⟨d, made, filled⟩ := make_spec entries
  refine ⟨d, _, _, made, filled.constructed (Counted.make made), ?_⟩
  intro empty
  obtain ⟨columns, rows⟩ := lengths_of_empty empty
  rw [filled.curNode]
  change 1 + (columnNames board).length + 4 * (rowCandidates board).length = _
  rw [columns, rows]
  rfl

theorem make_constructs_noDigits :
    ∃ d heads first, Dance.make (fun _ => 0) = some d ∧
      Constructed (fun _ => 0) heads first d ∧
      ((∀ cell < cellCount, (fun _ => 0 : Board) cell = 0) →
        d.curNode = kMaxNodes) :=
  make_constructs fun _ _ => Nat.zero_le 9

end Dance
end Lab1
end CloudComputing
