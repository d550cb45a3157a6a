import CloudComputing.Lab1.Sheet

/-!
# The constructor

Each column goes to the end of the list of columns, and each node to the end of
its column and of its row.  The constructor fails no assertion and runs out of
nodes for no board; its state holds the matrix of the board.
-/

namespace CloudComputing
namespace Lab1
namespace Dance

variable {d : Dance}

/-! ## Single nodes -/

/-- `put_left` puts a node in front of the head of a ring. -/
theorem putLeft_eq
    {old nnew : Nat}
    (differs : old ≠ nnew)
    (d : Dance) :
    d.putLeft old nnew =
      { d with
        left := Ring.insertPrev d.left old nnew
        right := Ring.insertNext d.right d.left old nnew } := by
  unfold putLeft setLeft setRight Ring.insertPrev Ring.insertNext
  simp only [Function.update_of_ne differs]

/-- `put_up` puts a node in front of the head of a column. -/
theorem putUp_eq
    {old nnew : Nat}
    (differs : old ≠ nnew)
    (d : Dance) :
    d.putUp old nnew =
      { d with
        up := Ring.insertPrev d.up old nnew
        down := Ring.insertNext d.down d.up old nnew
        size := Function.update d.size old (d.size old + 1)
        col := Function.update d.col nnew old } := by
  unfold putUp setUp setDown setSize setCol Ring.insertPrev Ring.insertNext
  simp only [Function.update_of_ne differs]

/-- What `new_row` leaves alone, and what its node is. -/
structure NewNode (n c : Nat) (d next : Dance) : Prop where
  left : next.left = Function.update d.left d.curNode d.curNode
  right : next.right = Function.update d.right d.curNode d.curNode
  name : next.name = Function.update d.name d.curNode n
  col : next.col = Function.update d.col d.curNode c
  root : next.root = d.root
  inout : next.inout = d.inout
  columns : next.columns = d.columns
  stack : next.stack = d.stack
  curNode : next.curNode = d.curNode + 1

/-- The nodes so far are in their columns. -/
structure Stacked (heads nodes : List Nat) (d : Dance) : Prop where
  columns : Rings d.down d.up heads fun head =>
    nodes.filter fun node => d.col node = head
  heads_lt : ∀ head ∈ heads, head < d.curNode
  nodes_lt : ∀ node ∈ nodes, node < d.curNode

/-- The node of the next number is in no column. -/
theorem Stacked.fresh
    {heads nodes : List Nat}
    (stacked : Stacked heads nodes d)
    {head node : Nat}
    (listed : head ∈ heads)
    (inside : node ∈ head :: nodes.filter fun node => d.col node = head) :
    node ≠ d.curNode := by
  rcases List.mem_cons.mp inside with rfl | inside
  · exact (stacked.heads_lt _ listed).ne
  · exact (stacked.nodes_lt _ (List.mem_of_mem_filter inside)).ne

/-- `new_row` puts the next node at the end of its column. -/
theorem newRow_spec
    {heads nodes : List Nat}
    {n c : Nat}
    (stacked : Stacked heads nodes d)
    (isColumn : d.columns n = some c)
    (listed : c ∈ heads)
    (room : d.curNode < kMaxNodes) :
    ∃ next, d.newRow n = some (d.curNode, next) ∧ NewNode n c d next ∧
      Stacked heads (nodes ++ [d.curNode]) next := by
  have differs : c ≠ d.curNode := (stacked.heads_lt c listed).ne
  let before := ((({ d with curNode := d.curNode + 1 } : Dance).alone
    d.curNode).setName d.curNode n).setCol d.curNode c
  have isCol : before.col d.curNode = c := Function.update_self _ _ _
  have executed : d.newRow n =
      some (d.curNode, before.putUp c d.curNode) := by
    unfold newRow
    rw [isColumn, Option.bind_some, if_pos room]
    change some (d.curNode, before.putUp (before.col d.curNode) d.curNode) = _
    rw [isCol]
  have col : (before.putUp c d.curNode).col =
      Function.update d.col d.curNode c := by
    rw [putUp_eq differs]
    exact Function.update_idem _ _ _
  refine ⟨_, executed, ?_, ?_, ?_, ?_⟩
  · rw [putUp_eq differs] at col ⊢
    exact ⟨rfl, rfl, rfl, col, rfl, rfl, rfl, rfl, rfl⟩
  · have columns : Rings before.down before.up heads fun head =>
        nodes.filter fun node => d.col node = head := by
      apply stacked.columns.transport
      · intro head listed node inside
        exact Function.update_of_ne (stacked.fresh listed inside) _ _
      · intro head listed node inside
        exact Function.update_of_ne (stacked.fresh listed inside) _ _
    have absent : ∀ head ∈ heads, d.curNode ∉
        head :: nodes.filter fun node => d.col node = head := by
      intro head listed inside
      exact stacked.fresh listed inside rfl
    have inserted := columns.insert listed absent
    rw [col]
    rw [putUp_eq differs]
    apply inserted.congr
    intro head _
    have old : nodes.filter (fun node =>
          Function.update d.col d.curNode c node = head) =
        nodes.filter fun node => d.col node = head := by
      apply List.filter_congr
      intro node inside
      rw [Function.update_of_ne (stacked.nodes_lt node inside).ne]
    rw [List.filter_append, old]
    split
    case isTrue same =>
      rw [same, List.filter_cons_of_pos (by simp), List.filter_nil]
    case isFalse other =>
      rw [List.filter_cons_of_neg (by simpa using Ne.symm other),
        List.filter_nil, List.append_nil]
  · intro head listed
    rw [putUp_eq differs]
    exact Nat.lt_succ_of_lt (stacked.heads_lt head listed)
  · intro node inside
    rw [putUp_eq differs]
    rcases List.mem_append.mp inside with inside | inside
    · exact Nat.lt_succ_of_lt (stacked.nodes_lt node inside)
    · rw [List.mem_singleton.mp inside]
      exact Nat.lt_succ_self _

/-- `put_left` makes a ring longer. -/
theorem putLeft_ring
    {old nnew : Nat}
    {members : List Nat}
    (ring : Ring d.right d.left old members)
    (fresh : nnew ∉ old :: members) :
    Ring (d.putLeft old nnew).right (d.putLeft old nnew).left old
      (members ++ [nnew]) := by
  have differs : old ≠ nnew := by
    rintro rfl
    exact fresh List.mem_cons_self
  rw [putLeft_eq differs]
  exact ring.insert fresh

/-- `put_left` leaves the links of all other nodes alone. -/
theorem putLeft_of_notMem
    {old nnew node : Nat}
    {members : List Nat}
    (ring : Ring d.right d.left old members)
    (fresh : nnew ∉ old :: members)
    (differs : node ≠ nnew)
    (outside : node ∉ old :: members) :
    (d.putLeft old nnew).right node = d.right node ∧
      (d.putLeft old nnew).left node = d.left node := by
  have apart : old ≠ nnew := by
    rintro rfl
    exact fresh List.mem_cons_self
  rw [putLeft_eq apart]
  exact ⟨ring.insertNext_of_notMem differs outside,
    Ring.insertPrev_of_notMem differs outside⟩

/-! ## Rows -/

/-- The four nodes of a digit in a cell. -/
structure NewRow (names cols : List Nat) (d next : Dance) : Prop where
  ring : Ring next.right next.left d.curNode
    [d.curNode + 1, d.curNode + 2, d.curNode + 3]
  right : ∀ node < d.curNode, next.right node = d.right node
  left : ∀ node < d.curNode, next.left node = d.left node
  name : ∀ node < d.curNode, next.name node = d.name node
  col : ∀ node < d.curNode, next.col node = d.col node
  newName : ∀ steps < 4, next.name (d.curNode + steps) = names.getD steps 0
  newCol : ∀ steps < 4, next.col (d.curNode + steps) = cols.getD steps 0
  root : next.root = d.root
  inout : next.inout = d.inout
  columns : next.columns = d.columns
  stack : next.stack = d.stack
  curNode : next.curNode = d.curNode + 4

/-- The three calls of `put_left` link four nodes to a ring. -/
theorem putLefts_ring
    {x : Nat}
    (alone : ∀ node, x ≤ node → node < x + 4 →
      d.right node = node ∧ d.left node = node) :
    let next := ((d.putLeft x (x + 1)).putLeft x (x + 2)).putLeft x (x + 3)
    Ring next.right next.left x [x + 1, x + 2, x + 3] ∧
      ∀ node < x, next.right node = d.right node ∧
        next.left node = d.left node := by
  obtain ⟨forward, backward⟩ := alone x (le_refl x) (by omega)
  have ring : Ring d.right d.left x [] := Ring.singleton forward backward
  have fresh : x + 1 ∉ x :: ([] : List Nat) := by simp
  have ring' := putLeft_ring ring fresh
  have fresh' : x + 2 ∉ x :: ([] ++ [x + 1]) := by simp
  have ring'' := putLeft_ring ring' fresh'
  have fresh'' : x + 3 ∉ x :: ([] ++ [x + 1] ++ [x + 2]) := by simp
  refine ⟨putLeft_ring ring'' fresh'', ?_⟩
  intro node less
  have outside : ∀ members : List Nat, (∀ other ∈ members, x ≤ other) →
      node ∉ members := by
    intro members above inside
    exact absurd (above node inside) (by omega)
  have first := putLeft_of_notMem ring fresh (by omega : node ≠ x + 1)
    (outside _ (by simp))
  have second := putLeft_of_notMem ring' fresh' (by omega : node ≠ x + 2)
    (outside _ (by simp))
  have third := putLeft_of_notMem ring'' fresh'' (by omega : node ≠ x + 3)
    (outside _ (by simp))
  exact ⟨third.1.trans (second.1.trans first.1),
    third.2.trans (second.2.trans first.2)⟩

/-- A row is added. -/
theorem addRow_spec
    {heads nodes : List Nat}
    {cell val : Nat}
    {header : Nat → Nat}
    (stacked : Stacked heads nodes d)
    (isColumn : ∀ name ∈ parts (cell, val),
      d.columns name = some (header name) ∧ header name ∈ heads)
    (room : d.curNode + 3 < kMaxNodes) :
    ∃ next, d.addRow cell val = some next ∧
      NewRow (parts (cell, val)) ((parts (cell, val)).map header) d next ∧
      Stacked heads (nodes ++ [d.curNode, d.curNode + 1, d.curNode + 2,
        d.curNode + 3]) next := by
  unfold parts at isColumn
  simp only [List.forall_mem_cons] at isColumn
  obtain ⟨⟨found₀, listed₀⟩, ⟨found₁, listed₁⟩, ⟨found₂, listed₂⟩,
    ⟨found₃, listed₃⟩, _⟩ := isColumn
  obtain ⟨next₀, executed₀, new₀, stacked₀⟩ := newRow_spec stacked found₀
    listed₀ (by omega)
  rw [← new₀.columns] at found₁ found₂ found₃
  obtain ⟨next₁, executed₁, new₁, stacked₁⟩ := newRow_spec stacked₀ found₁
    listed₁ (by rw [new₀.curNode]; omega)
  rw [← new₁.columns] at found₂ found₃
  obtain ⟨next₂, executed₂, new₂, stacked₂⟩ := newRow_spec stacked₁ found₂
    listed₂ (by rw [new₁.curNode, new₀.curNode]; omega)
  rw [← new₂.columns] at found₃
  obtain ⟨next₃, executed₃, new₃, stacked₃⟩ := newRow_spec stacked₂ found₃
    listed₃ (by rw [new₂.curNode, new₁.curNode, new₀.curNode]; omega)
  have cur₁ : next₁.curNode = d.curNode + 2 := by
    rw [new₁.curNode, new₀.curNode]
  have cur₂ : next₂.curNode = d.curNode + 3 := by
    rw [new₂.curNode, cur₁]
  have cur₃ : next₃.curNode = d.curNode + 4 := by
    rw [new₃.curNode, cur₂]
  have executed : d.addRow cell val = some
      (((next₃.putLeft d.curNode (d.curNode + 1)).putLeft d.curNode
        (d.curNode + 2)).putLeft d.curNode (d.curNode + 3)) := by
    unfold addRow
    simp only [executed₀, executed₁, executed₂, executed₃,
      Option.bind_eq_bind, Option.bind_some, new₀.curNode, cur₁, cur₂]
  have alone : ∀ node, d.curNode ≤ node → node < d.curNode + 4 →
      next₃.right node = node ∧ next₃.left node = node := by
    intro node low high
    rw [new₃.right, new₂.right, new₁.right, new₀.right, new₃.left, new₂.left,
      new₁.left, new₀.left, new₀.curNode, cur₁, cur₂]
    simp only [Function.update_apply]
    constructor
    · split_ifs <;> omega
    · split_ifs <;> omega
  obtain ⟨ring, others⟩ := putLefts_ring alone
  have old : ∀ node < d.curNode, next₃.right node = d.right node ∧
      next₃.left node = d.left node ∧ next₃.name node = d.name node ∧
      next₃.col node = d.col node := by
    intro node less
    rw [new₃.right, new₂.right, new₁.right, new₀.right, new₃.left, new₂.left,
      new₁.left, new₀.left, new₃.name, new₂.name, new₁.name, new₀.name,
      new₃.col, new₂.col, new₁.col, new₀.col, new₀.curNode, cur₁, cur₂]
    have apart₀ : node ≠ d.curNode := by omega
    have apart₁ : node ≠ d.curNode + 1 := by omega
    have apart₂ : node ≠ d.curNode + 2 := by omega
    have apart₃ : node ≠ d.curNode + 3 := by omega
    simp only [Function.update_of_ne apart₀, Function.update_of_ne apart₁,
      Function.update_of_ne apart₂, Function.update_of_ne apart₃, and_self]
  have four : ∀ steps < 4, steps = 0 ∨ steps = 1 ∨ steps = 2 ∨ steps = 3 := by
    omega
  refine ⟨_, executed, ⟨ring, ?_, ?_, ?_, ?_, ?_, ?_, ?_, ?_, ?_, ?_, ?_⟩,
    ?_⟩
  · intro node less
    exact (others node less).1.trans (old node less).1
  · intro node less
    exact (others node less).2.trans (old node less).2.1
  · intro node less
    exact (old node less).2.2.1
  · intro node less
    exact (old node less).2.2.2
  · intro steps less
    change next₃.name _ = _
    rw [new₃.name, new₂.name, new₁.name, new₀.name, new₀.curNode, cur₁, cur₂]
    rcases four steps less with rfl | rfl | rfl | rfl <;>
      simp [parts]
  · intro steps less
    change next₃.col _ = _
    rw [new₃.col, new₂.col, new₁.col, new₀.col, new₀.curNode, cur₁, cur₂]
    rcases four steps less with rfl | rfl | rfl | rfl <;>
      simp [parts]
  · exact new₃.root.trans (new₂.root.trans (new₁.root.trans new₀.root))
  · exact new₃.inout.trans (new₂.inout.trans (new₁.inout.trans new₀.inout))
  · exact new₃.columns.trans (new₂.columns.trans (new₁.columns.trans
      new₀.columns))
  · exact new₃.stack.trans (new₂.stack.trans (new₁.stack.trans new₀.stack))
  · exact cur₃
  · rw [new₀.curNode, cur₁, cur₂, List.append_assoc, List.append_assoc,
      List.append_assoc] at stacked₃
    exact ⟨stacked₃.columns, stacked₃.heads_lt, stacked₃.nodes_lt⟩

/-! ## Columns -/

/-- A state of the constructor with these columns, and without rows. -/
structure Built (board : Board) (names : List Nat) (d : Dance) : Prop where
  root : d.root = 0
  inout : d.inout = board
  stack : d.stack = []
  curNode : d.curNode = 1 + names.length
  columns : ∀ name, d.columns name =
    if name ∈ names then some (1 + names.idxOf name) else none
  heads : Ring d.right d.left 0 (List.range' 1 names.length)
  alone : ∀ head ∈ List.range' 1 names.length,
    d.down head = head ∧ d.up head = head

/-- `append_column` appends a column of a new name. -/
theorem Built.appendColumn
    {board : Board}
    {names : List Nat}
    {name : Nat}
    (built : Built board names d)
    (absent : name ∉ names)
    (room : 1 + names.length < kMaxNodes) :
    ∃ next, d.appendColumn name = some next ∧
      Built board (names ++ [name]) next := by
  let c := d.curNode
  let before := ((({ d with curNode := c + 1 } : Dance).alone c).setCol c
    c).setName c name
  have isCur : c = 1 + names.length := built.curNode
  have unknown : d.columns name = none := by
    rw [built.columns, if_neg absent]
  have executed : d.appendColumn name =
      some { before.putLeft 0 c with
        columns := Function.update d.columns name (some c) } := by
    unfold Dance.appendColumn newColumn
    rw [if_pos unknown, if_pos (built.curNode ▸ room), ← built.root]
    rfl
  have fresh : ∀ node ∈ 0 :: List.range' 1 names.length, node ≠ c := by
    intro node inside
    rw [List.mem_cons, List.mem_range'_1] at inside
    omega
  have absent' : c ∉ 0 :: List.range' 1 names.length :=
    fun inside => fresh c inside rfl
  have ring : Ring before.right before.left 0 (List.range' 1 names.length) := by
    apply built.heads.transport
    · intro node inside
      exact Function.update_of_ne (fresh node inside) _ _
    · intro node inside
      exact Function.update_of_ne (fresh node inside) _ _
  have more : List.range' 1 (names ++ [name]).length =
      List.range' 1 names.length ++ [c] := by
    rw [List.length_append, List.length_singleton, isCur,
      List.range'_1_concat]
  have heads := putLeft_ring ring absent'
  refine ⟨_, executed, built.root, built.inout, built.stack, ?_, ?_, ?_, ?_⟩
  · change c + 1 = _
    rw [isCur, List.length_append, List.length_singleton, Nat.add_assoc]
  · intro other
    change Function.update d.columns name (some c) other = _
    rw [Function.update_apply, built.columns]
    simp only [List.mem_append, List.mem_singleton]
    split
    case isTrue same =>
      rw [if_pos (Or.inr same), same, List.idxOf_append_of_notMem absent,
        List.idxOf_cons_self, isCur, Nat.add_zero]
    case isFalse differs =>
      split
      case isTrue inside =>
        rw [if_pos (Or.inl inside), List.idxOf_append_of_mem inside]
      case isFalse outside =>
        rw [if_neg (by tauto)]
  · rw [more]
    exact heads
  · intro head inside
    change Function.update d.down c c head = head ∧
      Function.update d.up c c head = head
    rw [more] at inside
    rcases List.mem_append.mp inside with inside | inside
    · have differs := fresh head (List.mem_cons_of_mem 0 inside)
      rw [Function.update_of_ne differs, Function.update_of_ne differs]
      exact built.alone head inside
    · rw [List.mem_singleton.mp inside]
      exact ⟨Function.update_self _ _ _, Function.update_self _ _ _⟩

/-- The state in front of the loops. -/
theorem built_start (board : Board) :
    ∃ d, (blank board).newColumn 0 = some (0, d) ∧
      Built board [] ((({ d with root := 0 } : Dance).setRight 0 0).setLeft
        0 0) := by
  refine ⟨_, rfl, rfl, rfl, rfl, rfl, fun name => rfl, ?_, ?_⟩
  · exact Ring.singleton rfl rfl
  · intro head inside
    cases inside

/-- The loops append the columns one after the other. -/
theorem append_eq (board : Board) (d : Dance) :
    ((List.range cellCount).foldlM (appendCell board) d).bind
        (units.foldlM (appendUnits (Used.of board))) =
      (columnNames board).foldlM (fun d name => d.appendColumn name) d := by
  have cells : (List.range cellCount).foldlM (appendCell board) d =
      (emptyCells board (List.range cellCount)).foldlM
        (fun d name => d.appendColumn name) d := by
    unfold emptyCells
    rw [List.foldlM_filter]
    congr 1
    funext d cell
    unfold appendCell
    simp only [decide_eq_true_eq]
    rfl
  have single : ∀ (used : Bool) (name : Nat) (d : Dance),
      (unused used name).foldlM (fun d name => d.appendColumn name) d =
        d.appendUnless used name := by
    intro used name d
    unfold unused appendUnless
    cases used with
    | false => simp
    | true => rfl
  have perUnit : appendUnits (Used.of board) = fun d unit =>
      (unitNames (Used.of board) unit).foldlM
        (fun d name => d.appendColumn name) d := by
    funext d unit
    unfold unitNames appendUnits
    rw [List.foldlM_append, List.foldlM_append, bind_assoc]
    simp only [single]
  unfold columnNames
  rw [List.foldlM_append, cells, perUnit]
  congr 1
  funext d
  rw [foldlM_flatMap]

/-- The loops append all columns of the board. -/
theorem Built.appendAll
    {board : Board}
    (built : Built board [] d) :
    ∃ next, ((List.range cellCount).foldlM (appendCell board) d).bind
        (units.foldlM (appendUnits (Used.of board))) = some next ∧
      Built board (columnNames board) next := by
  have short := length_columnNames_le board
  have nodup := columnNames_nodup board
  rw [append_eq]
  have steps : ∀ done name rest d, columnNames board = done ++ name :: rest →
      Built board done d →
      ∃ next, d.appendColumn name = some next ∧
        Built board (done ++ [name]) next := by
    intro done name rest d split built
    rw [split] at short nodup
    have absent : name ∉ done := by
      intro inside
      rw [List.nodup_append] at nodup
      exact nodup.2.2 name inside name List.mem_cons_self rfl
    apply built.appendColumn absent
    rw [List.length_append, List.length_cons] at short
    unfold kMaxNodes
    omega
  exact foldlM_spec steps built

/-! ## The rows of the board -/

/-- A state of the constructor with all columns and with some of the rows. -/
structure Filled (board : Board) (sheet : Sheet) (d : Dance) : Prop where
  holds : sheet.matrix.Holds [] d
  inout : d.inout = board
  stack : d.stack = []
  curNode : d.curNode = sheet.base + 4 * sheet.candidates.length
  columns : ∀ name ∈ sheet.names, d.columns name = some (sheet.header name)

/-- Without rows the columns are empty. -/
theorem Built.filled
    {board : Board}
    {sheet : Sheet}
    (built : Built board sheet.names d)
    (noRows : sheet.candidates = []) :
    Filled board sheet d where
  holds := by
    have noNodes : sheet.nodes = [] := by
      unfold Sheet.nodes
      rw [noRows]
      rfl
    have absent : ∀ node, node ∉ sheet.matrix.nodes := by
      intro node inside
      change node ∈ sheet.nodes at inside
      rw [noNodes] at inside
      cases inside
    have all : sheet.matrix.linked [] = List.range' 1 sheet.names.length := by
      apply List.filter_eq_self.mpr
      intro head _
      exact decide_eq_true List.not_mem_nil
    have empty : ∀ head, sheet.matrix.active [] head = [] := by
      intro head
      apply List.filter_eq_nil_iff.mpr
      intro node inside
      exact absurd inside (absent node)
    refine ⟨built.root, ?_, ?_, ?_, ?_, ?_, ?_⟩
    · exact fun node inside => absurd inside (absent node)
    · exact fun node inside => absurd inside (absent node)
    · exact fun node inside => absurd inside (absent node)
    · rw [all]
      exact built.heads
    · intro head inside
      rw [all] at inside
      rw [empty]
      obtain ⟨forward, backward⟩ := built.alone head inside
      exact Ring.singleton forward backward
    · intro head _ other _ differs node inside inside'
      rw [empty, List.mem_singleton] at inside inside'
      exact differs (inside.symm.trans inside')
  inout := built.inout
  stack := built.stack
  curNode := by
    rw [built.curNode, noRows]
    rfl
  columns := by
    intro name inside
    rw [built.columns, if_pos inside]
    rfl

/-- The columns of a sheet when none is covered. -/
theorem linked_nil (sheet : Sheet) :
    sheet.matrix.linked [] = List.range' 1 sheet.names.length :=
  List.filter_eq_self.mpr fun _ _ => decide_eq_true List.not_mem_nil

/-- The nodes of a column when none is covered. -/
theorem active_nil (sheet : Sheet) (head : Nat) :
    sheet.matrix.active [] head =
      sheet.nodes.filter fun node => sheet.header (sheet.part node) = head := by
  apply List.filter_congr
  intro node _
  rw [decide_eq_decide]
  constructor
  · rintro ⟨isHead, _⟩
    exact isHead
  · intro isHead
    exact ⟨isHead, fun mate _ => List.not_mem_nil⟩

/-- The numbers of the columns are smaller than those of the nodes. -/
theorem Filled.heads_lt
    {board : Board}
    {sheet : Sheet}
    (filled : Filled board sheet d)
    {head : Nat}
    (inside : head ∈ 0 :: List.range' 1 sheet.names.length) :
    head < d.curNode := by
  rw [List.mem_cons, List.mem_range'_1] at inside
  rw [filled.curNode]
  unfold Sheet.base
  omega

/-- The nodes of a sheet are in their columns. -/
theorem Filled.stacked
    {board : Board}
    {sheet : Sheet}
    (filled : Filled board sheet d) :
    Stacked (List.range' 1 sheet.names.length) sheet.nodes d where
  columns := by
    have columns := filled.holds.columns
    rw [linked_nil] at columns
    apply columns.congr
    intro head _
    rw [active_nil]
    apply List.filter_congr
    intro node inside
    rw [filled.holds.col node inside]
    rfl
  heads_lt := fun head inside => filled.heads_lt (List.mem_cons_of_mem 0 inside)
  nodes_lt := by
    intro node inside
    rw [filled.curNode]
    exact (Sheet.mem_nodes.mp inside).2

/-- The constructor adds one more row. -/
theorem Filled.addRow
    {board : Board}
    {sheet more : Sheet}
    {candidate : Nat × Nat}
    (filled : Filled board sheet d)
    (adds : sheet.Adds more candidate)
    (room : d.curNode + 3 < kMaxNodes) :
    ∃ next, d.addRow candidate.1 candidate.2 = some next ∧
      Filled board more next := by
  have listed : candidate ∈ more.candidates := by
    rw [adds.candidates]
    exact List.mem_append_right _ List.mem_cons_self
  have isColumn : ∀ name ∈ parts candidate,
      d.columns name = some (sheet.header name) ∧
        sheet.header name ∈ List.range' 1 sheet.names.length := by
    intro name inside
    have isName := more.named candidate listed inside
    rw [adds.names] at isName
    have bound := List.idxOf_lt_length_of_mem isName
    refine ⟨filled.columns name isName, ?_⟩
    rw [List.mem_range'_1]
    unfold Sheet.header
    omega
  obtain ⟨next, executed, new, stacked⟩ := addRow_spec filled.stacked isColumn
    room
  have isFirst : d.curNode = Sheet.Adds.first sheet := filled.curNode
  have old : ∀ node ∈ sheet.nodes, node < d.curNode := filled.stacked.nodes_lt
  have holds := filled.holds
  have col : ∀ node ∈ more.nodes,
      next.col node = more.header (more.part node) := by
    intro node member
    rcases adds.node_cases member with ⟨inside, less⟩ | ⟨steps, less, rfl⟩
    · rw [new.col node (old node inside), holds.col node inside, adds.header,
        adds.part_old inside]
      rfl
    · rw [← isFirst, new.newCol steps less, isFirst, adds.header,
        adds.part_new less]
      have four : steps = 0 ∨ steps = 1 ∨ steps = 2 ∨ steps = 3 := by omega
      rcases four with rfl | rfl | rfl | rfl
      · rfl
      · rfl
      · rfl
      · rfl
  refine ⟨next, executed, ⟨?_, col, ?_, ?_, ?_, ?_⟩, ?_, ?_, ?_, ?_⟩
  · rw [new.root, holds.root]
  · intro node member
    rcases adds.node_cases member with ⟨inside, less⟩ | ⟨steps, less, rfl⟩
    · rw [new.name node (old node inside), holds.name node inside]
      exact (adds.part_old inside).symm
    · rw [← isFirst, new.newName steps less, isFirst]
      exact (adds.part_new less).symm
  · intro node member
    rcases adds.node_cases member with ⟨inside, less⟩ | ⟨steps, less, rfl⟩
    · have inRow : ∀ other ∈ node :: sheet.mates node, other < d.curNode :=
        fun other inRow =>
          old other (Sheet.mem_nodes_of_mem_row inside inRow)
      change Ring _ _ node (more.mates node)
      rw [adds.mates]
      apply (holds.rows node inside).transport
      · intro other inside
        exact new.right other (inRow other inside)
      · intro other inside
        exact new.left other (inRow other inside)
    · exact adds.ring (isFirst ▸ new.ring) less
  · have heads := holds.heads
    rw [linked_nil] at heads ⊢
    rw [adds.names]
    apply heads.transport
    · intro other inside
      exact new.right other (filled.heads_lt inside)
    · intro other inside
      exact new.left other (filled.heads_lt inside)
  · have columns := stacked.columns
    rw [linked_nil, adds.names]
    apply columns.congr
    intro head _
    have nodes := adds.nodes
    rw [← isFirst] at nodes
    rw [active_nil, nodes]
    apply List.filter_congr
    intro node inside
    rw [← nodes] at inside
    rw [col node inside]
  · rw [new.inout, filled.inout]
  · rw [new.stack, filled.stack]
  · rw [new.curNode, filled.curNode, adds.base, adds.candidates,
      List.length_append, List.length_singleton, Nat.mul_add, Nat.add_assoc]
  · intro name inside
    rw [adds.names] at inside
    rw [new.columns, filled.columns name inside, adds.header]

/-- The loops add the rows one after the other. -/
theorem addCells_eq (board : Board) (d : Dance) :
    (List.range cellCount).foldlM (addCell board (Used.of board)) d =
      (rowCandidates board).foldlM
        (fun d candidate => d.addRow candidate.1 candidate.2) d := by
  unfold rowCandidates emptyCells
  rw [foldlM_flatMap, List.foldlM_filter]
  congr 1
  funext d cell
  unfold addCell cellCandidates
  rw [List.foldlM_map, List.foldlM_filter]
  simp only [decide_eq_true_eq]
  split
  · congr 1
    funext d val
    unfold addCandidate Used.blocks
    split
    case isTrue blocked => simp [blocked]
    case isFalse free => simp [free]
  · rfl

/-- The constructor: its state holds the matrix of the board. -/
theorem make_spec
    {board : Board}
    (entries : ∀ cell < cellCount, board cell ≤ 9) :
    ∃ d, make board = some d ∧
      Filled board (Sheet.of board (rowCandidates board)
        (List.Subset.refl _)) d := by
  obtain ⟨first, started, built⟩ := built_start board
  obtain ⟨second, appended, built⟩ := built.appendAll
  have steps : ∀ done candidate rest d,
      rowCandidates board = done ++ candidate :: rest →
      (∃ listed, Filled board (Sheet.of board done listed) d) →
      ∃ next, d.addRow candidate.1 candidate.2 = some next ∧
        ∃ listed, Filled board (Sheet.of board (done ++ [candidate]) listed)
          next := by
    rintro done candidate rest d split ⟨listed, filled⟩
    have listed' : done ++ [candidate] ⊆ rowCandidates board := by
      rw [split]
      intro other inside
      simp only [List.mem_append, List.mem_cons, List.not_mem_nil, or_false]
        at inside ⊢
      tauto
    have adds : (Sheet.of board done listed).Adds
        (Sheet.of board (done ++ [candidate]) listed') candidate := ⟨rfl, rfl⟩
    have room : d.curNode + 3 < kMaxNodes := by
      have columns := length_columnNames_le board
      have rows := length_rowCandidates_le board
      rw [split, List.length_append, List.length_cons] at rows
      rw [filled.curNode]
      change 1 + (columnNames board).length + 4 * done.length + 3 < kMaxNodes
      unfold kMaxNodes
      omega
    obtain ⟨next, executed, filled⟩ := filled.addRow adds room
    exact ⟨next, executed, listed', filled⟩
  have start : ∃ listed, Filled board (Sheet.of board [] listed) second :=
    ⟨List.nil_subset _, built.filled rfl⟩
  obtain ⟨last, added, listed, filled⟩ := foldlM_spec steps start
  rw [← addCells_eq] at added
  refine ⟨last, ?_, filled⟩
  have read : Used.read board = some (Used.of board) := by
    apply if_pos
    rw [List.all_eq_true]
    intro cell inside
    exact decide_eq_true (Nat.lt_succ_of_le
      (entries cell (List.mem_range.mp inside)))
  unfold make
  rw [started, read]
  have loops : (((List.range cellCount).foldlM (appendCell board)
      ((({ first with root := 0 } : Dance).setRight 0 0).setLeft 0 0)).bind
        (units.foldlM (appendUnits (Used.of board)))).bind
          ((List.range cellCount).foldlM (addCell board (Used.of board))) =
      some last := by
    rw [appended]
    exact added
  rw [Option.bind_assoc] at loops
  exact loops

end Dance
end Lab1
end CloudComputing
