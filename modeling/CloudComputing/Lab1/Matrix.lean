import CloudComputing.Lab1.Dance

/-!
# Covering and uncovering columns

The matrix that a `Dance` holds: its columns, its nodes, and for each node the
other nodes of its row.  A state represents the matrix without some covered
columns when its links are the rings of the other columns and of the rows that
avoid the covered ones.  `cover` adds a column to the covered ones, and
`uncover` restores the state as it was.
-/

namespace CloudComputing
namespace Lab1

/-- A matrix: each row is a ring of nodes in different columns. -/
structure Matrix where
  heads : List Nat
  nodes : List Nat
  col : Nat → Nat
  name : Nat → Nat
  mates : Nat → List Nat
  heads_nodup : (0 :: heads).Nodup
  nodes_nodup : nodes.Nodup
  fresh : ∀ node ∈ nodes, node ∉ 0 :: heads
  col_mem : ∀ node ∈ nodes, col node ∈ heads
  mates_mem : ∀ node ∈ nodes, ∀ mate ∈ mates node, mate ∈ nodes
  cycle : ∀ node ∈ nodes, ∀ mate ∈ mates node, ∀ other,
    other ∈ mate :: mates mate ↔ other ∈ node :: mates node
  apart : ∀ node ∈ nodes, ((node :: mates node).map col).Nodup

namespace Matrix

variable (M : Matrix)

/-- The columns that are not covered. -/
def linked (covered : List Nat) : List Nat :=
  M.heads.filter (· ∉ covered)

/-- The row of the node avoids the covered columns. -/
def Free (covered : List Nat) (node : Nat) : Prop :=
  ∀ mate ∈ node :: M.mates node, M.col mate ∉ covered

instance (covered : List Nat) (node : Nat) : Decidable (M.Free covered node) :=
  inferInstanceAs (Decidable (∀ mate ∈ node :: M.mates node,
    M.col mate ∉ covered))

/-- The nodes of a column whose rows avoid the covered columns. -/
def active (covered : List Nat) (head : Nat) : List Nat :=
  M.nodes.filter fun node => M.col node = head ∧ M.Free covered node

/-- The nodes that `cover` takes out of their columns. -/
def mated (covered : List Nat) (head : Nat) : List Nat :=
  (M.active covered head).flatMap M.mates

variable {M : Matrix} {covered : List Nat} {head node : Nat}

theorem mem_linked :
    head ∈ M.linked covered ↔ head ∈ M.heads ∧ head ∉ covered := by
  unfold linked
  rw [List.mem_filter, decide_eq_true_eq]

theorem mem_active :
    node ∈ M.active covered head ↔
      node ∈ M.nodes ∧ M.col node = head ∧ M.Free covered node := by
  unfold active
  rw [List.mem_filter, decide_eq_true_eq]

theorem mem_mated :
    node ∈ M.mated covered head ↔
      ∃ row ∈ M.active covered head, node ∈ M.mates row :=
  List.mem_flatMap

/-- The nodes of a row are free together. -/
theorem Free.mate
    (free : M.Free covered node)
    (member : node ∈ M.nodes)
    {mate : Nat}
    (inRow : mate ∈ M.mates node) :
    M.Free covered mate := by
  intro other inside
  exact free other ((M.cycle node member mate inRow other).mp inside)

/-- A node is a mate of its mates. -/
theorem mate_symm
    (member : node ∈ M.nodes)
    {mate : Nat}
    (inRow : mate ∈ M.mates node) :
    node ∈ M.mates mate := by
  have inside := (M.cycle node member mate inRow node).mpr List.mem_cons_self
  rcases List.mem_cons.mp inside with rfl | inside
  · have apart := M.apart node member
    rw [List.map_cons, List.nodup_cons] at apart
    exact absurd (List.mem_map_of_mem inRow) apart.1
  · exact inside

/-- The nodes of a row are in different columns. -/
theorem col_mate_ne
    (member : node ∈ M.nodes)
    {mate : Nat}
    (inRow : mate ∈ M.mates node) :
    M.col mate ≠ M.col node := by
  have apart := M.apart node member
  rw [List.map_cons, List.nodup_cons] at apart
  intro same
  exact apart.1 (same ▸ List.mem_map_of_mem inRow)

theorem mates_nodup (member : node ∈ M.nodes) : (M.mates node).Nodup := by
  have apart := M.apart node member
  rw [List.map_cons, List.nodup_cons] at apart
  exact apart.2.of_map

/-- A row is not longer than the list of all nodes. -/
theorem length_mates_le (member : node ∈ M.nodes) :
    (M.mates node).length ≤ M.nodes.length :=
  (List.subperm_of_subset (mates_nodup member) (M.mates_mem node member)).length_le

theorem length_active_le : (M.active covered head).length ≤ M.nodes.length :=
  List.length_filter_le _ _

/-- `cover` comes to each node once. -/
theorem mated_nodup : (M.mated covered head).Nodup := by
  unfold mated
  rw [List.nodup_flatMap]
  constructor
  · intro row inside
    exact mates_nodup (mem_active.mp inside).1
  · have nodup : (M.active covered head).Nodup := M.nodes_nodup.filter _
    refine nodup.imp_of_mem ?_
    intro row other inside inside' differs node inRow inOther
    obtain ⟨member, isHead, _⟩ := mem_active.mp inside
    obtain ⟨member', isHead', _⟩ := mem_active.mp inside'
    have back := List.mem_cons_of_mem node (mate_symm member' inOther)
    rw [M.cycle row member node inRow other] at back
    rcases List.mem_cons.mp back with same | back
    · exact differs same.symm
    · exact col_mate_ne member back (isHead'.trans isHead.symm)

/-- What `cover` takes out is in other columns. -/
theorem col_mated_ne (inside : node ∈ M.mated covered head) :
    M.col node ≠ head := by
  obtain ⟨row, active, inRow⟩ := mem_mated.mp inside
  obtain ⟨member, isHead, _⟩ := mem_active.mp active
  rw [← isHead]
  exact col_mate_ne member inRow

/-- What `cover` takes out was active in its own column. -/
theorem active_of_mated (inside : node ∈ M.mated covered head) :
    node ∈ M.active covered (M.col node) := by
  obtain ⟨row, active, inRow⟩ := mem_mated.mp inside
  obtain ⟨member, _, free⟩ := mem_active.mp active
  exact mem_active.mpr ⟨M.mates_mem row member node inRow, rfl,
    free.mate member inRow⟩

theorem linked_of_free
    (member : node ∈ M.nodes)
    (free : M.Free covered node) :
    M.col node ∈ M.linked covered :=
  mem_linked.mpr ⟨M.col_mem node member, free node List.mem_cons_self⟩

/-- What is left of another column when one more is covered. -/
theorem active_cons
    {other : Nat}
    (differs : other ≠ head) :
    (M.active covered other).filter (· ∉ M.mated covered head) =
      M.active (head :: covered) other := by
  unfold active
  rw [List.filter_filter]
  apply List.filter_congr
  intro node member
  rw [← Bool.decide_and, decide_eq_decide]
  constructor
  · rintro ⟨apart, isOther, free⟩
    refine ⟨isOther, ?_⟩
    intro mate inRow also
    rcases List.mem_cons.mp also with isHead | also
    · rcases List.mem_cons.mp inRow with rfl | inRow
      · exact differs (isOther.symm.trans isHead)
      · apply apart
        rw [mem_mated]
        refine ⟨mate, mem_active.mpr ⟨M.mates_mem node member mate inRow,
          isHead, free.mate member inRow⟩, mate_symm member inRow⟩
    · exact free mate inRow also
  · rintro ⟨isOther, free⟩
    refine ⟨?_, isOther, ?_⟩
    · intro inside
      obtain ⟨row, active, inRow⟩ := mem_mated.mp inside
      obtain ⟨member', isHead, _⟩ := mem_active.mp active
      apply free row (List.mem_cons_of_mem node (mate_symm member' inRow))
      exact List.mem_cons.mpr (Or.inl isHead)
    · intro mate inRow also
      exact free mate inRow (List.mem_cons_of_mem head also)

theorem linked_cons :
    M.linked (head :: covered) = (M.linked covered).filter (· ≠ head) := by
  unfold linked
  rw [List.filter_filter]
  apply List.filter_congr
  intro other _
  rw [← Bool.decide_and, decide_eq_decide, List.mem_cons]
  tauto

end Matrix

/-! ## States that hold the matrix -/

/-- What the links of a `Dance` look like when some columns are covered. -/
structure Matrix.Holds
    (M : Matrix)
    (covered : List Nat)
    (d : Dance) : Prop where
  root : d.root = 0
  col : ∀ node ∈ M.nodes, d.col node = M.col node
  name : ∀ node ∈ M.nodes, d.name node = M.name node
  rows : ∀ node ∈ M.nodes, Ring d.right d.left node (M.mates node)
  heads : Ring d.right d.left 0 (M.linked covered)
  columns : Rings d.down d.up (M.linked covered) (M.active covered)

namespace Dance

/-- `unlink` takes a node out of its column. -/
theorem unlink_eq (j : Nat) (d : Dance) :
    d.unlink j =
      { d with
        up := Ring.unlinkNext d.up d.down j
        down := Ring.unlinkNext d.down d.up j
        size := Function.update d.size (d.col j) (d.size (d.col j) - 1) } := by
  have kept := Ring.unlinkNext_self d.up d.down j
  unfold unlink setUp setDown setSize
  unfold Ring.unlinkNext at kept ⊢
  simp only [kept]

/-- `relink` puts a node back. -/
theorem relink_unlink
    {d : Dance}
    {head j : Nat}
    {members : List Nat}
    (ring : Ring d.down d.up head members)
    (member : j ∈ members) :
    (d.unlink j).relink j = d := by
  have inside : j ∈ head :: members := List.mem_cons_of_mem head member
  have inside' : j ∈ head :: members.reverse := by simpa using inside
  have ups := ring.reverse.relink_unlink inside'
  have downs := ring.relink_unlink inside
  have kept := Ring.unlinkNext_self d.down d.up j
  rw [unlink_eq]
  unfold relink setUp setDown setSize
  unfold Ring.relinkNext at ups downs
  simp only [kept, ups, downs, Function.update_self, Function.update_idem,
    sub_add_cancel, Function.update_eq_self]

/-- `unlinkHead` takes a column out of the list. -/
theorem unlinkHead_eq (c : Nat) (d : Dance) :
    d.unlinkHead c =
      { d with
        left := Ring.unlinkNext d.left d.right c
        right := Ring.unlinkNext d.right d.left c } := by
  have kept := Ring.unlinkNext_self d.left d.right c
  unfold unlinkHead setLeft setRight
  unfold Ring.unlinkNext at kept ⊢
  simp only [kept]

/-- `relinkHead` puts a column back. -/
theorem relinkHead_unlinkHead
    {d : Dance}
    {c : Nat}
    {members : List Nat}
    (ring : Ring d.right d.left 0 members)
    (member : c ∈ members) :
    (d.unlinkHead c).relinkHead c = d := by
  have inside : c ∈ 0 :: members := List.mem_cons_of_mem 0 member
  have inside' : c ∈ 0 :: members.reverse := by simpa using inside
  have lefts := ring.reverse.relink_unlink inside'
  have rights := ring.relink_unlink inside
  have kept := Ring.unlinkNext_self d.right d.left c
  rw [unlinkHead_eq]
  unfold relinkHead setLeft setRight
  unfold Ring.relinkNext at lefts rights
  simp only [kept, lefts, rights]

end Dance

namespace Matrix

variable {M : Matrix} {covered : List Nat} {head : Nat} {d : Dance}

/-- Without a column in the list the rows are as they were. -/
theorem Holds.unlinkHead
    (holds : M.Holds covered d)
    (listed : head ∈ M.linked covered) :
    (∀ node ∈ M.nodes, Ring (d.unlinkHead head).right (d.unlinkHead head).left
        node (M.mates node)) ∧
      Ring (d.unlinkHead head).right (d.unlinkHead head).left 0
        (M.linked (head :: covered)) := by
  rw [Dance.unlinkHead_eq]
  constructor
  · intro node member
    have inRow : ∀ other ∈ node :: M.mates node, other ∈ M.nodes := by
      intro other inside
      rcases List.mem_cons.mp inside with rfl | inside
      · exact member
      · exact M.mates_mem node member other inside
    have neighbours := holds.heads.neighbours
      (List.mem_cons_of_mem 0 listed)
    have apart : ∀ other ∈ node :: M.mates node,
        other ∉ 0 :: M.linked covered := by
      intro other inside also
      apply M.fresh other (inRow other inside)
      rcases List.mem_cons.mp also with rfl | also
      · exact List.mem_cons_self
      · exact List.mem_cons_of_mem 0 (mem_linked.mp also).1
    apply (holds.rows node member).transport
    · intro other inside
      apply Function.update_of_ne
      rintro rfl
      exact apart _ inside neighbours.2.1
    · intro other inside
      apply Function.update_of_ne
      rintro rfl
      exact apart _ inside neighbours.1
  · have ring := holds.heads
    obtain ⟨before, after, split⟩ := List.append_of_mem listed
    have rest : M.linked (head :: covered) = before ++ after := by
      have nodup := (List.nodup_cons.mp holds.heads.nodup).2
      rw [linked_cons, split]
      rw [split] at nodup
      exact filter_ne_append nodup
    rw [rest]
    rw [split] at ring
    exact ring.unlink

end Matrix

end Lab1
end CloudComputing
