import CloudComputing.Lab1.Matrix

/-!
# What `cover` and `uncover` do

While `cover` executes, the nodes that it has come to are out of their columns.
Its result is the matrix with one more covered column, and `uncover` leads from
there to the very state that `cover` began with.
-/

namespace CloudComputing
namespace Lab1
namespace Matrix

variable {M : Matrix} {covered : List Nat} {head : Nat} {d : Dance}

/-- Without one more of the nodes that `cover` comes to. -/
theorem filter_remaining
    {node : Nat}
    {remaining : List Nat}
    (suffix : node :: remaining <:+ M.mated covered head)
    (nodes : List Nat) :
    (nodes.filter fun inner =>
        inner ∉ M.mated covered head ∨ inner ∈ node :: remaining).filter
          (· ≠ node) =
      nodes.filter fun inner =>
        inner ∉ M.mated covered head ∨ inner ∈ remaining := by
  have nodup : (node :: remaining).Nodup :=
    mated_nodup.sublist suffix.sublist
  have mated : node ∈ M.mated covered head :=
    suffix.subset List.mem_cons_self
  rw [List.filter_filter]
  apply List.filter_congr
  intro inner _
  rw [← Bool.decide_and, decide_eq_decide, List.mem_cons]
  constructor
  · tauto
  · rintro (outside | inside)
    · refine ⟨?_, Or.inl outside⟩
      rintro rfl
      exact outside mated
    · refine ⟨?_, Or.inr (Or.inr inside)⟩
      rintro rfl
      exact (List.nodup_cons.mp nodup).1 inside

/-- A state of `cover` in which it has to come to these nodes still. -/
structure Unlinked
    (M : Matrix)
    (covered : List Nat)
    (head : Nat)
    (d : Dance)
    (remaining : List Nat)
    (s : Dance) : Prop where
  suffix : remaining <:+ M.mated covered head
  same : s = { d with up := s.up, down := s.down, size := s.size }
  columns : Rings s.down s.up (M.linked covered) fun other =>
    (M.active covered other).filter fun node =>
      node ∉ M.mated covered head ∨ node ∈ remaining

namespace Unlinked

variable {remaining : List Nat} {s : Dance} {node : Nat}

/-- `cover` begins with all of them. -/
theorem start
    (same : s = { d with up := s.up, down := s.down, size := s.size })
    (columns : Rings s.down s.up (M.linked covered) (M.active covered)) :
    M.Unlinked covered head d (M.mated covered head) s where
  suffix := List.suffix_rfl
  same := same
  columns := by
    have all : ∀ other, (M.active covered other).filter (fun node =>
        node ∉ M.mated covered head ∨ node ∈ M.mated covered head) =
          M.active covered other := by
      intro other
      apply List.filter_eq_self.mpr
      intro node _
      exact decide_eq_true (Decidable.not_or_of_imp id)
    simp only [all]
    exact columns

/-- The next node is in its column. -/
theorem member
    (unlinked : M.Unlinked covered head d (node :: remaining) s) :
    node ∈ (M.active covered (M.col node)).filter (fun other =>
      other ∉ M.mated covered head ∨ other ∈ node :: remaining) ∧
        M.col node ∈ M.linked covered := by
  have mated : node ∈ M.mated covered head :=
    unlinked.suffix.subset List.mem_cons_self
  have active := active_of_mated mated
  obtain ⟨member, _, free⟩ := mem_active.mp active
  refine ⟨List.mem_filter.mpr ⟨active, ?_⟩, linked_of_free member free⟩
  exact decide_eq_true (Or.inr List.mem_cons_self)

/-- The step for one node. -/
theorem step
    (unlinked : M.Unlinked covered head d (node :: remaining) s) :
    M.Unlinked covered head d remaining (s.unlink node) where
  suffix := (List.suffix_cons node remaining).trans unlinked.suffix
  same := by
    rw [Dance.unlink_eq, unlinked.same]
  columns := by
    obtain ⟨member, listed⟩ := unlinked.member
    have columns := unlinked.columns.unlink listed member
    have fewer : ∀ other,
        ((M.active covered other).filter (fun inner =>
          inner ∉ M.mated covered head ∨ inner ∈ node :: remaining)).filter
            (· ≠ node) =
          (M.active covered other).filter (fun inner =>
            inner ∉ M.mated covered head ∨ inner ∈ remaining) :=
      fun other => filter_remaining unlinked.suffix _
    simp only [fewer] at columns
    rw [Dance.unlink_eq]
    exact columns

/-- The node can be put back. -/
theorem undone
    (unlinked : M.Unlinked covered head d (node :: remaining) s) :
    (s.unlink node).relink node = s := by
  obtain ⟨member, listed⟩ := unlinked.member
  exact Dance.relink_unlink (unlinked.columns.ring _ listed) member

/-- The covered column itself stays as it was. -/
theorem ring
    (unlinked : M.Unlinked covered head d remaining s)
    (listed : head ∈ M.linked covered) :
    Ring s.down s.up head (M.active covered head) := by
  have ring := unlinked.columns.ring head listed
  have all : (M.active covered head).filter (fun node =>
      node ∉ M.mated covered head ∨ node ∈ remaining) =
        M.active covered head := by
    apply List.filter_eq_self.mpr
    intro node active
    apply decide_eq_true
    left
    intro mated
    exact col_mated_ne mated (mem_active.mp active).2.1
  rw [all] at ring
  exact ring

theorem right_eq (unlinked : M.Unlinked covered head d remaining s) :
    s.right = d.right := by
  rw [unlinked.same]

theorem left_eq (unlinked : M.Unlinked covered head d remaining s) :
    s.left = d.left := by
  rw [unlinked.same]

/-- At the end one more column is covered. -/
theorem holds
    (unlinked : M.Unlinked covered head d [] s)
    (root : d.root = 0)
    (col : ∀ node ∈ M.nodes, d.col node = M.col node)
    (name : ∀ node ∈ M.nodes, d.name node = M.name node)
    (rows : ∀ node ∈ M.nodes, Ring d.right d.left node (M.mates node))
    (heads : Ring d.right d.left 0 (M.linked (head :: covered))) :
    M.Holds (head :: covered) s where
  root := by
    rw [unlinked.same]
    exact root
  col := by
    rw [unlinked.same]
    exact col
  name := by
    rw [unlinked.same]
    exact name
  rows := by
    rw [unlinked.right_eq, unlinked.left_eq]
    exact rows
  heads := by
    rw [unlinked.right_eq, unlinked.left_eq]
    exact heads
  columns := by
    have fewer : M.linked (head :: covered) ⊆ M.linked covered := by
      rw [linked_cons]
      exact List.filter_subset_self _
    apply (unlinked.columns.subset fewer).congr
    intro other listed
    have differs : other ≠ head := by
      rintro rfl
      exact (mem_linked.mp listed).2 List.mem_cons_self
    rw [← active_cons differs]
    apply List.filter_congr
    intro inner _
    rw [decide_eq_decide]
    exact (or_iff_left List.not_mem_nil).symm

end Unlinked

/-! ## The spec of `cover` -/

/-- `next` is `d` with one more column covered. -/
structure Covers
    (M : Matrix)
    (fuel : Nat)
    (covered : List Nat)
    (head : Nat)
    (d next : Dance) : Prop where
  executed : d.cover fuel head = some next
  holds : M.Holds (head :: covered) next
  ring : Ring next.down next.up head (M.active covered head)
  stack : next.stack = d.stack
  inout : next.inout = d.inout
  undone : next.uncover fuel head = some d

/-- Unlinking a header leaves the columns as they are. -/
theorem Holds.columns_unlinkHead (holds : M.Holds covered d) :
    Rings (d.unlinkHead head).down (d.unlinkHead head).up (M.linked covered)
      (M.active covered) := by
  rw [Dance.unlinkHead_eq]
  exact holds.columns

/-- The loops of `cover` end, with every invariant of their steps. -/
theorem Holds.cover_loops
    (holds : M.Holds covered d)
    (listed : head ∈ M.linked covered)
    {fuel : Nat}
    (enough : M.nodes.length < fuel)
    {kept : List Nat → Dance → Prop}
    (steps : ∀ node rest s,
      M.Unlinked covered head (d.unlinkHead head) (node :: rest) s →
        kept (node :: rest) s → kept rest (s.unlink node))
    (start : kept (M.mated covered head) (d.unlinkHead head)) :
    ∃ next, next = (M.mated covered head).foldl (fun s node => s.unlink node)
        (d.unlinkHead head) ∧
      d.cover fuel head = some next ∧
      M.Unlinked covered head (d.unlinkHead head) [] next ∧ kept [] next := by
  obtain ⟨rows, _⟩ := holds.unlinkHead listed
  let first := d.unlinkHead head
  have columns : Rings first.down first.up (M.linked covered)
      (M.active covered) :=
    holds.columns_unlinkHead
  have ring : Ring first.down first.up head (M.active covered head) :=
    columns.ring head listed
  let invariant : List Nat → Dance → Prop := fun rest s =>
    M.Unlinked covered head first rest s ∧ kept rest s
  have steps : ∀ node rest s, invariant (node :: rest) s →
      invariant rest (s.unlink node) :=
    fun node rest s both => ⟨both.1.step, steps node rest s both.1 both.2⟩
  have downs : ∀ rest s, invariant rest s →
      ∀ row ∈ head :: M.active covered head, s.down row = first.down row :=
    fun rest s both row member =>
      (both.1.ring listed).next_unique ring member
  have rights : ∀ rest s, invariant rest s →
      ∀ row ∈ M.active covered head, ∀ node ∈ row :: M.mates row,
        s.right node = first.right node :=
    fun rest s both row _ node _ => congrFun both.1.right_eq node
  obtain ⟨executed, final⟩ := ring.loops_eq
    (fun row active => rows row (mem_active.mp active).1) steps downs rights
    ⟨Unlinked.start rfl columns, start⟩ (length_active_le.trans_lt enough)
    (fun row active =>
      (length_mates_le (mem_active.mp active).1).trans_lt enough)
  exact ⟨_, rfl, executed, final⟩

/-- A column that is not covered can be covered, and uncovered again. -/
theorem Holds.cover
    (holds : M.Holds covered d)
    (listed : head ∈ M.linked covered)
    {fuel : Nat}
    (enough : M.nodes.length < fuel) :
    ∃ next, M.Covers fuel covered head d next := by
  obtain ⟨rows, heads⟩ := holds.unlinkHead listed
  let first := d.unlinkHead head
  have columns : Rings first.down first.up (M.linked covered)
      (M.active covered) :=
    holds.columns_unlinkHead
  have start : M.Unlinked covered head first (M.mated covered head) first :=
    Unlinked.start rfl columns
  have ring : Ring first.down first.up head (M.active covered head) :=
    columns.ring head listed
  have inner : ∀ row ∈ M.active covered head,
      Ring first.right first.left row (M.mates row) := by
    intro row active
    exact rows row (mem_active.mp active).1
  have steps : ∀ node rest s,
      M.Unlinked covered head first (node :: rest) s →
        M.Unlinked covered head first rest (s.unlink node) :=
    fun node rest s unlinked => unlinked.step
  have enoughRows : (M.active covered head).length < fuel :=
    length_active_le.trans_lt enough
  have enoughMates : ∀ row ∈ M.active covered head,
      (M.mates row).length < fuel := by
    intro row active
    exact (length_mates_le (mem_active.mp active).1).trans_lt enough
  have ups : ∀ rest s, M.Unlinked covered head first rest s →
      ∀ row ∈ head :: M.active covered head, s.up row = first.up row :=
    fun rest s unlinked row member =>
      (unlinked.ring listed).prev_unique ring member
  have lefts : ∀ rest s, M.Unlinked covered head first rest s →
      ∀ row ∈ M.active covered head, ∀ node ∈ row :: M.mates row,
        s.left node = first.left node :=
    fun rest s unlinked row _ node _ => congrFun unlinked.left_eq node
  let anything : List Nat → Dance → Prop := fun _ _ => True
  have preserved : ∀ node rest s,
      M.Unlinked covered head first (node :: rest) s →
        anything (node :: rest) s → anything rest (s.unlink node) :=
    fun _ _ _ _ unchanged => unchanged
  obtain ⟨next, isNext, executed, final, _⟩ :=
    holds.cover_loops listed enough preserved trivial
  let undo : Dance → Nat → Dance := fun s node => s.relink node
  have undone : ∀ node rest s,
      M.Unlinked covered head first (node :: rest) s →
        undo (s.unlink node) node = s :=
    fun node rest s unlinked => unlinked.undone
  have back := ring.loops_undo inner steps undone ups lefts start isNext
    enoughRows enoughMates
  refine ⟨next, ⟨executed, ?_, final.ring listed, ?_, ?_, ?_⟩⟩
  · have same := Dance.unlinkHead_eq head d
    apply final.holds _ _ _ rows heads
    · rw [same]
      exact holds.root
    · rw [same]
      exact holds.col
    · rw [same]
      exact holds.name
  · rw [final.same]
    rfl
  · rw [final.same]
    rfl
  · rw [Dance.uncover, back, Option.map_some,
      Dance.relinkHead_unlinkHead holds.heads listed]

/-! ## The other columns of a row -/

/-- The columns covered after the first mates of a row. -/
def coveredBy (M : Matrix) (covered mates : List Nat) : List Nat :=
  (mates.map M.col).reverse ++ covered

/-- The loops of `solve` that cover and uncover the other columns of a row. -/
structure CoversRow
    (M : Matrix)
    (fuel : Nat)
    (covered : List Nat)
    (row : Nat)
    (d next : Dance) : Prop where
  executed :
    loop Dance.right row (fun j d => d.cover fuel (d.col j)) fuel
      (d.right row) d = some next
  holds : M.Holds (M.coveredBy covered (M.mates row)) next
  stack : next.stack = d.stack
  inout : next.inout = d.inout
  undone :
    loop Dance.left row (fun j d => d.uncover fuel (d.col j)) fuel
      (next.left row) next = some d

/-- A mate whose column is not covered yet. -/
theorem linked_mate
    {row mate : Nat}
    {done rest : List Nat}
    (active : row ∈ M.active covered head)
    (split : M.mates row = done ++ mate :: rest) :
    M.col mate ∈ M.linked (M.coveredBy (head :: covered) done) := by
  obtain ⟨member, isHead, free⟩ := mem_active.mp active
  have inRow : mate ∈ M.mates row := by
    rw [split]
    exact List.mem_append_right done List.mem_cons_self
  have apart := M.apart row member
  rw [List.map_cons, split, List.map_append, List.map_cons,
    List.nodup_cons] at apart
  have before := (List.nodup_middle.mp apart.2)
  rw [mem_linked, coveredBy, List.mem_append, List.mem_reverse]
  refine ⟨M.col_mem mate (M.mates_mem row member mate inRow), ?_⟩
  rintro (inside | inside)
  · exact (List.nodup_cons.mp before).1 (List.mem_append_left _ inside)
  · rcases List.mem_cons.mp inside with same | inside
    · exact col_mate_ne member inRow (same.trans isHead.symm)
    · exact free mate (List.mem_cons_of_mem row inRow) inside

/-- The other columns of an active row can be covered, and uncovered again. -/
theorem Holds.coverRow
    (holds : M.Holds (head :: covered) d)
    {row : Nat}
    (active : row ∈ M.active covered head)
    {fuel : Nat}
    (enough : M.nodes.length < fuel) :
    ∃ next, M.CoversRow fuel (head :: covered) row d next := by
  have member := (mem_active.mp active).1
  let invariant : List Nat → Dance → Prop := fun rest s =>
    ∃ done, M.mates row = done ++ rest ∧
      M.Holds (M.coveredBy (head :: covered) done) s ∧
      s.stack = d.stack ∧ s.inout = d.inout
  let effect : Dance → Nat → Dance := fun s j =>
    (s.cover fuel (s.col j)).getD s
  have covers : ∀ mate rest s, invariant (mate :: rest) s →
      ∃ done, M.mates row = done ++ mate :: rest ∧
        s.col mate = M.col mate ∧ s.stack = d.stack ∧ s.inout = d.inout ∧
        M.Covers fuel (M.coveredBy (head :: covered) done) (M.col mate) s
          (effect s mate) := by
    rintro mate rest s ⟨done, split, holds, stack, inout⟩
    have inRow : mate ∈ M.mates row := by
      rw [split]
      exact List.mem_append_right done List.mem_cons_self
    have same := holds.col mate (M.mates_mem row member mate inRow)
    obtain ⟨next, covers⟩ := holds.cover (linked_mate active split) enough
    have isNext : effect s mate = next := by
      change (s.cover fuel (s.col mate)).getD s = next
      rw [same, covers.executed, Option.getD_some]
    exact ⟨done, split, same, stack, inout, isNext ▸ covers⟩
  have steps : ∀ mate rest s, invariant (mate :: rest) s →
      s.cover fuel (s.col mate) = some (effect s mate) ∧
        invariant rest (effect s mate) := by
    intro mate rest s kept
    obtain ⟨done, split, same, stack, inout, covers⟩ := covers mate rest s kept
    refine ⟨same ▸ covers.executed, done ++ [mate], ?_, ?_,
      covers.stack.trans stack, covers.inout.trans inout⟩
    · rw [split, List.append_assoc, List.singleton_append]
    · have more : M.coveredBy (head :: covered) (done ++ [mate]) =
          M.col mate :: M.coveredBy (head :: covered) done := by
        simp [coveredBy]
      rw [more]
      exact covers.holds
  have undone : ∀ mate rest s, invariant (mate :: rest) s →
      (effect s mate).uncover fuel ((effect s mate).col mate) = some s := by
    intro mate rest s kept
    obtain ⟨done, split, same, _, _, covers⟩ := covers mate rest s kept
    have inRow : mate ∈ M.mates row := by
      rw [split]
      exact List.mem_append_right done List.mem_cons_self
    rw [covers.holds.col mate (M.mates_mem row member mate inRow)]
    exact covers.undone
  have ring := holds.rows row member
  have rights : ∀ rest s, invariant rest s →
      ∀ node ∈ row :: M.mates row, s.right node = d.right node := by
    rintro rest s ⟨done, _, holds, _⟩ node inside
    exact (holds.rows row member).next_unique ring inside
  have lefts : ∀ rest s, invariant rest s →
      ∀ node ∈ row :: M.mates row, s.left node = d.left node := by
    rintro rest s ⟨done, _, holds, _⟩ node inside
    exact (holds.rows row member).prev_unique ring inside
  have start : invariant (M.mates row) d := ⟨[], rfl, holds, rfl, rfl⟩
  have enoughMates := (length_mates_le member).trans_lt enough
  obtain ⟨executed, done, split, holds, stack, inout⟩ :=
    ring.loop_eq steps rights start enoughMates
  rw [List.append_nil] at split
  refine ⟨_, executed, split ▸ holds, stack, inout, ?_⟩
  exact ring.loop_undo (fun mate rest s kept => (steps mate rest s kept).2)
    undone lefts start rfl enoughMates

end Matrix

/-! ## The stack -/

namespace Dance

/-- The state with another stack. -/
def withStack (stack : List Nat) (d : Dance) : Dance :=
  { d with stack := stack }

/-- `cover` does not depend on what neither its links nor its steps read. -/
theorem cover_map
    {change : Dance → Dance}
    (downs : ∀ s, (change s).down = s.down)
    (rights : ∀ s, (change s).right = s.right)
    (heads : ∀ c s, (change s).unlinkHead c = change (s.unlinkHead c))
    (unlinks : ∀ j s, (change s).unlink j = change (s.unlink j))
    (fuel c : Nat)
    (d : Dance) :
    (change d).cover fuel c = (d.cover fuel c).map change := by
  have steps : ∀ (j : Nat) (s : Dance),
      some ((change s).unlink j) = (some (s.unlink j)).map change :=
    fun j s => congrArg some (unlinks j s)
  have rows : ∀ (row : Nat) (s : Dance),
      loop Dance.right row (fun j d => some (d.unlink j)) fuel
          ((change s).right row) (change s) =
        (loop Dance.right row (fun j d => some (d.unlink j)) fuel
          (s.right row) s).map change := by
    intro row s
    rw [rights]
    exact loop_map rights steps fuel (s.right row) s
  unfold cover
  dsimp only
  rw [heads, downs]
  exact loop_map downs rows fuel _ (d.unlinkHead c)

/-- `cover` does not depend on the stack. -/
theorem cover_withStack (stack : List Nat) (fuel c : Nat) (d : Dance) :
    (d.withStack stack).cover fuel c =
      (d.cover fuel c).map (withStack stack) :=
  @cover_map (withStack stack) (fun _ => rfl) (fun _ => rfl) (fun _ _ => rfl) (fun _ _ => rfl)
    fuel c d

/-- The loop over the other columns does not depend on the stack. -/
theorem coverRow_withStack
    (stack : List Nat)
    (fuel row : Nat)
    (d : Dance) :
    loop Dance.right row (fun j d => d.cover fuel (d.col j)) fuel
        ((d.withStack stack).right row) (d.withStack stack) =
      (loop Dance.right row (fun j d => d.cover fuel (d.col j)) fuel
        (d.right row) d).map (withStack stack) := by
  have rights : ∀ s : Dance, Dance.right (withStack stack s) = Dance.right s :=
    fun s => rfl
  have covers : ∀ (j : Nat) (s : Dance),
      (withStack stack s).cover fuel ((withStack stack s).col j) =
        (s.cover fuel (s.col j)).map (withStack stack) :=
    fun j s => cover_withStack stack fuel (s.col j) s
  exact loop_map rights covers fuel (d.right row) d

end Dance

end Lab1
end CloudComputing
