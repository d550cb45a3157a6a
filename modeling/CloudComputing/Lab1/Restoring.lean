import CloudComputing.Lab1.Constructed
import CloudComputing.Lab1.Tally

/-!
# Backtracking

The links and the sizes of the nodes depend on nothing but the columns that are
covered, in the order in which they were.  Each state that `solve` comes to
between two of its calls is one of these, so what it covers it can uncover, and
when it has tried all rows in vain the state is as it was.
-/

namespace CloudComputing
namespace Lab1

namespace Dance

/-! ## What `cover` does not depend on -/

/-- The state with another stack and another board. -/
def retag (stack : List Nat) (inout : Board) (d : Dance) : Dance :=
  { d with stack := stack, inout := inout }

/-- The nodes alone. -/
def bare (d : Dance) : Dance :=
  d.retag [] fun _ => 0

/-- `cover` depends neither on the stack nor on the board. -/
theorem cover_retag
    (stack : List Nat)
    (inout : Board)
    (fuel c : Nat)
    (d : Dance) :
    (d.retag stack inout).cover fuel c =
      (d.cover fuel c).map (retag stack inout) :=
  @cover_map (retag stack inout) (fun _ => rfl) (fun _ => rfl) (fun _ _ => rfl) (fun _ _ => rfl)
    fuel c d

/-- `uncover` depends neither on the stack nor on the board. -/
theorem uncover_retag
    (stack : List Nat)
    (inout : Board)
    (fuel c : Nat)
    (d : Dance) :
    (d.retag stack inout).uncover fuel c =
      (d.uncover fuel c).map (retag stack inout) := by
  have ups : ∀ s : Dance, Dance.up (retag stack inout s) = Dance.up s :=
    fun s => rfl
  have lefts : ∀ s : Dance,
      Dance.left (retag stack inout s) = Dance.left s :=
    fun s => rfl
  have relinks : ∀ (j : Nat) (s : Dance),
      some ((retag stack inout s).relink j) =
        (some (s.relink j)).map (retag stack inout) :=
    fun j s => rfl
  have rows : ∀ (row : Nat) (s : Dance),
      loop Dance.left row (fun j d => some (d.relink j)) fuel
          ((retag stack inout s).left row) (retag stack inout s) =
        (loop Dance.left row (fun j d => some (d.relink j)) fuel
          (s.left row) s).map (retag stack inout) :=
    fun row s => loop_map lefts relinks fuel (s.left row) s
  unfold uncover
  change (loop Dance.up c _ fuel (d.up c) (d.retag stack inout)).map _ = _
  rw [loop_map ups rows, Option.map_map, Option.map_map]
  rfl

/-- Covers these columns, the last one of the list first. -/
def coverAll (fuel : Nat) (start : Dance) : List Nat → Option Dance
  | [] => some start
  | head :: covered =>
      (coverAll fuel start covered).bind fun d => d.cover fuel head

/-- Nodes without a stack and a board stay so. -/
theorem bare_of_coverAll
    {fuel : Nat}
    {start d : Dance}
    {covered : List Nat}
    (links : start.bare.coverAll fuel covered = some d) :
    d.bare = d := by
  induction covered generalizing d with
  | nil =>
      cases links
      rfl
  | cons head covered inductionHypothesis =>
      obtain ⟨before, links, executed⟩ := Option.bind_eq_some_iff.mp links
      have kept := cover_retag [] (fun _ => 0) fuel head before
      change before.bare.cover fuel head = _ at kept
      rw [inductionHypothesis links, executed, Option.map_some,
        Option.some.injEq] at kept
      exact kept.symm

end Dance

/-! ## The states of the search -/

/-- What all states of a search have in common. -/
structure Ready
    (M : Matrix)
    (place : Nat → Nat × Nat)
    (fuel : Nat)
    (start : Dance) : Prop where
  holds : M.Holds [] start
  tallied : M.Tallied [] start
  stack : start.stack = []
  places : M.Places place
  enough : M.nodes.length + 1 < fuel
  enough' : M.heads.length < fuel

/-- The nodes are as they are when these columns have been covered. -/
structure Layered
    (M : Matrix)
    (fuel : Nat)
    (start : Dance)
    (covered : List Nat)
    (d : Dance) : Prop where
  nodup : covered.Nodup
  listed : covered ⊆ M.heads
  links : start.bare.coverAll fuel covered = some d.bare
  stack : ∀ node ∈ d.stack, node ∈ M.nodes

variable
    {M : Matrix}
    {place : Nat → Nat × Nat}
    {fuel : Nat}
    {start d next : Dance}
    {covered : List Nat}
    {head : Nat}

/-- Any columns can be covered one after the other. -/
theorem Ready.coverAll
    (ready : Ready M place fuel start)
    (nodup : covered.Nodup)
    (listed : covered ⊆ M.heads) :
    ∃ d, start.bare.coverAll fuel covered = some d ∧ M.Holds covered d ∧
      M.Tallied covered d := by
  induction covered with
  | nil =>
      have holds := ready.holds
      exact ⟨_, rfl, ⟨holds.root, holds.col, holds.name, holds.rows,
        holds.heads, holds.columns⟩, ready.tallied.columns, ready.tallied.size⟩
  | cons head covered inductionHypothesis =>
      obtain ⟨outside, nodup⟩ := List.nodup_cons.mp nodup
      obtain ⟨isHead, listed⟩ := List.cons_subset.mp listed
      obtain ⟨d, links, holds, tallied⟩ := inductionHypothesis nodup listed
      have linked : head ∈ M.linked covered :=
        Matrix.mem_linked.mpr ⟨isHead, outside⟩
      have enough := Nat.lt_of_succ_lt ready.enough
      obtain ⟨next, covers⟩ := holds.cover linked enough
      refine ⟨next, ?_, covers.holds,
        tallied.cover holds linked enough covers.executed⟩
      unfold Dance.coverAll
      rw [links, Option.bind_some, covers.executed]

namespace Layered

theorem initial (ready : Ready M place fuel start) :
    Layered M fuel start [] start where
  nodup := List.nodup_nil
  listed := List.nil_subset _
  links := rfl
  stack := by
    rw [ready.stack]
    intro node inside
    cases inside

/-- The stack and the board do not matter. -/
theorem retag
    (layered : Layered M fuel start covered d)
    {stack : List Nat}
    (nodes : ∀ node ∈ stack, node ∈ M.nodes)
    (inout : Board) :
    Layered M fuel start covered (d.retag stack inout) :=
  ⟨layered.nodup, layered.listed, layered.links, nodes⟩

theorem holds
    (layered : Layered M fuel start covered d)
    (ready : Ready M place fuel start) :
    M.Holds covered d := by
  obtain ⟨same, links, holds, _⟩ :=
    ready.coverAll layered.nodup layered.listed
  rw [layered.links, Option.some.injEq] at links
  rw [← links] at holds
  exact ⟨holds.root, holds.col, holds.name, holds.rows, holds.heads,
    holds.columns⟩

theorem tallied
    (layered : Layered M fuel start covered d)
    (ready : Ready M place fuel start) :
    M.Tallied covered d := by
  obtain ⟨same, links, _, tallied⟩ :=
    ready.coverAll layered.nodup layered.listed
  rw [layered.links, Option.some.injEq] at links
  rw [← links] at tallied
  exact ⟨tallied.columns, tallied.size⟩

/-- A column that is not covered can be covered. -/
theorem cover
    (layered : Layered M fuel start covered d)
    (ready : Ready M place fuel start)
    (linked : head ∈ M.linked covered) :
    ∃ next, M.Covers fuel covered head d next ∧
      Layered M fuel start (head :: covered) next := by
  obtain ⟨isHead, outside⟩ := Matrix.mem_linked.mp linked
  obtain ⟨next, covers⟩ := (layered.holds ready).cover linked
    (Nat.lt_of_succ_lt ready.enough)
  refine ⟨next, covers, List.nodup_cons.mpr ⟨outside, layered.nodup⟩,
    List.cons_subset.mpr ⟨isHead, layered.listed⟩, ?_, ?_⟩
  · have bare : d.bare.cover fuel head = some next.bare := by
      unfold Dance.bare
      rw [Dance.cover_retag, covers.executed, Option.map_some]
    unfold Dance.coverAll
    rw [layered.links, Option.bind_some, bare]
  · rw [covers.stack]
    exact layered.stack

/-- The last column that was covered can be uncovered. -/
theorem uncover
    (layered : Layered M fuel start (head :: covered) d)
    (ready : Ready M place fuel start) :
    ∃ before, d.uncover fuel head = some before ∧
      Layered M fuel start covered before := by
  obtain ⟨outside, nodup⟩ := List.nodup_cons.mp layered.nodup
  obtain ⟨isHead, listed⟩ := List.cons_subset.mp layered.listed
  obtain ⟨before, links, holds, _⟩ := ready.coverAll nodup listed
  have linked : head ∈ M.linked covered :=
    Matrix.mem_linked.mpr ⟨isHead, outside⟩
  obtain ⟨after, covers⟩ := holds.cover linked
    (Nat.lt_of_succ_lt ready.enough)
  have isAfter : some after = some d.bare := by
    have all := layered.links
    unfold Dance.coverAll at all
    rw [links, Option.bind_some, covers.executed] at all
    exact all
  have undone := covers.undone
  rw [Option.some.inj isAfter] at undone
  have tagged : d.uncover fuel head =
      some (before.retag d.stack d.inout) := by
    have back := Dance.uncover_retag d.stack d.inout fuel head d.bare
    rw [undone, Option.map_some] at back
    exact back
  refine ⟨_, tagged, nodup, listed, ?_, layered.stack⟩
  change _ = some before.bare
  rw [links, Dance.bare_of_coverAll links]

end Layered

namespace Dance

/-- Where a call of `solve` is: at its beginning, in front of a row, in the
loops over the other nodes of a row, or at its end. -/
inductive Point
  | entered
  | trying (col row : Nat)
  | covering (col row j : Nat)
  | uncovering (col row j : Nat)
  | returned (found : Bool)

/-- The states of a search, between the calls that `solve` makes.  The number is
the depth that is left to the call of `solve` that is executed. -/
inductive Reached (fuel : Nat) (start : Dance) : Nat → Point → Dance → Prop
  | start : Reached fuel start fuel .entered start
  | written
      {depth : Nat}
      {d next : Dance}
      (reached : Reached fuel start (depth + 1) .entered d)
      (allCovered : d.left d.root = d.root)
      (executed : d.write fuel = some next) :
      Reached fuel start (depth + 1) (.returned true) next
  | chosen
      {depth col : Nat}
      {d next : Dance}
      (reached : Reached fuel start (depth + 1) .entered d)
      (remain : d.left d.root ≠ d.root)
      (isMin : d.getMinColumn fuel = some col)
      (executed : d.cover fuel col = some next) :
      Reached fuel start (depth + 1) (.trying col (next.down col)) next
  | pushed
      {depth col row : Nat}
      {d : Dance}
      (reached : Reached fuel start depth (.trying col row) d)
      (differs : row ≠ col) :
      Reached fuel start depth (.covering col row (d.right row))
        { d with stack := d.stack ++ [row] }
  | covered
      {depth col row j : Nat}
      {d next : Dance}
      (reached : Reached fuel start depth (.covering col row j) d)
      (differs : j ≠ row)
      (executed : d.cover fuel (d.col j) = some next) :
      Reached fuel start depth (.covering col row (next.right j)) next
  | called
      {depth col row : Nat}
      {d : Dance}
      (reached : Reached fuel start (depth + 1) (.covering col row row) d) :
      Reached fuel start depth .entered d
  | popped
      {depth col row : Nat}
      {d next : Dance}
      (reached : Reached fuel start (depth + 1) (.covering col row row) d)
      (failed : d.solve fuel depth = some (false, next)) :
      Reached fuel start (depth + 1) (.uncovering col row (next.left row))
        { next with stack := next.stack.dropLast }
  | uncovered
      {depth col row j : Nat}
      {d next : Dance}
      (reached : Reached fuel start depth (.uncovering col row j) d)
      (differs : j ≠ row)
      (executed : d.uncover fuel (d.col j) = some next) :
      Reached fuel start depth (.uncovering col row (next.left j)) next
  | onward
      {depth col row : Nat}
      {d : Dance}
      (reached : Reached fuel start depth (.uncovering col row row) d) :
      Reached fuel start depth (.trying col (d.down row)) d
  | failed
      {depth col : Nat}
      {d next : Dance}
      (reached : Reached fuel start depth (.trying col col) d)
      (executed : d.uncover fuel col = some next) :
      Reached fuel start depth (.returned false) next

end Dance

/-- A row of a column that has just been covered. -/
structure Chosen
    (M : Matrix)
    (depth : Nat)
    (covered : List Nat)
    (col row : Nat) : Prop where
  linked : col ∈ M.linked covered
  row : row ∈ M.active covered col
  short : (M.linked covered).length < depth

/-- What holds at the points of a call of `solve`. -/
def Visited (M : Matrix) (fuel : Nat) (start : Dance) (depth : Nat) (d : Dance) :
    Dance.Point → Prop
  | .entered => ∃ covered, Layered M fuel start covered d ∧
      (M.linked covered).length < depth
  | .trying col row => ∃ covered, Layered M fuel start (col :: covered) d ∧
      col ∈ M.linked covered ∧ row ∈ col :: M.active covered col ∧
        (M.linked covered).length < depth
  | .covering col row j => ∃ covered done rest, M.mates row = done ++ rest ∧
      j = rest.headD row ∧ Chosen M depth covered col row ∧
        Layered M fuel start (M.coveredBy (col :: covered) done) d
  | .uncovering col row j => ∃ covered done rest, M.mates row = done ++ rest ∧
      j = done.getLastD row ∧ Chosen M depth covered col row ∧
        Layered M fuel start (M.coveredBy (col :: covered) done) d
  | .returned _ => ∃ covered, Layered M fuel start covered d

namespace Visited

variable {depth : Nat}

/-- In every state the nodes are as after some calls of `cover`. -/
theorem layered
    {point : Dance.Point}
    (visited : Visited M fuel start depth d point) :
    ∃ covered, Layered M fuel start covered d := by
  cases point with
  | entered =>
      obtain ⟨covered, layered, _⟩ := visited
      exact ⟨covered, layered⟩
  | trying col row =>
      obtain ⟨covered, layered, _⟩ := visited
      exact ⟨col :: covered, layered⟩
  | covering col row j =>
      obtain ⟨covered, done, _, _, _, _, layered⟩ := visited
      exact ⟨_, layered⟩
  | uncovering col row j =>
      obtain ⟨covered, done, _, _, _, _, layered⟩ := visited
      exact ⟨_, layered⟩
  | returned found => exact visited

/-- A call of `solve` that writes the board. -/
theorem written
    (visited : Visited M fuel start depth d .entered)
    (executed : d.write fuel = some next) :
    Visited M fuel start depth next (.returned true) := by
  obtain ⟨covered, layered, _⟩ := visited
  let same : Dance → Prop := fun s => s.bare = d.bare ∧ s.stack = d.stack
  have steps : ∀ s row t, Dance.writeRow fuel s row = some t →
      same s → same t := by
    intro s row t wrote both
    obtain ⟨place, _, rfl⟩ := Option.map_eq_some_iff.mp wrote
    exact both
  have kept : same next := foldlM_kept steps executed ⟨rfl, rfl⟩
  refine ⟨covered, layered.nodup, layered.listed, ?_, ?_⟩
  · rw [kept.1]
    exact layered.links
  · rw [kept.2]
    exact layered.stack

/-- The column that `get_min_column` finds is covered. -/
theorem chosen
    (visited : Visited M fuel start depth d .entered)
    (ready : Ready M place fuel start)
    (remain : d.left d.root ≠ d.root)
    {col : Nat}
    (isMin : d.getMinColumn fuel = some col)
    (executed : d.cover fuel col = some next) :
    Visited M fuel start depth next (.trying col (next.down col)) := by
  obtain ⟨covered, layered, short⟩ := visited
  have holds := layered.holds ready
  have nonempty : M.linked covered ≠ [] := by
    intro empty
    apply remain
    rw [holds.root, holds.heads.prev_head, empty]
    rfl
  obtain ⟨column, linked, isColumn⟩ :=
    holds.getMinColumn nonempty ready.enough'
  have same : column = col := Option.some.inj (isColumn.symm.trans isMin)
  subst same
  obtain ⟨after, covers, layered⟩ := layered.cover ready linked
  have same : after = next :=
    Option.some.inj (covers.executed.symm.trans executed)
  subst same
  exact ⟨covered, layered, linked, covers.ring.head_neighbours.1, short⟩

/-- A row is put on the stack. -/
theorem pushed
    {col row : Nat}
    (visited : Visited M fuel start depth d (.trying col row))
    (ready : Ready M place fuel start)
    (differs : row ≠ col) :
    Visited M fuel start depth { d with stack := d.stack ++ [row] }
      (.covering col row (d.right row)) := by
  obtain ⟨covered, layered, linked, isRow, short⟩ := visited
  have active : row ∈ M.active covered col :=
    List.mem_of_ne_of_mem differs isRow
  have member := (Matrix.mem_active.mp active).1
  have ring := (layered.holds ready).rows row member
  refine ⟨covered, [], M.mates row, rfl, ring.next_head,
    ⟨linked, active, short⟩, layered.retag ?_ d.inout⟩
  intro node inside
  rcases List.mem_append.mp inside with inside | inside
  · exact layered.stack node inside
  · rw [List.mem_singleton.mp inside]
    exact member

/-- The column of one more node of the row is covered. -/
theorem coveredMate
    {col row j : Nat}
    (visited : Visited M fuel start depth d (.covering col row j))
    (ready : Ready M place fuel start)
    (differs : j ≠ row)
    (executed : d.cover fuel (d.col j) = some next) :
    Visited M fuel start depth next (.covering col row (next.right j)) := by
  obtain ⟨covered, done, rest, split, isNext, chosen, layered⟩ := visited
  have member := (Matrix.mem_active.mp chosen.row).1
  cases rest with
  | nil => exact absurd isNext differs
  | cons mate rest =>
      rw [List.headD_cons] at isNext
      subst isNext
      have inRow : j ∈ M.mates row := by
        rw [split]
        exact List.mem_append_right done List.mem_cons_self
      rw [(layered.holds ready).col j (M.mates_mem row member j inRow)]
        at executed
      obtain ⟨after, covers, layered⟩ :=
        layered.cover ready (Matrix.linked_mate chosen.row split)
      have same : after = next :=
        Option.some.inj (covers.executed.symm.trans executed)
      subst same
      have more : M.coveredBy (col :: covered) (done ++ [j]) =
          M.col j :: M.coveredBy (col :: covered) done := by
        simp [Matrix.coveredBy]
      have ring := (layered.holds ready).rows row member
      refine ⟨covered, done ++ [j], rest, ?_, ?_, chosen, more ▸ layered⟩
      · rw [split, List.append_assoc, List.singleton_append]
      · rw [split] at ring
        exact ring.next_eq

/-- When the loop is back at the row it has covered all columns. -/
theorem all_covered
    {col row : Nat}
    (visited : Visited M fuel start depth d (.covering col row row))
    (ready : Ready M place fuel start) :
    ∃ covered, Chosen M depth covered col row ∧
      Layered M fuel start (M.coveredBy (col :: covered) (M.mates row)) d := by
  obtain ⟨covered, done, rest, split, isNext, chosen, layered⟩ := visited
  cases rest with
  | nil =>
      rw [List.append_nil] at split
      exact ⟨covered, chosen, split ▸ layered⟩
  | cons mate rest =>
      have member := (Matrix.mem_active.mp chosen.row).1
      have nodup := ((layered.holds ready).rows row member).nodup
      rw [List.headD_cons] at isNext
      rw [split, isNext] at nodup
      exact absurd (List.mem_append_right done List.mem_cons_self)
        (List.nodup_cons.mp nodup).1

/-- `solve` calls itself. -/
theorem called
    {col row : Nat}
    (visited : Visited M fuel start (depth + 1) d (.covering col row row))
    (ready : Ready M place fuel start) :
    Visited M fuel start depth d .entered := by
  obtain ⟨covered, chosen, layered⟩ := visited.all_covered ready
  have less := Matrix.length_coverRow_lt chosen.linked (M.mates row)
  have short := chosen.short
  exact ⟨_, layered, by omega⟩

/-- A call of `solve` returns, and if it returns false the state is as it
was. -/
theorem solved
    (visited : Visited M fuel start depth d .entered)
    (ready : Ready M place fuel start) :
    ∃ found next, d.solve fuel depth = some (found, next) ∧
      (found = false → next = d) := by
  obtain ⟨covered, layered, short⟩ := visited
  obtain ⟨result, executed, searched⟩ := Matrix.Holds.solve ready.places
    ready.enough ready.enough' depth covered d (layered.holds ready)
    layered.stack short
  cases searched with
  | found chosen next exact inout =>
      refine ⟨true, next, executed, ?_⟩
      intro absurd
      cases absurd
  | failed none => exact ⟨false, d, executed, fun _ => rfl⟩

/-- A row is taken off the stack again. -/
theorem popped
    {col row : Nat}
    (visited : Visited M fuel start (depth + 1) d (.covering col row row))
    (ready : Ready M place fuel start)
    (failed : d.solve fuel depth = some (false, next)) :
    Visited M fuel start (depth + 1)
      { next with stack := next.stack.dropLast }
      (.uncovering col row (next.left row)) := by
  obtain ⟨found, after, executed, same⟩ := (visited.called ready).solved ready
  rw [failed, Option.some.injEq, Prod.mk.injEq] at executed
  obtain ⟨isFound, isAfter⟩ := executed
  have isEntry : next = d := isAfter.trans (same isFound.symm)
  subst isEntry
  obtain ⟨covered, chosen, layered⟩ := visited.all_covered ready
  have member := (Matrix.mem_active.mp chosen.row).1
  have ring := (layered.holds ready).rows row member
  refine ⟨covered, M.mates row, [], (List.append_nil _).symm, ring.prev_head,
    chosen, layered.retag ?_ next.inout⟩
  intro node inside
  exact layered.stack node (List.mem_of_mem_dropLast inside)

/-- The column of one more node of the row is uncovered. -/
theorem uncoveredMate
    {col row j : Nat}
    (visited : Visited M fuel start depth d (.uncovering col row j))
    (ready : Ready M place fuel start)
    (differs : j ≠ row)
    (executed : d.uncover fuel (d.col j) = some next) :
    Visited M fuel start depth next (.uncovering col row (next.left j)) := by
  obtain ⟨covered, done, rest, split, isLast, chosen, layered⟩ := visited
  have member := (Matrix.mem_active.mp chosen.row).1
  rcases List.eq_nil_or_concat done with rfl | ⟨done, mate, rfl⟩
  · exact absurd isLast differs
  · rw [List.concat_eq_append, List.getLastD_concat] at isLast
    subst isLast
    rw [List.concat_eq_append, List.append_assoc, List.singleton_append]
      at split
    have inRow : j ∈ M.mates row := by
      rw [split]
      exact List.mem_append_right done List.mem_cons_self
    rw [(layered.holds ready).col j (M.mates_mem row member j inRow)]
      at executed
    have more : M.coveredBy (col :: covered) (done.concat j) =
        M.col j :: M.coveredBy (col :: covered) done := by
      simp [Matrix.coveredBy]
    rw [more] at layered
    obtain ⟨before, undone, layered⟩ := layered.uncover ready
    have same : before = next := Option.some.inj (undone.symm.trans executed)
    subst same
    have ring := (layered.holds ready).rows row member
    refine ⟨covered, done, j :: rest, split, ?_, chosen, layered⟩
    rw [split] at ring
    exact ring.prev_eq

/-- The loop goes on to the next row. -/
theorem onward
    {col row : Nat}
    (visited : Visited M fuel start depth d (.uncovering col row row))
    (ready : Ready M place fuel start) :
    Visited M fuel start depth d (.trying col (d.down row)) := by
  obtain ⟨covered, done, rest, split, isLast, chosen, layered⟩ := visited
  have member := (Matrix.mem_active.mp chosen.row).1
  rcases List.eq_nil_or_concat done with rfl | ⟨done, mate, rfl⟩
  · have layered : Layered M fuel start (col :: covered) d := layered
    obtain ⟨isHead, outside⟩ := Matrix.mem_linked.mp chosen.linked
    have ring := (layered.tallied ready).columns.ring col isHead
    have same : M.vertical (col :: covered) col = M.active covered col :=
      (if_pos (Or.inl rfl)).trans (Matrix.vertical_of_notMem outside)
    rw [same] at ring
    exact ⟨covered, layered, chosen.linked,
      (ring.neighbours (List.mem_cons_of_mem col chosen.row)).1, chosen.short⟩
  · have nodup := ((layered.holds ready).rows row member).nodup
    rw [List.concat_eq_append, List.getLastD_concat] at isLast
    rw [split, List.concat_eq_append, ← isLast] at nodup
    exact absurd (List.mem_append_left rest
      (List.mem_append_right done List.mem_cons_self))
      (List.nodup_cons.mp nodup).1

/-- All rows have been tried. -/
theorem failed
    {col : Nat}
    (visited : Visited M fuel start depth d (.trying col col))
    (ready : Ready M place fuel start)
    (executed : d.uncover fuel col = some next) :
    Visited M fuel start depth next (.returned false) := by
  obtain ⟨covered, layered, _⟩ := visited
  obtain ⟨before, undone, layered⟩ := layered.uncover ready
  have same : before = next := Option.some.inj (undone.symm.trans executed)
  exact ⟨covered, same ▸ layered⟩

end Visited

/-- What holds at all points of a search. -/
theorem Dance.Reached.visited
    {depth : Nat}
    {point : Dance.Point}
    (reached : Dance.Reached fuel start depth point d)
    (ready : Ready M place fuel start) :
    Visited M fuel start depth d point := by
  induction reached with
  | start =>
      have fewer : (M.linked []).length ≤ M.heads.length :=
        List.length_filter_le _ _
      exact ⟨[], Layered.initial ready, fewer.trans_lt ready.enough'⟩
  | written _ _ executed visited => exact visited.written executed
  | chosen _ remain isMin executed visited =>
      exact visited.chosen ready remain isMin executed
  | pushed _ differs visited => exact visited.pushed ready differs
  | covered _ differs executed visited =>
      exact visited.coveredMate ready differs executed
  | called _ visited => exact visited.called ready
  | popped _ failed visited => exact visited.popped ready failed
  | uncovered _ differs executed visited =>
      exact visited.uncoveredMate ready differs executed
  | onward _ visited => exact visited.onward ready
  | failed _ executed visited => exact visited.failed ready executed

/-! ## The search on the matrix of a board -/

/-- A state of the search: the columns that are linked, what their sizes say,
and that a column can be covered and uncovered. -/
structure Restoring
    (fuel : Nat)
    (start : Dance)
    (heads : List Nat)
    (d : Dance) : Prop where
  ring : Ring d.right d.left d.root heads
  columns : ∀ head ∈ heads, ∃ name, start.columns name = some head
  size : ∀ name head, start.columns name = some head →
    ∃ members, Ring d.down d.up head members ∧ d.size head = members.length
  undone : ∀ head ∈ heads, ∃ next, d.cover fuel head = some next ∧
    next.uncover fuel head = some d
  least : heads ≠ [] → ∃ column ∈ heads, d.getMinColumn fuel = some column ∧
    ((∃ other ∈ heads, d.size other ≤ 1) → d.size column ≤ 1) ∧
      ((∀ other ∈ heads, 1 < d.size other) →
        ∀ other ∈ heads, d.size column ≤ d.size other)

/-- The constructor leaves the search with the columns of the board. -/
theorem ready_of_filled
    {board : Board}
    (filled : Dance.Filled board (sheetOf board) start)
    (counted : start.Counted)
    (enough : kMaxNodes < fuel) :
    Ready (sheetOf board).matrix (sheetOf board).place fuel start := by
  obtain ⟨enough', enough''⟩ := bounds board enough
  refine ⟨filled.holds, ⟨?_, ?_⟩, filled.stack, Sheet.places, enough',
    enough''⟩
  · have columns := filled.holds.columns
    rw [Dance.linked_nil] at columns
    exact columns
  · intro head isHead
    obtain ⟨name, listed, rfl⟩ := Sheet.mem_heads.mp isHead
    have less := counted.column_lt name _ (filled.columns name listed)
    rw [counted.size _ less, filled.nodesOf_eq counted]
    rfl

/-- In each state of a search the sizes are right and a column that is covered
can be uncovered, and a call of `solve` that fails changes nothing. -/
theorem search_restores
    {board : Board}
    (entries : ∀ cell < cellCount, board cell ≤ 9)
    (enough : kMaxNodes < fuel)
    (made : Dance.make board = some start)
    {depth : Nat}
    {point : Dance.Point}
    (reached : Dance.Reached fuel start depth point d) :
    (∃ heads, Restoring fuel start heads d) ∧
      (point = .entered → ∃ found next,
        d.solve fuel depth = some (found, next) ∧
          (found = false → next = d)) := by
  obtain ⟨_, same, filled⟩ := Dance.make_spec entries
  rw [made, Option.some.injEq] at same
  subst same
  have counted := Dance.Counted.make made
  have ready := ready_of_filled filled counted enough
  have visited := reached.visited ready
  constructor
  · obtain ⟨covered, layered⟩ := visited.layered
    have holds := layered.holds ready
    have tallied := layered.tallied ready
    refine ⟨(sheetOf board).matrix.linked covered, ?_, ?_, ?_, ?_, ?_⟩
    · rw [holds.root]
      exact holds.heads
    · intro head linked
      have isHead := (Matrix.mem_linked.mp linked).1
      obtain ⟨name, listed, rfl⟩ := Sheet.mem_heads.mp isHead
      exact ⟨name, filled.columns name listed⟩
    · intro name head isColumn
      obtain ⟨listed, rfl⟩ := (filled.columns_iff counted).mp isColumn
      have isHead := Sheet.mem_heads.mpr ⟨name, listed, rfl⟩
      exact ⟨_, tallied.columns.ring _ isHead, tallied.size _ isHead⟩
    · intro head linked
      obtain ⟨next, covers, _⟩ := layered.cover ready linked
      exact ⟨next, covers.executed, covers.undone⟩
    · intro nonempty
      obtain ⟨column, linked, isMin, least⟩ :=
        holds.getMinColumn_least nonempty ready.enough'
      refine ⟨column, linked, isMin, ?_, ?_⟩
      · rintro ⟨other, isOther, small⟩
        rcases least with isSmall | least
        · exact isSmall
        · exact (least other isOther).trans small
      · intro large
        rcases least with isSmall | least
        · exact absurd isSmall (not_le.mpr (large column linked))
        · exact least
  · rintro rfl
    exact visited.solved ready

theorem search_restores_nearlyFull :
    ∃ start, Dance.make nearlyFull = some start ∧
      (∃ heads, Restoring 4000 start heads start) ∧
        (Dance.Point.entered = .entered → ∃ found next,
          start.solve 4000 4000 = some (found, next) ∧
            (found = false → next = start)) := by
  have entries : ∀ cell < cellCount, nearlyFull cell ≤ 9 := by decide
  obtain ⟨start, made, _⟩ := Dance.make_spec entries
  exact ⟨start, made, search_restores entries (by decide) made .start⟩

end Lab1
end CloudComputing
