import CloudComputing.Lib.ExactCover
import CloudComputing.Lab1.Covering

/-!
# The search

`solve` finds an exact cover of the columns that are not covered yet, and puts
its rows on the board, or there is none and the state is as it was.
-/

namespace CloudComputing
namespace Lab1
namespace Matrix

variable {M : Matrix} {covered : List Nat} {head : Nat} {d : Dance}

/-- The columns of the row of a node. -/
def covers (M : Matrix) (node : Nat) : Set Nat :=
  {column | column ∈ (node :: M.mates node).map M.col}

/-- Exact covers of the columns that are not covered yet. -/
abbrev Exact (M : Matrix) (covered : List Nat) (chosen : Set Nat) : Prop :=
  IsExactCover M.covers {node | node ∈ M.nodes}
    {column | column ∈ M.linked covered} chosen

/-- There is an exact cover of the columns that are not covered yet. -/
abbrev Solvable (M : Matrix) (covered : List Nat) : Prop :=
  Coverable M.covers {node | node ∈ M.nodes}
    {column | column ∈ M.linked covered}

/-- The cell and the digit that the names of a row stand for. -/
structure Places (M : Matrix) (place : Nat → Nat × Nat) : Prop where
  cell : ∀ node ∈ M.nodes, ∃ mate ∈ node :: M.mates node, M.name mate < 100
  digit : ∀ node ∈ M.nodes, ∃ mate ∈ node :: M.mates node, ¬M.name mate < 100
  cell_eq : ∀ node ∈ M.nodes, ∀ mate ∈ node :: M.mates node,
    M.name mate < 100 → M.name mate = (place node).1
  digit_eq : ∀ node ∈ M.nodes, ∀ mate ∈ node :: M.mates node,
    ¬M.name mate < 100 → M.name mate % 10 = (place node).2

/-- The board with the digits of these rows. -/
def placed (place : Nat → Nat × Nat) (board : Board) (chosen : List Nat) :
    Board :=
  chosen.foldl (fun board node =>
    Function.update board (place node).1 (place node).2) board

/-! ## Writing the solution -/

/-- While the cell or the value is missing, the loop looks at one more node. -/
theorem scan_succ
    (fuel n : Nat)
    {cell val : Option Nat}
    (missing : cell = none ∨ val = none) :
    d.scan (fuel + 1) n cell val =
      if d.name n < 100 then d.scan fuel (d.right n) (some (d.name n)) val
      else d.scan fuel (d.right n) cell (some (d.name n % 10)) := by
  rcases missing with rfl | rfl
  · rfl
  · cases cell with
    | none => rfl
    | some cell => rfl

/-- What a node does not show is still ahead. -/
theorem ahead
    {shown : Nat → Prop}
    {known : Option Nat}
    {value mate : Nat}
    {rest : List Nat}
    (isKnown : known = some value ∨
      known = none ∧ ∃ other ∈ mate :: rest, shown other)
    (notShown : ¬shown mate) :
    known = some value ∨ known = none ∧ ∃ other ∈ rest, shown other := by
  rcases isKnown with isKnown | ⟨unknown, other, inside, isShown⟩
  · exact Or.inl isKnown
  · rcases List.mem_cons.mp inside with rfl | inside
    · exact absurd isShown notShown
    · exact Or.inr ⟨unknown, other, inside, isShown⟩

/-- The loop of `scan` from one of the nodes of the row on. -/
theorem Holds.scan_from
    (holds : M.Holds covered d)
    {place : Nat → Nat × Nat}
    (places : M.Places place)
    {node : Nat}
    (member : node ∈ M.nodes) :
    ∀ (rest done : List Nat) (fuel : Nat) (cell val : Option Nat),
      node :: M.mates node = done ++ rest → rest.length < fuel →
      (cell = some (place node).1 ∨
        cell = none ∧ ∃ mate ∈ rest, M.name mate < 100) →
      (val = some (place node).2 ∨
        val = none ∧ ∃ mate ∈ rest, ¬M.name mate < 100) →
      d.scan fuel (rest.headD node) cell val = some (place node) := by
  intro rest
  induction rest with
  | nil =>
      rintro done (_ | fuel) cell val split enough isCell isVal
      · cases enough
      · rcases isCell with rfl | ⟨_, _, inside, _⟩
        · rcases isVal with rfl | ⟨_, _, inside, _⟩
          · rfl
          · cases inside
        · cases inside
  | cons mate rest inductionHypothesis =>
      rintro done (_ | fuel) cell val split enough isCell isVal
      · cases enough
      · have inRow : mate ∈ node :: M.mates node := by
          rw [split]
          exact List.mem_append_right done List.mem_cons_self
        have inNodes : mate ∈ M.nodes := by
          rcases List.mem_cons.mp inRow with rfl | inside
          · exact member
          · exact M.mates_mem node member mate inside
        have onward := (holds.rows node member).next_of_split split
        have split' : node :: M.mates node = (done ++ [mate]) ++ rest := by
          rw [split, List.append_assoc, List.singleton_append]
        have enough' := Nat.lt_of_succ_lt_succ enough
        have missing : (cell = some (place node).1 ∧
            val = some (place node).2) ∨ cell = none ∨ val = none := by
          tauto
        rcases missing with ⟨rfl, rfl⟩ | missing
        · rfl
        · rw [List.headD_cons, scan_succ fuel mate missing, onward,
            holds.name mate inNodes]
          split
          case isTrue isCellName =>
            apply inductionHypothesis (done ++ [mate]) fuel _ _ split' enough'
            · left
              rw [places.cell_eq node member mate inRow isCellName]
            · exact ahead isVal (not_not.mpr isCellName)
          case isFalse isDigitName =>
            apply inductionHypothesis (done ++ [mate]) fuel _ _ split' enough'
            · exact ahead isCell isDigitName
            · left
              rw [places.digit_eq node member mate inRow isDigitName]

/-- The loop finds the place of the row. -/
theorem Holds.scan
    (holds : M.Holds covered d)
    {place : Nat → Nat × Nat}
    (places : M.Places place)
    {node : Nat}
    (member : node ∈ M.nodes)
    {fuel : Nat}
    (enough : M.nodes.length + 1 < fuel) :
    d.scan fuel node none none = some (place node) := by
  have enough' : (node :: M.mates node).length < fuel := by
    have bound := length_mates_le member
    rw [List.length_cons]
    omega
  exact holds.scan_from places member (node :: M.mates node) [] fuel none none
    rfl enough' (Or.inr ⟨rfl, places.cell node member⟩)
    (Or.inr ⟨rfl, places.digit node member⟩)

/-- The rows on the stack are put on the board. -/
theorem Holds.write
    (holds : M.Holds covered d)
    {place : Nat → Nat × Nat}
    (places : M.Places place)
    (listed : ∀ node ∈ d.stack, node ∈ M.nodes)
    {fuel : Nat}
    (enough : M.nodes.length + 1 < fuel) :
    d.write fuel = some { d with inout := placed place d.inout d.stack } := by
  have run : ∀ (rows : List Nat) (board : Board),
      (∀ node ∈ rows, node ∈ M.nodes) →
        rows.foldlM (Dance.writeRow fuel) { d with inout := board } =
          some { d with inout := placed place board rows } := by
    intro rows
    induction rows with
    | nil => exact fun board _ => rfl
    | cons node rows inductionHypothesis =>
        intro board listed
        have holds' : M.Holds covered { d with inout := board } :=
          ⟨holds.root, holds.col, holds.name, holds.rows, holds.heads,
            holds.columns⟩
        have scanned :=
          holds'.scan places (listed node List.mem_cons_self) enough
        rw [List.foldlM_cons, Dance.writeRow, scanned]
        exact inductionHypothesis _ fun other inside =>
          listed other (List.mem_cons_of_mem node inside)
  exact run d.stack d.inout listed

/-! ## Choosing a column -/

/-- One of the columns is so small that the loop stops at it, or the loop
compares all. -/
theorem Holds.minLoop_least
    (holds : M.Holds covered d) :
    ∀ (rest done : List Nat) (fuel c : Nat),
      0 :: M.linked covered = done ++ rest → done ≠ [] → rest.length < fuel →
      c ∈ M.linked covered → (∀ other ∈ done.tail, d.size c ≤ d.size other) →
      ∃ column ∈ M.linked covered,
        d.minLoop fuel (rest.headD 0) c (d.size c) = some column ∧
          (d.size column ≤ 1 ∨
            ∀ other ∈ M.linked covered, d.size column ≤ d.size other) := by
  intro rest
  induction rest with
  | nil =>
      rintro done (_ | fuel) c split begun enough listed least
      · cases enough
      · refine ⟨c, listed, if_pos holds.root.symm, Or.inr ?_⟩
        rw [List.append_nil] at split
        rw [← split] at least
        exact least
  | cons cc rest inductionHypothesis =>
      rintro done (_ | fuel) c split begun enough listed least
      · cases enough
      · have split' : 0 :: M.linked covered = (done ++ [cc]) ++ rest := by
          rw [split, List.append_assoc, List.singleton_append]
        have begun' : done ++ [cc] ≠ [] := by simp
        have enough' := Nat.lt_of_succ_lt_succ enough
        have tails : (done ++ [cc]).tail = done.tail ++ [cc] :=
          List.tail_append_of_ne_nil begun
        have inside : cc ∈ M.linked covered := by
          cases done with
          | nil => exact absurd rfl begun
          | cons first done =>
              rw [(List.cons.inj split).2]
              exact List.mem_append_right done List.mem_cons_self
        have notRoot : cc ≠ d.root := by
          rw [holds.root]
          rintro rfl
          exact (List.nodup_cons.mp holds.heads.nodup).1 inside
        have onward := holds.heads.next_of_split split
        rw [List.headD_cons]
        unfold Dance.minLoop
        rw [if_neg notRoot, onward]
        split
        case isTrue smaller =>
          split
          case isTrue small => exact ⟨cc, inside, rfl, Or.inl small⟩
          case isFalse =>
            apply inductionHypothesis (done ++ [cc]) fuel cc split' begun'
              enough' inside
            intro other isOther
            rw [tails, List.mem_append, List.mem_singleton] at isOther
            rcases isOther with isOther | rfl
            · exact (le_of_lt smaller).trans (least other isOther)
            · exact le_refl _
        case isFalse larger =>
          apply inductionHypothesis (done ++ [cc]) fuel c split' begun'
            enough' listed
          intro other isOther
          rw [tails, List.mem_append, List.mem_singleton] at isOther
          rcases isOther with isOther | rfl
          · exact least other isOther
          · exact not_lt.mp larger

/-- `get_min_column` finds a column with at most one node, or one with the
fewest nodes. -/
theorem Holds.getMinColumn_least
    (holds : M.Holds covered d)
    (nonempty : M.linked covered ≠ [])
    {fuel : Nat}
    (enough : M.heads.length < fuel) :
    ∃ column ∈ M.linked covered, d.getMinColumn fuel = some column ∧
      (d.size column ≤ 1 ∨
        ∀ other ∈ M.linked covered, d.size column ≤ d.size other) := by
  obtain ⟨first, rest, linked⟩ := List.exists_cons_of_ne_nil nonempty
  have split : 0 :: M.linked covered = [0] ++ first :: rest := by
    rw [linked]
    rfl
  have split' : 0 :: M.linked covered = [0, first] ++ rest := by
    rw [linked]
    rfl
  have isFirst : d.right d.root = first := by
    rw [holds.root, holds.heads.next_head, linked]
    rfl
  have inside : first ∈ M.linked covered := by
    rw [linked]
    exact List.mem_cons_self
  have onward := holds.heads.next_of_split (split.trans rfl)
  have short : rest.length < fuel := by
    have bound : (M.linked covered).length ≤ M.heads.length :=
      List.length_filter_le _ _
    rw [linked, List.length_cons] at bound
    omega
  simp only [Dance.getMinColumn, isFirst, onward]
  split
  case isTrue =>
    apply holds.minLoop_least rest [0, first] fuel first split' (by simp) short
      inside
    intro other isFirst
    rw [List.tail_cons, List.mem_singleton] at isFirst
    rw [isFirst]
  case isFalse small => exact ⟨first, inside, rfl, Or.inl (not_lt.mp small)⟩

/-- `get_min_column` finds one of the columns. -/
theorem Holds.getMinColumn
    (holds : M.Holds covered d)
    (nonempty : M.linked covered ≠ [])
    {fuel : Nat}
    (enough : M.heads.length < fuel) :
    ∃ column ∈ M.linked covered, d.getMinColumn fuel = some column := by
  obtain ⟨column, linked, isMin, _⟩ :=
    holds.getMinColumn_least nonempty enough
  exact ⟨column, linked, isMin⟩

/-! ## The search itself -/

/-- What `solve` returns. -/
inductive Searched
    (M : Matrix)
    (place : Nat → Nat × Nat)
    (covered : List Nat)
    (d : Dance) : Bool × Dance → Prop
  | found
      (chosen : List Nat)
      (next : Dance)
      (exact : M.Exact covered {node | node ∈ chosen})
      (inout : next.inout = placed place d.inout (d.stack ++ chosen)) :
      Searched M place covered d (true, next)
  | failed
      (none : ¬M.Solvable covered) :
      Searched M place covered d (false, d)

/-- The columns that a row leaves. -/
theorem columns_coverRow
    {row : Nat}
    (active : row ∈ M.active covered head) :
    {column | column ∈ M.linked
        (M.coveredBy (head :: covered) (M.mates row))} =
      {column | column ∈ M.linked covered} \ M.covers row := by
  obtain ⟨member, isHead, _⟩ := mem_active.mp active
  ext column
  simp only [Set.mem_ofPred_eq, Set.mem_sdiff, covers, coveredBy, mem_linked,
    List.map_cons, List.mem_cons, List.mem_append, List.mem_reverse, isHead]
  tauto

/-- The nodes of a row stand for the same columns. -/
theorem covers_mate
    {row mate : Nat}
    (member : row ∈ M.nodes)
    (inRow : mate ∈ row :: M.mates row) :
    M.covers mate = M.covers row := by
  rcases List.mem_cons.mp inRow with rfl | inMates
  · rfl
  · ext column
    have cycle := M.cycle row member mate inMates
    constructor
    · intro inside
      obtain ⟨other, inside, isColumn⟩ := List.mem_map.mp inside
      exact List.mem_map.mpr ⟨other, (cycle other).mp inside, isColumn⟩
    · intro inside
      obtain ⟨other, inside, isColumn⟩ := List.mem_map.mp inside
      exact List.mem_map.mpr ⟨other, (cycle other).mpr inside, isColumn⟩

/-- The columns of an active row are not covered. -/
theorem covers_subset
    {row : Nat}
    (active : row ∈ M.active covered head) :
    M.covers row ⊆ {column | column ∈ M.linked covered} := by
  obtain ⟨member, isHead, free⟩ := mem_active.mp active
  intro column inside
  obtain ⟨mate, inRow, rfl⟩ := List.mem_map.mp inside
  rcases List.mem_cons.mp inRow with rfl | inMates
  · exact linked_of_free member free
  · exact linked_of_free (M.mates_mem row member mate inMates)
      (free.mate member inMates)

/-- An exact cover begins with an active row of any column. -/
theorem solvable_iff (listed : head ∈ M.linked covered) :
    M.Solvable covered ↔
      ∃ row ∈ M.active covered head,
        M.Solvable (M.coveredBy (head :: covered) (M.mates row)) := by
  have branch : M.Solvable covered ↔ _ := Coverable.branch listed
  rw [branch]
  constructor
  · rintro ⟨row, member, covers, inside, solvable⟩
    obtain ⟨mate, inRow, isHead⟩ := List.mem_map.mp covers
    have member' : mate ∈ M.nodes := by
      rcases List.mem_cons.mp inRow with rfl | inMates
      · exact member
      · exact M.mates_mem row member mate inMates
    have same := covers_mate member inRow
    have free : M.Free covered mate := by
      intro other inMates
      have isIn : M.col other ∈ M.covers mate := List.mem_map_of_mem inMates
      rw [same] at isIn
      exact (mem_linked.mp (inside isIn)).2
    have active : mate ∈ M.active covered head :=
      mem_active.mpr ⟨member', isHead, free⟩
    refine ⟨mate, active, ?_⟩
    unfold Solvable
    rw [columns_coverRow active, same]
    exact solvable
  · rintro ⟨row, active, solvable⟩
    refine ⟨row, (mem_active.mp active).1, ?_, covers_subset active, ?_⟩
    · exact List.mem_map.mpr ⟨row, List.mem_cons_self,
        (mem_active.mp active).2.1⟩
    · rw [← columns_coverRow active]
      exact solvable

/-- One row of the loop. -/
theorem tryRows_succ
    {solve : Dance → Option (Bool × Dance)}
    {fuel row : Nat}
    (differs : row ≠ head)
    (steps : Nat) :
    Dance.tryRows solve fuel head (steps + 1) row d =
      (loop Dance.right row (fun j d => d.cover fuel (d.col j)) fuel
        ((d.withStack (d.stack ++ [row])).right row)
        (d.withStack (d.stack ++ [row]))).bind fun d =>
      (solve d).bind fun result =>
      if result.1 then some (true, result.2)
      else
        (loop Dance.left row (fun j d => d.uncover fuel (d.col j)) fuel
          ((result.2.withStack result.2.stack.dropLast).left row)
          (result.2.withStack result.2.stack.dropLast)).bind fun d =>
        Dance.tryRows solve fuel head steps (d.down row) d := by
  rw [Dance.tryRows, if_neg differs]
  rfl

/-- The loop over the rows of a covered column finds an exact cover that
contains one of them, or tries all in vain. -/
theorem Holds.tryRows
    {place : Nat → Nat × Nat}
    {solve : Dance → Option (Bool × Dance)}
    {fuel : Nat}
    (holds : M.Holds (head :: covered) d)
    (ring : Ring d.down d.up head (M.active covered head))
    (listed : ∀ node ∈ d.stack, node ∈ M.nodes)
    (enough : M.nodes.length < fuel)
    (solves : ∀ row ∈ M.active covered head, ∀ next,
      M.Holds (M.coveredBy (head :: covered) (M.mates row)) next →
        (∀ node ∈ next.stack, node ∈ M.nodes) →
          ∃ result, solve next = some result ∧
            M.Searched place (M.coveredBy (head :: covered) (M.mates row))
              next result) :
    ∀ (rest done : List Nat) (steps : Nat),
      M.active covered head = done ++ rest → rest.length < steps →
      ∃ result, Dance.tryRows solve fuel head steps (rest.headD head) d =
          some result ∧
        ((∃ row ∈ rest, ∃ chosen next, result = (true, next) ∧
            M.Exact (M.coveredBy (head :: covered) (M.mates row))
              {node | node ∈ chosen} ∧
            next.inout = placed place d.inout (d.stack ++ row :: chosen)) ∨
          result = (false, d) ∧
            ∀ row ∈ rest,
              ¬M.Solvable (M.coveredBy (head :: covered) (M.mates row))) := by
  intro rest
  induction rest with
  | nil =>
      rintro done (_ | steps) split enough
      · cases enough
      · refine ⟨(false, d), if_pos rfl, Or.inr ⟨rfl, ?_⟩⟩
        intro row inside
        cases inside
  | cons row rest inductionHypothesis =>
      rintro done (_ | steps) split enough'
      · cases enough'
      · have active : row ∈ M.active covered head := by
          rw [split]
          exact List.mem_append_right done List.mem_cons_self
        obtain ⟨member, isHead, _⟩ := mem_active.mp active
        have notHead : row ≠ head := by
          rintro rfl
          exact (List.nodup_cons.mp ring.nodup).1 active
        have onward : d.down row = rest.headD head := by
          rw [split] at ring
          exact ring.next_eq
        obtain ⟨next, covers⟩ := holds.coverRow active enough
        -- the row is on the stack while its columns are covered
        let stacked := next.withStack (d.stack ++ [row])
        have executed := Dance.coverRow_withStack (d.stack ++ [row]) fuel row d
        rw [covers.executed, Option.map_some] at executed
        have holds' : M.Holds (M.coveredBy (head :: covered) (M.mates row))
            stacked :=
          ⟨covers.holds.root, covers.holds.col, covers.holds.name,
            covers.holds.rows, covers.holds.heads, covers.holds.columns⟩
        have listed' : ∀ node ∈ stacked.stack, node ∈ M.nodes := by
          intro node inside
          rcases List.mem_append.mp inside with inside | inside
          · exact listed node inside
          · rw [List.mem_singleton.mp inside]
            exact member
        obtain ⟨result, solved, searched⟩ := solves row active stacked holds'
          listed'
        have popped : stacked.withStack stacked.stack.dropLast = next := by
          change next.withStack (d.stack ++ [row]).dropLast = next
          rw [List.dropLast_concat, ← covers.stack]
          rfl
        rw [List.headD_cons, tryRows_succ notHead, executed, Option.bind_some,
          solved, Option.bind_some]
        cases searched with
        | found chosen last exact inout =>
            refine ⟨(true, last), rfl, Or.inl ⟨row, List.mem_cons_self, chosen,
              last, rfl, exact, ?_⟩⟩
            rw [inout]
            change placed place next.inout (d.stack ++ [row] ++ chosen) = _
            rw [covers.inout, List.append_assoc, List.singleton_append]
        | failed none =>
            have split' : M.active covered head = (done ++ [row]) ++ rest := by
              rw [split, List.append_assoc, List.singleton_append]
            obtain ⟨result, executed', outcome⟩ := inductionHypothesis
              (done ++ [row]) steps split' (Nat.lt_of_succ_lt_succ enough')
            refine ⟨result, ?_, ?_⟩
            · rw [if_neg Bool.false_ne_true, popped, covers.undone,
                Option.bind_some, onward]
              exact executed'
            · rcases outcome with ⟨other, inside, found⟩ | ⟨failed, all⟩
              · exact Or.inl ⟨other, List.mem_cons_of_mem row inside, found⟩
              · refine Or.inr ⟨failed, ?_⟩
                intro other inside
                rcases List.mem_cons.mp inside with rfl | inside
                · exact none
                · exact all other inside

/-- Covering a column and the other columns of a row leaves fewer columns. -/
theorem length_coverRow_lt
    (listed : head ∈ M.linked covered)
    (mates : List Nat) :
    (M.linked (M.coveredBy (head :: covered) mates)).length <
      (M.linked covered).length := by
  have fewer : M.linked (M.coveredBy (head :: covered) mates) =
      (M.linked covered).filter
        (· ∉ M.coveredBy (head :: covered) mates) := by
    unfold linked
    rw [List.filter_filter]
    apply List.filter_congr
    intro other _
    rw [← Bool.decide_and, decide_eq_decide, coveredBy, List.mem_append,
      List.mem_cons]
    tauto
  rw [fewer, List.length_filter_lt_length_iff_exists]
  refine ⟨head, listed, ?_⟩
  rw [decide_eq_true_eq, not_not]
  exact List.mem_append_right _ List.mem_cons_self

/-- An exact cover with an active row of a column. -/
theorem Exact.cons
    {row : Nat}
    {chosen : List Nat}
    (active : row ∈ M.active covered head)
    (exact : M.Exact (M.coveredBy (head :: covered) (M.mates row))
      {node | node ∈ chosen}) :
    M.Exact covered {node | node ∈ row :: chosen} := by
  unfold Exact at exact ⊢
  rw [columns_coverRow active] at exact
  have all : {node | node ∈ row :: chosen} = insert row {node | node ∈ chosen} := by
    ext node
    exact List.mem_cons
  rw [all]
  exact exact.insert (mem_active.mp active).1 (covers_subset active)

/-- One call of `solve`. -/
theorem solve_succ (fuel depth : Nat) (d : Dance) :
    d.solve fuel (depth + 1) =
      if d.left d.root = d.root then
        (d.write fuel).map fun d => (true, d)
      else
        (d.getMinColumn fuel).bind fun col =>
        (d.cover fuel col).bind fun d =>
        (Dance.tryRows (Dance.solve fuel depth) fuel col fuel (d.down col)
          d).bind fun result =>
        if result.1 then some (true, result.2)
        else (result.2.uncover fuel col).bind fun d => some (false, d) :=
  rfl

/-- `solve` finds an exact cover of the columns that are left, if there is
one. -/
theorem Holds.solve
    {place : Nat → Nat × Nat}
    (places : M.Places place)
    {fuel : Nat}
    (enough : M.nodes.length + 1 < fuel)
    (enough' : M.heads.length < fuel) :
    ∀ (depth : Nat) (covered : List Nat) (d : Dance),
      M.Holds covered d → (∀ node ∈ d.stack, node ∈ M.nodes) →
      (M.linked covered).length < depth →
      ∃ result, d.solve fuel depth = some result ∧
        M.Searched place covered d result := by
  intro depth
  induction depth with
  | zero =>
      intro covered d holds listed short
      cases short
  | succ depth inductionHypothesis =>
      intro covered d holds listed short
      rw [solve_succ]
      by_cases done : M.linked covered = []
      · have isRoot : d.left d.root = d.root := by
          rw [holds.root, holds.heads.prev_head, done]
          rfl
        have noColumn : {column | column ∈ M.linked covered} = ∅ := by
          ext column
          simp [done]
        rw [if_pos isRoot, holds.write places listed enough]
        refine ⟨_, rfl, Searched.found [] _ ?_ ?_⟩
        · unfold Exact
          rw [noColumn]
          simpa using IsExactCover.empty
        · rw [List.append_nil]
      · have notRoot : d.left d.root ≠ d.root := by
          rcases List.eq_nil_or_concat (M.linked covered) with
            empty | ⟨others, last, split⟩
          · exact absurd empty done
          · have nodup := (List.nodup_cons.mp holds.heads.nodup).1
            rw [holds.root, holds.heads.prev_head, split,
              List.concat_eq_append, List.getLastD_concat]
            rintro rfl
            apply nodup
            rw [split]
            simp
        rw [if_neg notRoot]
        obtain ⟨head, inside, isMin⟩ := holds.getMinColumn done enough'
        obtain ⟨next, covers⟩ := holds.cover inside (Nat.lt_of_succ_lt enough)
        have listed' : ∀ node ∈ next.stack, node ∈ M.nodes := by
          rw [covers.stack]
          exact listed
        have solves : ∀ row ∈ M.active covered head, ∀ next,
            M.Holds (M.coveredBy (head :: covered) (M.mates row)) next →
              (∀ node ∈ next.stack, node ∈ M.nodes) →
                ∃ result, next.solve fuel depth = some result ∧
                  M.Searched place
                    (M.coveredBy (head :: covered) (M.mates row))
                    next result := by
          intro row _ next holds listed
          apply inductionHypothesis _ next holds listed
          have less := length_coverRow_lt inside (M.mates row)
          omega
        have short' : (M.active covered head).length < fuel :=
          length_active_le.trans_lt (Nat.lt_of_succ_lt enough)
        obtain ⟨result, tried, outcome⟩ := covers.holds.tryRows covers.ring
          listed' (Nat.lt_of_succ_lt enough) solves (M.active covered head) []
          fuel rfl short'
        rw [← covers.ring.next_head] at tried
        rw [isMin, Option.bind_some, covers.executed, Option.bind_some, tried,
          Option.bind_some]
        rcases outcome with
          ⟨row, active, chosen, last, rfl, exact, inout⟩ | ⟨rfl, none⟩
        · refine ⟨(true, last), rfl, Searched.found (row :: chosen) last
            (exact.cons active) ?_⟩
          rw [inout, covers.inout, covers.stack]
        · rw [if_neg Bool.false_ne_true, covers.undone]
          refine ⟨(false, d), rfl, Searched.failed ?_⟩
          rw [solvable_iff inside]
          rintro ⟨row, active, solvable⟩
          exact none row active solvable

end Matrix
end Lab1
end CloudComputing
