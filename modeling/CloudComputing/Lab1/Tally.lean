import CloudComputing.Lab1.Search

/-!
# The sizes of the columns

A column keeps its nodes when it is covered, and loses none as long as it is.
In every state between two calls of `cover` and `uncover` each column counts
the nodes of its list, so `get_min_column` compares their numbers.
-/

namespace CloudComputing
namespace Lab1
namespace Matrix

variable {M : Matrix} {covered : List Nat} {head : Nat} {d : Dance}

/-- The list of a column, covered or not. -/
def vertical (M : Matrix) : List Nat → Nat → List Nat
  | [], head => M.active [] head
  | last :: covered, head =>
      if head = last ∨ head ∈ covered then vertical M covered head
      else M.active (last :: covered) head

theorem vertical_of_notMem (outside : head ∉ covered) :
    M.vertical covered head = M.active covered head := by
  cases covered with
  | nil => rfl
  | cons last covered =>
      rw [List.mem_cons] at outside
      exact if_neg outside

theorem mem_vertical
    {node : Nat}
    (inside : node ∈ M.vertical covered head) :
    node ∈ M.nodes ∧ M.col node = head := by
  induction covered with
  | nil =>
      obtain ⟨member, isHead, _⟩ := mem_active.mp inside
      exact ⟨member, isHead⟩
  | cons last covered inductionHypothesis =>
      unfold vertical at inside
      split at inside
      · exact inductionHypothesis inside
      · obtain ⟨member, isHead, _⟩ := mem_active.mp inside
        exact ⟨member, isHead⟩

/-- `cover` takes nothing out of a column that is covered. -/
theorem notMem_mated
    {other node : Nat}
    (isCovered : other = head ∨ other ∈ covered)
    (inside : node ∈ M.vertical covered other) :
    node ∉ M.mated covered head := by
  intro mated
  have isOther := (mem_vertical inside).2
  rcases isCovered with rfl | isCovered
  · exact col_mated_ne mated isOther
  · obtain ⟨_, _, free⟩ := mem_active.mp (active_of_mated mated)
    exact free node List.mem_cons_self (isOther ▸ isCovered)

/-- The lists when one more column is covered. -/
theorem vertical_cons (other : Nat) :
    (M.vertical covered other).filter (· ∉ M.mated covered head) =
      M.vertical (head :: covered) other := by
  by_cases isCovered : other = head ∨ other ∈ covered
  · have same : M.vertical (head :: covered) other =
        M.vertical covered other := if_pos isCovered
    rw [same]
    apply List.filter_eq_self.mpr
    intro node inside
    exact decide_eq_true (notMem_mated isCovered inside)
  · have isActive : M.vertical (head :: covered) other =
        M.active (head :: covered) other := if_neg isCovered
    rw [not_or] at isCovered
    rw [isActive, vertical_of_notMem isCovered.2, active_cons isCovered.1]

/-! ## States that count -/

/-- All columns, with their nodes and their sizes. -/
structure Tallied
    (M : Matrix)
    (covered : List Nat)
    (d : Dance) : Prop where
  columns : Rings d.down d.up M.heads (M.vertical covered)
  size : ∀ head ∈ M.heads, d.size head = (M.vertical covered head).length

/-- The list of a column while `cover` has to come to these nodes still. -/
def during
    (M : Matrix)
    (covered : List Nat)
    (head : Nat)
    (remaining : List Nat)
    (other : Nat) : List Nat :=
  (M.vertical covered other).filter fun node =>
    node ∉ M.mated covered head ∨ node ∈ remaining

/-- The columns while `cover` has to come to these nodes still. -/
structure Tallying
    (M : Matrix)
    (covered : List Nat)
    (head : Nat)
    (remaining : List Nat)
    (s : Dance) : Prop where
  columns : Rings s.down s.up M.heads (M.during covered head remaining)
  size : ∀ other ∈ M.heads,
    s.size other = (M.during covered head remaining other).length

theorem during_mated (other : Nat) :
    M.during covered head (M.mated covered head) other =
      M.vertical covered other := by
  apply List.filter_eq_self.mpr
  intro node _
  exact decide_eq_true (Decidable.not_or_of_imp id)

theorem during_nil (other : Nat) :
    M.during covered head [] other = M.vertical (head :: covered) other := by
  rw [← vertical_cons]
  apply List.filter_congr
  intro node _
  rw [decide_eq_decide]
  exact or_iff_left List.not_mem_nil

/-- One node less. -/
theorem during_cons
    {node : Nat}
    {remaining : List Nat}
    (suffix : node :: remaining <:+ M.mated covered head)
    (other : Nat) :
    (M.during covered head (node :: remaining) other).filter (· ≠ node) =
      M.during covered head remaining other :=
  filter_remaining suffix _

namespace Tallying

variable {remaining : List Nat} {s : Dance} {node : Nat}

/-- One step of `cover`. -/
theorem step
    (tallying : M.Tallying covered head (node :: remaining) s)
    (suffix : node :: remaining <:+ M.mated covered head)
    (isCol : s.col node = M.col node) :
    M.Tallying covered head remaining (s.unlink node) := by
  have mated : node ∈ M.mated covered head :=
    suffix.subset List.mem_cons_self
  have active := active_of_mated mated
  obtain ⟨member, _, free⟩ := mem_active.mp active
  have listed := M.col_mem node member
  have outside : M.col node ∉ covered := free node List.mem_cons_self
  have inside : node ∈ M.during covered head (node :: remaining)
      (M.col node) := by
    refine List.mem_filter.mpr ⟨?_, decide_eq_true
      (Or.inr List.mem_cons_self)⟩
    rw [vertical_of_notMem outside]
    exact active
  rw [Dance.unlink_eq]
  constructor
  · have columns := tallying.columns.unlink listed inside
    simp only [during_cons suffix] at columns
    exact columns
  · intro other isHead
    change Function.update s.size (s.col node) _ other = _
    rw [isCol, Function.update_apply, ← during_cons suffix]
    split
    case isTrue same =>
      subst same
      have ring := tallying.columns.ring _ listed
      obtain ⟨before, after, split⟩ := List.append_of_mem inside
      have nodup := (List.nodup_cons.mp ring.nodup).2
      rw [tallying.size _ listed]
      rw [split] at nodup ⊢
      rw [filter_ne_append nodup, List.length_append, List.length_append,
        List.length_cons]
      push_cast
      omega
    case isFalse differs =>
      have kept : (M.during covered head (node :: remaining) other).filter
          (· ≠ node) = M.during covered head (node :: remaining) other := by
        apply List.filter_eq_self.mpr
        intro inner innerMember
        apply decide_eq_true
        rintro rfl
        have isOther := (mem_vertical (List.mem_of_mem_filter innerMember)).2
        exact differs isOther.symm
      rw [kept]
      exact tallying.size other isHead

end Tallying

/-- `cover` counts. -/
theorem Tallied.cover
    (tallied : M.Tallied covered d)
    (holds : M.Holds covered d)
    (listed : head ∈ M.linked covered)
    {fuel : Nat}
    (enough : M.nodes.length < fuel)
    {next : Dance}
    (executed : d.cover fuel head = some next) :
    M.Tallied (head :: covered) next := by
  have start : M.Tallying covered head (M.mated covered head)
      (d.unlinkHead head) := by
    rw [Dance.unlinkHead_eq]
    constructor
    · exact tallied.columns.congr fun other _ => during_mated other
    · intro other isHead
      rw [during_mated]
      exact tallied.size other isHead
  have steps : ∀ node rest s,
      M.Unlinked covered head (d.unlinkHead head) (node :: rest) s →
        M.Tallying covered head (node :: rest) s →
          M.Tallying covered head rest (s.unlink node) := by
    intro node rest s unlinked tallying
    apply tallying.step unlinked.suffix
    have mated : node ∈ M.mated covered head :=
      unlinked.suffix.subset List.mem_cons_self
    have member := (mem_active.mp (active_of_mated mated)).1
    rw [unlinked.same, Dance.unlinkHead_eq]
    exact holds.col node member
  obtain ⟨reached, _, executed', _, final⟩ :=
    holds.cover_loops listed enough steps start
  obtain rfl : next = reached :=
    Option.some.inj (executed.symm.trans executed')
  constructor
  · exact final.columns.congr fun other _ => (during_nil other).symm
  · intro other isHead
    rw [← during_nil]
    exact final.size other isHead

end Matrix
end Lab1
end CloudComputing
