import Mathlib.Data.List.Basic
import Mathlib.Data.Nat.Init

/-!
# Logs indexed by transaction numbers

A log stored as a map from numbers to records, without gaps between a first
number and the next free one.  Such a log has a list of records in number
order; one log is a prefix of another exactly when it is no longer and the two
agree wherever the first is defined.  A pairwise comparable family of logs
therefore has at most one record per number.
-/

namespace CloudComputing
namespace IndexedLog

variable {α β : Type*}

/-- The records with numbers from `first` to `next - 1`, in number order. -/
def entries (log : Nat → Option α) (first next : Nat) : List α :=
  (List.range' first (next - first)).filterMap log

/-- Every number from `first` to `next - 1` has a record. -/
def Covers (log : Nat → Option α) (first next : Nat) : Prop :=
  ∀ id, first ≤ id → id < next → ∃ record, log id = some record

/-- Only records that satisfy `admissible` are stored, all of them between
`first` and `next - 1`. -/
def Within
    (admissible : Nat → α → Prop)
    (log : Nat → Option α)
    (first next : Nat) : Prop :=
  ∀ id record, log id = some record →
    first ≤ id ∧ id < next ∧ admissible id record

@[simp] theorem entries_self
    (log : Nat → Option α)
    (first : Nat) :
    entries log first first = [] := by
  simp [entries]

/-- The record after the last one is appended at the end of the list. -/
theorem entries_succ
    {log : Nat → Option α}
    {first next : Nat}
    (ordered : first ≤ next)
    {record : α}
    (stored : log next = some record) :
    entries log first (next + 1) = entries log first next ++ [record] := by
  have count : next + 1 - first = next - first + 1 := by omega
  have last : first + (next - first) = next := by omega
  rw [entries, count, List.range'_concat, List.filterMap_append, entries]
  simp [last, stored]

/-- The list depends only on the numbers it covers. -/
theorem entries_congr
    {log other : Nat → Option α}
    {first next : Nat}
    (agree : ∀ id, first ≤ id → id < next → log id = other id) :
    entries log first next = entries other first next := by
  apply List.filterMap_congr
  intro id member
  rw [List.mem_range'_1] at member
  exact agree id member.1 (by omega)

theorem Covers.length_entries
    {log : Nat → Option α}
    {first next : Nat}
    (covers : Covers log first next) :
    (entries log first next).length = next - first := by
  by_cases ordered : first ≤ next
  · induction next, ordered using Nat.le_induction with
    | base => simp
    | succ next ordered inductionHypothesis =>
        obtain ⟨record, stored⟩ := covers next ordered (by omega)
        rw [entries_succ ordered stored, List.length_append,
          inductionHypothesis fun id lower upper =>
            covers id lower (by omega)]
        simp only [List.length_singleton]
        omega
  · simp [entries, show next - first = 0 by omega]

/-- The list holds the record of number `first + index` at `index`. -/
theorem Covers.getElem?_entries
    {log : Nat → Option α}
    {first next : Nat}
    (covers : Covers log first next)
    {index : Nat}
    (inside : first + index < next) :
    (entries log first next)[index]? = log (first + index) := by
  have ordered : first ≤ next := by omega
  induction next, ordered using Nat.le_induction with
  | base => omega
  | succ next ordered inductionHypothesis =>
      have shorter : Covers log first next := fun id lower upper =>
        covers id lower (by omega)
      obtain ⟨record, stored⟩ := covers next ordered (by omega)
      rw [entries_succ ordered stored]
      by_cases last : first + index = next
      · rw [List.getElem?_append_right (by rw [shorter.length_entries]; omega),
          shorter.length_entries, last, stored]
        simp [show index - (next - first) = 0 by omega]
      · rw [List.getElem?_append_left (by rw [shorter.length_entries]; omega)]
        exact inductionHypothesis shorter (by omega)

/-- A gap-free log is a prefix of another exactly when it ends no later and
agrees with it on its own range. -/
theorem Covers.entries_prefix_iff
    {log other : Nat → Option α}
    {first next next' : Nat}
    (ordered : first ≤ next)
    (covers : Covers log first next)
    (covers' : Covers other first next') :
    entries log first next <+: entries other first next' ↔
      (next ≤ next' ∨ next = first) ∧
        ∀ id, first ≤ id → id < next → log id = other id := by
  constructor
  · intro isPrefix
    have lengths := isPrefix.length_le
    rw [covers.length_entries, covers'.length_entries] at lengths
    refine ⟨by omega, ?_⟩
    intro id lower upper
    have position := covers.getElem?_entries
      (show first + (id - first) < next by omega)
    have position' := covers'.getElem?_entries
      (show first + (id - first) < next' by omega)
    rw [show first + (id - first) = id by omega] at position position'
    have inside : id - first < (entries log first next).length := by
      rw [covers.length_entries]
      omega
    rw [← position, ← position', List.getElem?_eq_getElem inside,
      List.prefix_iff_getElem?.mp isPrefix _ inside]
  · rintro ⟨bounds, agree⟩
    rcases bounds with bounds | empty
    · rw [entries_congr agree]
      have split :
          List.range' first (next' - first) =
            List.range' first (next - first) ++
              List.range' next (next' - next) := by
        rw [show next' - first = (next - first) + (next' - next) by omega,
          ← List.range'_append]
        congr 2
        omega
      rw [entries, entries, split, List.filterMap_append]
      exact List.prefix_append _ _
    · subst empty
      simp

/-- Logs that are prefixes one of the other agree on every number that both
cover. -/
theorem Covers.agree_of_comparable
    {log other : Nat → Option α}
    {first next next' : Nat}
    (ordered : first ≤ next)
    (ordered' : first ≤ next')
    (covers : Covers log first next)
    (covers' : Covers other first next')
    (comparable :
      entries log first next <+: entries other first next' ∨
        entries other first next' <+: entries log first next)
    {id : Nat}
    (lower : first ≤ id)
    (upper : id < next)
    (upper' : id < next') :
    log id = other id := by
  rcases comparable with isPrefix | isPrefix
  · exact ((covers.entries_prefix_iff ordered covers').mp isPrefix).2 id lower
      upper
  · exact (((covers'.entries_prefix_iff ordered' covers).mp isPrefix).2 id
      lower upper').symm

/-- Logs whose records all belong to one assignment of records to numbers
agree on every number that both cover. -/
theorem Covers.agree_of_functional
    {admissible : Nat → α → Prop}
    (functional : ∀ id record record',
      admissible id record → admissible id record' → record = record')
    {log other : Nat → Option α}
    {first next next' : Nat}
    (covers : Covers log first next)
    (covers' : Covers other first next')
    (records : ∀ id record,
      log id = some record → id < next → admissible id record)
    (records' : ∀ id record,
      other id = some record → id < next' → admissible id record)
    {id : Nat}
    (lower : first ≤ id)
    (upper : id < next)
    (upper' : id < next') :
    log id = other id := by
  obtain ⟨record, stored⟩ := covers id lower upper
  obtain ⟨record', stored'⟩ := covers' id lower upper'
  rw [stored, stored', functional id record record'
    (records id record stored upper) (records' id record' stored' upper')]

/-- Replaying one more record after the others. -/
theorem foldl_entries_succ
    (apply : β → α → β)
    (start : β)
    {log : Nat → Option α}
    {first next : Nat}
    (ordered : first ≤ next)
    {record : α}
    (stored : log next = some record) :
    (entries log first (next + 1)).foldl apply start =
      apply ((entries log first next).foldl apply start) record := by
  rw [entries_succ ordered stored, List.foldl_append]
  rfl

/-- When every record carries its own number, the numbers of the list
increase. -/
theorem entries_pairwise
    {log : Nat → Option α}
    {first next : Nat}
    {number : α → Nat}
    (carried : ∀ id record, log id = some record → id < next →
      number record = id) :
    (entries log first next).Pairwise fun record other =>
      number record < number other := by
  rw [entries, List.pairwise_filterMap]
  refine (List.pairwise_lt_range' (s := first) (n := next - first)).imp_of_mem
    fun member member' ordered record stored record' stored' => ?_
  rw [List.mem_range'_1] at member member'
  rw [carried _ record stored (by omega),
    carried _ record' stored' (by omega)]
  exact ordered

/-- The members of the list are the records stored in its range. -/
theorem mem_entries
    {log : Nat → Option α}
    {first next : Nat}
    {record : α} :
    record ∈ entries log first next ↔
      ∃ id, first ≤ id ∧ id < next ∧ log id = some record := by
  rw [entries, List.mem_filterMap]
  constructor
  · rintro ⟨id, member, stored⟩
    rw [List.mem_range'_1] at member
    exact ⟨id, member.1, by omega, stored⟩
  · rintro ⟨id, lower, upper, stored⟩
    exact ⟨id, List.mem_range'_1.mpr ⟨lower, by omega⟩, stored⟩

/-- A list with increasing numbers is a part, in order, of every list with
non-decreasing numbers that has all its members. -/
theorem sublist_of_subset
    {number : α → Nat}
    {part whole : List α}
    (increasing : part.Pairwise fun record other =>
      number record < number other)
    (ordered : whole.Pairwise fun record other =>
      number record ≤ number other)
    (members : part ⊆ whole) :
    part.Sublist whole := by
  induction part generalizing whole with
  | nil => exact List.nil_sublist whole
  | cons record part inductionHypothesis =>
      obtain ⟨front, back, rfl⟩ :=
        List.append_of_mem (members List.mem_cons_self)
      obtain ⟨later, increasing⟩ := List.pairwise_cons.mp increasing
      obtain ⟨_, orderedBack, before⟩ := List.pairwise_append.mp ordered
      obtain ⟨_, orderedBack⟩ := List.pairwise_cons.mp orderedBack
      -- What follows the record has larger numbers, so it is not in front.
      have inBack : part ⊆ back := by
        intro other member
        have larger := later other member
        rcases List.mem_append.mp (members (List.mem_cons_of_mem record member))
          with inFront | behind
        · have := before other inFront record List.mem_cons_self
          omega
        · rcases List.mem_cons.mp behind with same | inBack
          · subst same
            omega
          · exact inBack
      exact ((inductionHypothesis increasing orderedBack inBack).cons_cons
        record).trans (List.sublist_append_right _ _)

end IndexedLog
end CloudComputing
