import Mathlib

/-!
# Partial maps

Deleting a list of keys from a partial function one after the other removes
exactly the listed keys, and the number of deletions that find their key is
the number of distinct listed keys that were present.
-/

namespace CloudComputing
namespace PartialMap

variable {α β : Type*} [DecidableEq α]

/-- The map without the listed keys. -/
def erase (map : α → Option β) (keys : List α) : α → Option β :=
  fun key => if key ∈ keys then none else map key

/-- The distinct listed keys that are present. -/
def present (map : α → Option β) (keys : List α) : Finset α :=
  keys.toFinset.filter fun key => (map key).isSome

/-- The number of keys that are present when their turn comes. -/
def hits (map : α → Option β) : List α → Nat
  | [] => 0
  | key :: keys =>
      hits (erase map [key]) keys + if (map key).isSome then 1 else 0

@[simp] theorem erase_nil (map : α → Option β) : erase map [] = map := by
  funext key
  simp [erase]

theorem erase_cons (map : α → Option β) (key : α) (keys : List α) :
    erase map (key :: keys) = erase (erase map [key]) keys := by
  funext other
  unfold erase
  by_cases inTail : other ∈ keys
  · simp [inTail]
  · simp [inTail]

/-- A single deletion takes its key out of the present ones. -/
theorem present_erase (map : α → Option β) (key : α) (keys : List α) :
    present (erase map [key]) keys = (present map keys).erase key := by
  ext other
  unfold present erase
  by_cases same : other = key
  · simp [same]
  · simp [same]

theorem present_cons (map : α → Option β) (key : α) (keys : List α) :
    present map (key :: keys) =
      if (map key).isSome then insert key ((present map keys).erase key)
      else (present map keys).erase key := by
  ext other
  unfold present
  by_cases same : other = key
  · subst same
    split
    · rename_i found
      simp [found]
    · rename_i missing
      simp [missing]
  · split
    · simp [same]
    · simp [same]

/-- The deletions that find their key are counted without repetition. -/
theorem hits_eq_card_present (map : α → Option β) (keys : List α) :
    hits map keys = (present map keys).card := by
  induction keys generalizing map with
  | nil => simp [hits, present]
  | cons key keys inductionHypothesis =>
      rw [hits, inductionHypothesis, present_erase, present_cons]
      split
      · rw [Finset.card_insert_of_notMem (Finset.notMem_erase key _)]
      · rfl

end PartialMap
end CloudComputing
