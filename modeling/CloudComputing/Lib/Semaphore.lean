import Mathlib

/-!
# Producer-consumer locks

Counting semaphores, and the lock that is made of three of them: a producer
waits for `empty` and then for `mutex`, and posts `mutex` and then `full`; a
consumer waits for `full` and `mutex`, and posts `mutex` and `empty`.  Each
access is two operations, between which other threads run.
-/

namespace CloudComputing
namespace Semaphore

/-- The semaphores of one lock. -/
inductive Slot
  | empty
  | full
  | mutex
  deriving DecidableEq, Repr

/-- The values of the semaphores of a family of locks. -/
abbrev Values (ι : Type*) := ι → Slot → Nat

/-- The values of a new lock for `len` items. -/
def fresh (len : Nat) : Slot → Nat
  | .empty => len
  | .full => 0
  | .mutex => 1

/-- An operation on one semaphore. -/
inductive Op (ι : Type*)
  | wait (lock : ι) (slot : Slot)
  | post (lock : ι) (slot : Slot)
  deriving DecidableEq, Repr

variable {ι : Type*}

/-- A producer enters. -/
def pGet (lock : ι) : Op ι × Op ι := (.wait lock .empty, .wait lock .mutex)

/-- A producer leaves. -/
def pRelease (lock : ι) : Op ι × Op ι := (.post lock .mutex, .post lock .full)

/-- A consumer enters. -/
def cGet (lock : ι) : Op ι × Op ι := (.wait lock .full, .wait lock .mutex)

/-- A consumer leaves. -/
def cRelease (lock : ι) : Op ι × Op ι :=
  (.post lock .mutex, .post lock .empty)

variable [DecidableEq ι]

/-- Change one value. -/
def set (values : Values ι) (lock : ι) (slot : Slot) (value : Nat) : Values ι :=
  Function.update values lock (Function.update (values lock) slot value)

/-- Execute an operation; `none` while it has to wait. -/
def Op.apply (values : Values ι) : Op ι → Option (Values ι)
  | .wait lock slot =>
      if 0 < values lock slot then
        some (set values lock slot (values lock slot - 1))
      else none
  | .post lock slot => some (set values lock slot (values lock slot + 1))

/-- The operation takes from this semaphore. -/
def Op.takes (lock : ι) (slot : Slot) (op : Op ι) : Nat :=
  if op = .wait lock slot then 1 else 0

/-- The operation gives to this semaphore. -/
def Op.gives (lock : ι) (slot : Slot) (op : Op ι) : Nat :=
  if op = .post lock slot then 1 else 0

theorem set_apply
    (values : Values ι)
    (lock lock' : ι)
    (slot slot' : Slot)
    (value : Nat) :
    set values lock slot value lock' slot' =
      if lock' = lock ∧ slot' = slot then value else values lock' slot' := by
  unfold set
  by_cases same : lock' = lock
  · subst same
    by_cases sameSlot : slot' = slot
    · subst sameSlot
      simp
    · simp [sameSlot]
  · simp [same]

/-- Nothing is lost or made: a value changes by what is given and taken. -/
theorem Op.balance
    {op : Op ι}
    {values values' : Values ι}
    (applied : op.apply values = some values')
    (lock : ι)
    (slot : Slot) :
    values' lock slot + op.takes lock slot =
      values lock slot + op.gives lock slot := by
  cases op with
  | wait lock' slot' =>
      simp only [Op.apply] at applied
      split at applied
      · rename_i positive
        cases applied
        rw [set_apply, Op.takes, Op.gives]
        by_cases same : lock = lock' ∧ slot = slot'
        · obtain ⟨rfl, rfl⟩ := same
          simp only [and_self, if_true, reduceCtorEq, if_false]
          omega
        · have other : ¬ (Op.wait lock' slot' = .wait lock slot) := by
            rintro ⟨rfl, rfl⟩
            exact same ⟨rfl, rfl⟩
          simp only [same, other, if_false, reduceCtorEq]
      · cases applied
  | post lock' slot' =>
      simp only [Op.apply] at applied
      cases applied
      rw [set_apply, Op.takes, Op.gives]
      by_cases same : lock = lock' ∧ slot = slot'
      · obtain ⟨rfl, rfl⟩ := same
        simp only [and_self, if_true, reduceCtorEq, if_false]
      · have other : ¬ (Op.post lock' slot' = .post lock slot) := by
          rintro ⟨rfl, rfl⟩
          exact same ⟨rfl, rfl⟩
        simp only [same, other, if_false, reduceCtorEq]

/-! ## Shares -/

/-- What a thread can have of a lock: an item, full or empty, or the mutex. -/
inductive Share
  | item
  | mutex
  deriving DecidableEq, Repr

/-- How much of a share no thread has. -/
def free (values : Values ι) (lock : ι) : Share → Nat
  | .item => values lock .empty + values lock .full
  | .mutex => values lock .mutex

/-- What an operation claims of a share. -/
def Op.claims (lock : ι) (share : Share) (op : Op ι) : Nat :=
  match share with
  | .item => op.takes lock .empty + op.takes lock .full
  | .mutex => op.takes lock .mutex

/-- What an operation returns of a share. -/
def Op.returns (lock : ι) (share : Share) (op : Op ι) : Nat :=
  match share with
  | .item => op.gives lock .empty + op.gives lock .full
  | .mutex => op.gives lock .mutex

/-- Nothing of a share is lost or made. -/
theorem Op.balance_share
    {op : Op ι}
    {values values' : Values ι}
    (applied : op.apply values = some values')
    (lock : ι)
    (share : Share) :
    free values' lock share + op.claims lock share =
      free values lock share + op.returns lock share := by
  have empty := Op.balance applied lock .empty
  have full := Op.balance applied lock .full
  have mutex := Op.balance applied lock .mutex
  cases share with
  | item =>
      simp only [free, Op.claims, Op.returns]
      omega
  | mutex => exact mutex

/-- An operation can be executed unless it waits for a semaphore at zero. -/
theorem Op.apply_isSome
    {op : Op ι}
    {values : Values ι}
    (ready : ∀ lock slot, op = .wait lock slot → 0 < values lock slot) :
    (op.apply values).isSome = true := by
  cases op with
  | wait lock slot =>
      rw [Op.apply, if_pos (ready lock slot rfl)]
      rfl
  | post lock slot => rfl

end Semaphore
end CloudComputing
