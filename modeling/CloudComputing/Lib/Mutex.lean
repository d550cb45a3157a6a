import Mathlib.Logic.Function.Basic

/-!
# Mutexes

A mutex remembers who has it, and every thread knows from its position whether
it has the mutex.  Taking a free mutex and releasing one's own keep the two in
agreement, so never do two threads have it.
-/

namespace CloudComputing
namespace Mutex

variable {ι : Type*}

/-- The mutex is with exactly those threads that have it. -/
def Owned (mutex : Option ι) (has : ι → Bool) : Prop :=
  ∀ thread, mutex = some thread ↔ has thread = true

variable {mutex : Option ι} {has : ι → Bool} {thread other : ι}

/-- A free mutex that no thread has. -/
theorem Owned.free (nobody : ∀ thread, has thread = false) : Owned none has := by
  intro thread
  simp [nobody thread]

/-- Two threads do not have the mutex at once. -/
theorem Owned.unique
    (owned : Owned mutex has)
    (first : has thread = true)
    (second : has other = true) :
    thread = other := by
  have isFirst := (owned thread).mpr first
  rw [(owned other).mpr second] at isFirst
  exact (Option.some.inj isFirst).symm

/-- A mutex that is not free is with some thread. -/
theorem Owned.exists_of_ne_none
    (owned : Owned mutex has)
    (taken : mutex ≠ none) :
    ∃ thread, has thread = true := by
  obtain ⟨thread, isOwner⟩ := Option.ne_none_iff_exists'.mp taken
  exact ⟨thread, (owned thread).mp isOwner⟩

variable [DecidableEq ι]

/-- A thread takes a free mutex. -/
theorem Owned.take
    (owned : Owned mutex has)
    (free : mutex = none)
    (thread : ι) :
    Owned (some thread) (Function.update has thread true) := by
  intro other
  by_cases own : other = thread
  · simp [own]
  · rw [Function.update_of_ne own, ← owned other, free]
    simp [Ne.symm own]

/-- A thread releases its mutex. -/
theorem Owned.release
    (owned : Owned mutex has)
    (own : has thread = true) :
    Owned none (Function.update has thread false) := by
  intro other
  by_cases same : other = thread
  · simp [same]
  · rw [Function.update_of_ne same]
    simp only [reduceCtorEq, false_iff]
    exact fun second => same (owned.unique second own)

end Mutex
end CloudComputing
