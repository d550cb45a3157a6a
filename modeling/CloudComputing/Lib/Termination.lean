import Mathlib.Algebra.BigOperators.Ring.Finset
import CloudComputing.Lib.Runs

/-!
# Termination of transition systems

A measure that every allowed step lowers bounds the length of every run, and
every state leads to one in which no step is allowed.  The measure of a system
of threads is a sum over the threads, and a step changes one of its terms.
-/

namespace CloudComputing
namespace Run

variable {σ ε : Type*} {step : σ → ε → Option σ} {guard : σ → ε → Prop}
variable {invariant : σ → Prop} {measure : σ → Nat}

/-- No step is allowed. -/
def AtRest
    (step : σ → ε → Option σ)
    (guard : σ → ε → Prop)
    (state : σ) : Prop :=
  ∀ event next, guard state event → step state event ≠ some next

/-- Each step of a run is paid by the measure. -/
theorem length_add_le
    (keeps : ∀ state event next, invariant state → guard state event →
      step state event = some next → invariant next)
    (lowers : ∀ state event next, invariant state → guard state event →
      step state event = some next → measure next < measure state)
    {state last : σ}
    {events : List ε}
    (run : Run step guard state events last)
    (initially : invariant state) :
    events.length + measure last ≤ measure state := by
  induction run with
  | nil => rw [List.length_nil, Nat.zero_add]
  | cons allowed taken _ inductionHypothesis =>
      have less := lowers _ _ _ initially allowed taken
      have rest := inductionHypothesis (keeps _ _ _ initially allowed taken)
      rw [List.length_cons]
      omega

/-- The system comes to rest. -/
theorem exists_atRest
    (keeps : ∀ state event next, invariant state → guard state event →
      step state event = some next → invariant next)
    (lowers : ∀ state event next, invariant state → guard state event →
      step state event = some next → measure next < measure state)
    {state : σ}
    (initially : invariant state) :
    ∃ later last, Run step guard state later last ∧
      AtRest step guard last := by
  generalize bound : measure state = steps
  induction steps using Nat.strong_induction_on generalizing state with
  | _ steps inductionHypothesis =>
      by_cases rest : AtRest step guard state
      · exact ⟨[], state, .nil state, rest⟩
      · unfold AtRest at rest
        push Not at rest
        obtain ⟨event, next, allowed, taken⟩ := rest
        have less := lowers _ _ _ initially allowed taken
        rw [bound] at less
        obtain ⟨later, last, run, rest⟩ := inductionHypothesis (measure next)
          less (keeps _ _ _ initially allowed taken) rfl
        exact ⟨event :: later, last, .cons allowed taken run, rest⟩

end Run

/-- A sum over threads after one of them has gone on. -/
theorem sum_update_add
    {ι α : Type*}
    [DecidableEq ι]
    {threads : Finset ι}
    {thread : ι}
    (member : thread ∈ threads)
    (phases : ι → α)
    (phase : α)
    (weight : α → Nat) :
    ∑ other ∈ threads, weight (Function.update phases thread phase other) +
        weight (phases thread) =
      ∑ other ∈ threads, weight (phases other) + weight phase := by
  have others : ∑ other ∈ threads.erase thread,
      weight (Function.update phases thread phase other) =
        ∑ other ∈ threads.erase thread, weight (phases other) := by
    apply Finset.sum_congr rfl
    intro other inside
    rw [Function.update_of_ne (Finset.ne_of_mem_erase inside)]
  rw [← Finset.add_sum_erase threads _ member,
    ← Finset.add_sum_erase threads (fun other => weight (phases other)) member,
    others, Function.update_self]
  omega

end CloudComputing
