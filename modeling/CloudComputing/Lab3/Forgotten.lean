import CloudComputing.Lab3.ProcessSteps

/-!
# Participants that wait for a recovery

Whenever nobody has `_recoveryMutex`, no participant is left in `P_RECOVERY`,
and as long as some participant is in `P_TEMP` the loop in `Recovery` does not
wait for another one.
-/

namespace CloudComputing
namespace Lab3

open CloudComputing.Lab3.Parser Network

namespace Process

variable {p : Process}

/-- Nobody who has `_recoveryMutex` could be the cause of a participant that is
not counted. -/
theorem Ok.counted
    (ok : p.Ok)
    (free : p.recoveryMutex = none)
    {id : Nat}
    (inside : id ∈ p.threads.co.ids) :
    (p.threads.co.entry id).pstate ≠ .recovery ∧
      ((p.threads.co.entry id).pstate = .temp →
        1 ≤ p.threads.co.tmpNum) := by
  have nobody : ∀ holder, p.hasRecovery holder = false := by
    intro holder
    apply Bool.eq_false_of_not_eq_true
    intro own
    have isOwner := (ok.mutexes.recovery holder).mpr own
    rw [free] at isOwner
    cases isOwner
  have notRunning : p.recovery ≠ .running := by
    intro running
    have none : p.recovery.hasRecovery = false := nobody .recovery
    rw [running] at none
    cases none
  obtain ⟨notRecovery, counted⟩ := ok.states.pstate notRunning id inside
  refine ⟨notRecovery, fun temp => ?_⟩
  rcases counted temp with counted | isCounting
  · exact counted
  · have none : (p.keepAlive id).hasMutex = false := nobody (.keepAlive id)
    rw [isCounting] at none
    cases none

end Process

/-- In every reachable state in which `_recoveryMutex` is free nobody is in
`P_RECOVERY`, and `_tmpNum` counts whoever is in `P_TEMP`. -/
theorem recoveryMutex_free_counted
    {pnum : Nat}
    {p : Process}
    (reachable : Process.Reachable pnum p)
    (free : p.recoveryMutex = none) :
    (∀ id ∈ p.threads.co.ids, (p.threads.co.entry id).pstate ≠ .recovery) ∧
      ((∃ id ∈ p.threads.co.ids, (p.threads.co.entry id).pstate = .temp) →
        1 ≤ p.threads.co.tmpNum) := by
  have ok := reachable.ok
  constructor
  · intro id inside
    exact (ok.counted free inside).1
  · rintro ⟨id, inside, temp⟩
    exact (ok.counted free inside).2 temp

theorem recoveryMutex_free_counted_joined :
    ∃ p, Process.Reachable 1 p ∧ p.recoveryMutex = none ∧
      (p.threads.co.entry 1).pstate = .temp ∧ 1 ≤ p.threads.co.tmpNum := by
  obtain ⟨p, executed, seen⟩ := (Option.any_eq_true
    (fun p : Process => decide (1 ∈ p.threads.co.ids ∧
      p.recoveryMutex = none ∧ (p.threads.co.entry 1).pstate = .temp))
    ((List.replicate 6 (Move.keepAlive 1)).foldlM Process.step
      Process.single)).mp (by decide)
  rw [decide_eq_true_eq] at seen
  obtain ⟨inside, free, temp⟩ := seen
  have reachable : Process.Reachable 1 p :=
    ⟨_, Process.single_starts, _, Run.of_executed executed⟩
  exact ⟨p, reachable, free, temp,
    (recoveryMutex_free_counted reachable free).2 ⟨1, inside, temp⟩⟩

end Lab3
end CloudComputing
