import CloudComputing.Lab3.Addresses
import CloudComputing.Lab3.Balance
import CloudComputing.Lab3.Process
import CloudComputing.Lib.Mutex

/-!
# The invariant of the coordinator process

The two mutexes are with the threads that are between `get` and `release`.
Who has `_workingMutex` runs beside an execution with prompt workers, and so
comes to the end of each call.  A participant that has been connected is
counted by `_tmpNum` until the next recovery, which leaves every participant
working or waiting.
-/

namespace CloudComputing
namespace Lab3

open CloudComputing.Lab3.Parser Network

/-! ## Who has a mutex -/

/-- `_workThread` has `_workingMutex`. -/
def WorkingPc.hasMutex : WorkingPc → Bool
  | .locked _ => true
  | .running => true
  | .unlocking => true
  | _ => false

/-- `_recoveryThread` has `_workingMutex`. -/
def RecoveryPc.hasWorking : RecoveryPc → Bool
  | .locked _ => true
  | .running => true
  | .unlockingWorking => true
  | _ => false

/-- `_recoveryThread` has `_recoveryMutex`. -/
def RecoveryPc.hasRecovery : RecoveryPc → Bool
  | .lockingWorking _ => true
  | .locked _ => true
  | .running => true
  | .unlockingWorking => true
  | .unlockingRecovery => true
  | _ => false

/-- A thread in `keepAlive` has `_recoveryMutex`. -/
def KeepAlivePc.hasMutex : KeepAlivePc → Bool
  | .assigning => true
  | .counting => true
  | .releasing => true
  | _ => false

/-- The `minID` of a recovery that has begun and not run yet. -/
def RecoveryPc.minID : RecoveryPc → Option Nat
  | .clearing minID => some minID
  | .waiting minID => some minID
  | .waking minID => some minID
  | .lockingRecovery minID => some minID
  | .lockingWorking minID => some minID
  | .locked minID => some minID
  | _ => none

/-- The recovery has cleared the table and not run yet. -/
def RecoveryPc.cleared : RecoveryPc → Bool
  | .waiting _ => true
  | .waking _ => true
  | .lockingRecovery _ => true
  | .lockingWorking _ => true
  | .locked _ => true
  | _ => false

namespace Process

/-- Who is between `get` and `release` of `_workingMutex`. -/
def hasWorking (p : Process) : Holder → Bool
  | .work => p.working.hasMutex
  | .recovery => p.recovery.hasWorking
  | .keepAlive _ => false

/-- Who is between `get` and `release` of `_recoveryMutex`. -/
def hasRecovery (p : Process) : Holder → Bool
  | .work => false
  | .recovery => p.recovery.hasRecovery
  | .keepAlive id => (p.keepAlive id).hasMutex

/-- The two mutexes. -/
structure Mutexes (p : Process) : Prop where
  working : Mutex.Owned p.workingMutex p.hasWorking
  recovery : Mutex.Owned p.recoveryMutex p.hasRecovery

/-! ## What is executed -/

/-- Whose program runs, if any. -/
def mode (p : Process) : Mode :=
  match p.recovery with
  | .running => .recovery
  | _ => .work

/-- What holds at the end of the call. -/
def post (p : Process) : Sys → Prop :=
  match p.recovery with
  | .running => Sys.Recovered
  | _ => Sys.Rests

/-! ## Participants -/

/-- The states of participants, and what the threads know of them. -/
structure States (p : Process) : Prop where
  start : txidStart ≤ p.threads.co.txid
  begun : ∀ minID, p.recovery.minID = some minID →
    txidStart ≤ minID + 1 ∧ minID + 1 ≤ p.threads.co.txid
  table : p.recovery.cleared = true →
    ∀ id, (p.threads.co.entry id).maxTxid = none
  pstate : p.recovery ≠ .running → ∀ id ∈ p.threads.co.ids,
    (p.threads.co.entry id).pstate ≠ .recovery ∧
      ((p.threads.co.entry id).pstate = .temp →
        1 ≤ p.threads.co.tmpNum ∨ p.keepAlive id = .counting)
  member : ∀ id, p.keepAlive id ≠ .polling → id ∈ p.threads.co.ids
  waits : ∀ id, p.keepAlive id = .connecting ∨ p.keepAlive id = .locking ∨
      p.keepAlive id = .assigning →
    (p.threads.co.entry id).pstate = .waiting
  linked : ∀ id, p.keepAlive id = .locking ∨ p.keepAlive id = .assigning →
    (p.threads.line id).link = true ∧ (p.threads.line id).old = none

/-- The invariant. -/
structure Ok (p : Process) : Prop where
  threads : p.threads.Ok
  balanced : p.threads.Balanced
  among : p.threads.prog.Among p.threads.co.ids
  sim : p.threads.Sim p.mode p.post
  idle : p.working ≠ .running → p.recovery ≠ .running →
    p.threads.prog = .ret ()
  mutexes : p.Mutexes
  states : p.States

variable {p p' : Process} {t : Threads}

theorem mode_of_ne
    (other : p.recovery ≠ .running) :
    p.mode = .work ∧ p.post = Sys.Rests := by
  unfold mode post
  split
  · rename_i running
    exact absurd running other
  · exact ⟨rfl, rfl⟩

theorem mode_of_running
    (running : p.recovery = .running) :
    p.mode = .recovery ∧ p.post = Sys.Recovered := by
  simp only [mode, post, running, and_self]

theorem hasWorking_congr
    (working : p'.working.hasMutex = p.working.hasMutex)
    (recovery : p'.recovery.hasWorking = p.recovery.hasWorking) :
    p'.hasWorking = p.hasWorking := by
  funext holder
  cases holder with
  | work => exact working
  | recovery => exact recovery
  | keepAlive id => rfl

theorem hasRecovery_congr
    (recovery : p'.recovery.hasRecovery = p.recovery.hasRecovery)
    (keepAlive : ∀ id, (p'.keepAlive id).hasMutex = (p.keepAlive id).hasMutex) :
    p'.hasRecovery = p.hasRecovery := by
  funext holder
  cases holder with
  | work => rfl
  | recovery => exact recovery
  | keepAlive id => exact keepAlive id

/-- No thread has taken or released a mutex. -/
theorem Mutexes.frame
    (mutexes : p.Mutexes)
    (workingMutex : p'.workingMutex = p.workingMutex)
    (recoveryMutex : p'.recoveryMutex = p.recoveryMutex)
    (hasWorking : p'.hasWorking = p.hasWorking)
    (hasRecovery : p'.hasRecovery = p.hasRecovery) :
    p'.Mutexes where
  working := by
    rw [workingMutex, hasWorking]
    exact mutexes.working
  recovery := by
    rw [recoveryMutex, hasRecovery]
    exact mutexes.recovery

namespace Ok

/-- Two threads do not run programs at once. -/
theorem exclusive
    (ok : p.Ok)
    (working : p.working.hasMutex = true) :
    p.recovery.hasWorking = false := by
  by_contra both
  rw [Bool.not_eq_false] at both
  have work : p.hasWorking .work = true := working
  have recovery : p.hasWorking .recovery = true := both
  cases ok.mutexes.working.unique work recovery

/-- While a thread has `_recoveryMutex` in `keepAlive`, no recovery runs. -/
theorem exclusive_keepAlive
    (ok : p.Ok)
    {id : Nat}
    (keepAlive : (p.keepAlive id).hasMutex = true) :
    p.recovery.hasRecovery = false := by
  by_contra both
  rw [Bool.not_eq_false] at both
  have joins : p.hasRecovery (.keepAlive id) = true := keepAlive
  have recovery : p.hasRecovery .recovery = true := both
  cases ok.mutexes.recovery.unique joins recovery

end Ok

/-! ## Steps of the threads -/

/-- A step of the threads that keeps the states. -/
theorem States.kept
    (states : p.States)
    (kept : Kept p.mode p.threads t) :
    { p with threads := t }.States where
  start := states.start.trans kept.forward
  begun := by
    intro minID isMinID
    obtain ⟨lower, older⟩ := states.begun minID isMinID
    exact ⟨lower, older.trans kept.forward⟩
  table := by
    intro cleared id
    have other : p.recovery ≠ .running := by
      intro running
      have isCleared : p.recovery.cleared = true := cleared
      rw [running] at isCleared
      cases isCleared
    change (t.co.entry id).maxTxid = none
    rw [kept.maxTxid (mode_of_ne other).1 id]
    exact states.table cleared id
  pstate := by
    intro other id inside
    have inside' : id ∈ p.threads.co.ids := kept.ids ▸ inside
    obtain ⟨notRecovery, counted⟩ := states.pstate other id inside'
    have isWork := (mode_of_ne other).1
    change (t.co.entry id).pstate ≠ _ ∧ ((t.co.entry id).pstate = _ →
      1 ≤ t.co.tmpNum ∨ _)
    rw [kept.tmpNum isWork]
    rcases kept.pstate isWork id with same | waiting
    · rw [same]
      exact ⟨notRecovery, counted⟩
    · rw [waiting]
      exact ⟨PState.noConfusion, fun temp => PState.noConfusion temp⟩
  member := by
    intro id notPolling
    change id ∈ t.co.ids
    rw [kept.ids]
    exact states.member id notPolling
  waits := fun id pc => kept.waiting id (states.waits id pc)
  linked := by
    intro id pc
    have waiting := states.waits id (.inr pc)
    exact kept.linked id waiting (states.linked id pc)

/-- A step of the threads that leaves the program. -/
theorem Ok.of_kept
    (ok : p.Ok)
    (threads : t.Ok)
    (balanced : t.Balanced)
    (prog : t.prog.Among p.threads.co.ids)
    (sim : t.Sim p.mode p.post)
    (kept : Kept p.mode p.threads t)
    (idle : p.working ≠ .running → p.recovery ≠ .running → t.prog = .ret ()) :
    { p with threads := t }.Ok where
  threads := threads
  balanced := balanced
  among := by
    change t.prog.Among t.co.ids
    rw [kept.ids]
    exact prog
  sim := sim
  idle := idle
  mutexes := ok.mutexes.frame rfl rfl rfl rfl
  states := ok.states.kept kept

end Process
end Lab3
end CloudComputing
