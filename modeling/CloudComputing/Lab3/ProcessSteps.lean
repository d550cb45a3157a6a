import CloudComputing.Lab3.ProcessInvariants

/-!
# Steps of the coordinator process

Every step of every thread keeps the invariant, and so does whatever happens
outside the coordinator.
-/

namespace CloudComputing
namespace Lab3

open CloudComputing.Lab3.Parser Network

namespace Process

variable {p p' : Process}

/-! ## Workers, participants and the network -/

theorem Ok.worker
    (ok : p.Ok)
    {act : Act}
    (taken : p.step (.worker act) = some p') :
    p'.Ok := by
  simp only [Process.step] at taken
  split at taken
  · rename_i isWorker
    obtain ⟨t, stepped, isNext⟩ := Option.map_eq_some_iff.mp taken
    subst isNext
    obtain ⟨sim, kept⟩ := ok.sim.worker ok.threads isWorker stepped
    obtain ⟨balanced, prog⟩ := ok.balanced.worker ok.threads isWorker stepped
    refine ok.of_kept (ok.threads.step stepped) balanced ?_ sim kept ?_
    · rw [prog]
      exact ok.among
    · rw [prog]
      exact ok.idle
  · cases taken

theorem Ok.outside
    (ok : p.Ok)
    {act : Act}
    (taken : p.step (.outside act) = some p') :
    p'.Ok := by
  simp only [Process.step] at taken
  split at taken
  · rename_i isOutside
    obtain ⟨t, stepped, isNext⟩ := Option.map_eq_some_iff.mp taken
    subst isNext
    obtain ⟨sim, kept⟩ := ok.sim.outside ok.threads isOutside stepped
    obtain ⟨balanced, prog⟩ := ok.balanced.outside isOutside stepped
    refine ok.of_kept (ok.threads.step stepped) balanced ?_ sim kept ?_
    · rw [prog]
      exact ok.among
    · rw [prog]
      exact ok.idle
  · cases taken

/-! ## Programs -/

/-- A thread goes on in the function that it has called, or returns. -/
theorem Ok.run
    (ok : p.Ok)
    (running : p.working = .running ∨ p.recovery = .running)
    {return' : Process → Process}
    (returns : p.threads.prog = .ret () → (return' p).Ok)
    (taken : p.run return' = some p') :
    p'.Ok := by
  unfold Process.run at taken
  split at taken
  · rename_i isRet
    cases taken
    exact returns isRet
  · obtain ⟨t, stepped, isNext⟩ := Option.map_eq_some_iff.mp taken
    subst isNext
    refine ok.of_kept (ok.threads.coordinate stepped)
      (ok.balanced.coordinate ok.threads stepped)
      (Threads.among_coordinate ok.among stepped)
      (ok.sim.coordinate ok.threads stepped)
      (ok.sim.kept_coordinate stepped) fun notWorking notRecovery => ?_
    rcases running with isRunning | isRunning
    · exact absurd isRunning notWorking
    · exact absurd isRunning notRecovery

/-- Outside a recovery the process is at rest when no function runs. -/
theorem Ok.still
    (ok : p.Ok)
    (other : p.recovery ≠ .running)
    (isRet : p.threads.prog = .ret ()) :
    p.threads.Still := by
  have sim := ok.sim
  rw [(mode_of_ne other).2] at sim
  exact sim.still ok.threads isRet

/-- The thread that has `_workingMutex` calls a function. -/
theorem Ok.threads_call
    (ok : p.Ok)
    (isRet : p.threads.prog = .ret ())
    (call : Call) :
    (p.call call).threads.Ok ∧ (p.call call).threads.Balanced := by
  constructor
  · have stepped : p.threads.step (.call call) =
        some (p.call call).threads := by
      simp only [Threads.step, isRet]
      rfl
    exact ok.threads.step stepped
  · refine ok.balanced.call (ok.threads.not_half ?_) _
    intro op port next isLock
    rw [isRet] at isLock
    cases isLock

/-! ## `Working` -/

/-- `_workThread` goes on, and perhaps takes or releases its mutex. -/
theorem Ok.setWorking
    (ok : p.Ok)
    {mutex : Option Holder}
    {pc : WorkingPc}
    (mutexes : { p with workingMutex := mutex, working := pc }.Mutexes)
    (idle : p.recovery ≠ .running → p.threads.prog = .ret ()) :
    { p with workingMutex := mutex, working := pc }.Ok where
  threads := ok.threads
  balanced := ok.balanced
  among := ok.among
  sim := ok.sim
  idle := fun _ => idle
  mutexes := mutexes
  states := ⟨ok.states.start, ok.states.begun, ok.states.table,
    ok.states.pstate, ok.states.member, ok.states.waits, ok.states.linked⟩

theorem Mutexes.setWorking
    (mutexes : p.Mutexes)
    {pc : WorkingPc}
    (mutex : pc.hasMutex = p.working.hasMutex) :
    { p with working := pc }.Mutexes :=
  mutexes.frame rfl rfl (hasWorking_congr mutex rfl) rfl

/-- `_workThread` takes or releases `_workingMutex`. -/
theorem Mutexes.working_of_update
    (mutexes : p.Mutexes)
    {mutex : Option Holder}
    {pc : WorkingPc}
    (owned : Mutex.Owned mutex
      (Function.update p.hasWorking .work pc.hasMutex)) :
    { p with workingMutex := mutex, working := pc }.Mutexes := by
  have same : Function.update p.hasWorking .work pc.hasMutex =
      hasWorking { p with workingMutex := mutex, working := pc } := by
    funext holder
    cases holder <;> rfl
  rw [same] at owned
  exact ⟨owned, mutexes.recovery⟩

theorem Ok.working_calls
    (ok : p.Ok)
    {task : List Bytes}
    (isLocked : p.working = .locked task)
    {call : Call}
    (called : isUpdate task = true ∧ call = .update (getRESPArry task) ∨
      isUpdate task = false ∧ isRequest task = true ∧
        call = .request (getRESPArry task)) :
    { p.call call with working := .running }.Ok := by
  have alone := ok.exclusive (by rw [isLocked]; rfl)
  have notRunning : p.recovery ≠ .running := by
    intro running
    rw [running] at alone
    cases alone
  have isRet := ok.idle (by rw [isLocked]; exact WorkingPc.noConfusion)
    notRunning
  have called' := (ok.still notRunning isRet).dispatch ok.threads isRet called
  obtain ⟨threads, balanced⟩ := ok.threads_call isRet call
  obtain ⟨isMode, isPost⟩ := mode_of_ne notRunning
  refine ⟨threads, balanced, among_call _ call, ?_, fun notWorking => ?_, ?_,
    ⟨ok.states.start, ok.states.begun, ok.states.table, ok.states.pstate,
      ok.states.member, ok.states.waits, ok.states.linked⟩⟩
  · change Threads.Sim p.mode p.post { p.threads with prog := call.prog }
    rw [isMode, isPost]
    exact called'
  · exact absurd rfl notWorking
  · refine ok.mutexes.frame rfl rfl (hasWorking_congr ?_ rfl) rfl
    rw [isLocked]
    rfl

/-- A step of `_workThread`. -/
theorem Ok.stepWorking
    (ok : p.Ok)
    (taken : p.stepWorking = some p') :
    p'.Ok := by
  have mutexes := ok.mutexes
  unfold Process.stepWorking at taken
  split at taken
  · cases taken
  · rename_i task isReceived
    have idle := ok.idle (by rw [isReceived]; exact WorkingPc.noConfusion)
    split at taken
    · cases taken
      exact ok.setWorking (mutexes.setWorking (by rw [isReceived]; rfl)) idle
    · cases taken
      exact ok.setWorking (mutexes.setWorking (by rw [isReceived]; rfl)) idle
  · rename_i task isLocking
    split at taken
    · rename_i free
      cases taken
      exact ok.setWorking
        (mutexes.working_of_update (mutexes.working.take free .work))
        (ok.idle (by rw [isLocking]; exact WorkingPc.noConfusion))
    · cases taken
  · rename_i task isLocked
    split at taken
    · rename_i update
      cases taken
      exact ok.working_calls isLocked (.inl ⟨update, rfl⟩)
    · rename_i notUpdate
      rw [Bool.not_eq_true] at notUpdate
      split at taken
      · rename_i isRead
        cases taken
        exact ok.working_calls isLocked (.inr ⟨notUpdate, isRead, rfl⟩)
      · cases taken
        exact ok.setWorking (mutexes.setWorking (by rw [isLocked]; rfl))
          (ok.idle (by rw [isLocked]; exact WorkingPc.noConfusion))
  · rename_i isRunning
    refine ok.run (.inl isRunning) (fun isRet => ?_) taken
    exact ok.setWorking (mutexes.setWorking (by rw [isRunning]; rfl))
      fun _ => isRet
  · rename_i isUnlocking
    cases taken
    have own : p.hasWorking .work = true := by
      change p.working.hasMutex = true
      rw [isUnlocking]
      rfl
    exact ok.setWorking
      (mutexes.working_of_update (mutexes.working.release own))
      (ok.idle (by rw [isUnlocking]; exact WorkingPc.noConfusion))
  · rename_i isReplying
    cases taken
    exact ok.setWorking (mutexes.setWorking (by rw [isReplying]; rfl))
      (ok.idle (by rw [isReplying]; exact WorkingPc.noConfusion))

/-! ## `Recovery` -/

/-- Between two steps outside the recovery itself. -/
theorem sim_of_ne
    (ok : p.Ok)
    (before : p.recovery ≠ .running)
    (after : p'.recovery ≠ .running)
    (sim : p.threads.Sim .work Sys.Rests → p'.threads.Sim .work Sys.Rests) :
    p'.threads.Sim p'.mode p'.post := by
  have isSim := ok.sim
  rw [(mode_of_ne before).1, (mode_of_ne before).2] at isSim
  rw [(mode_of_ne after).1, (mode_of_ne after).2]
  exact sim isSim

/-- `_recoveryThread` goes on without running a program, and perhaps takes or
releases mutexes. -/
theorem Ok.setRecovery
    (ok : p.Ok)
    {workingMutex recoveryMutex : Option Holder}
    {pc : RecoveryPc}
    (before : p.recovery ≠ .running)
    (after : pc ≠ .running)
    (mutexes : { p with
      workingMutex := workingMutex
      recoveryMutex := recoveryMutex
      recovery := pc }.Mutexes)
    (begun : ∀ minID, pc.minID = some minID →
      txidStart ≤ minID + 1 ∧ minID + 1 ≤ p.threads.co.txid)
    (table : pc.cleared = true →
      ∀ id, (p.threads.co.entry id).maxTxid = none) :
    { p with
      workingMutex := workingMutex
      recoveryMutex := recoveryMutex
      recovery := pc }.Ok where
  threads := ok.threads
  balanced := ok.balanced
  among := ok.among
  sim := sim_of_ne ok before after fun sim => sim
  idle := fun notWorking _ => ok.idle notWorking before
  mutexes := mutexes
  states := ⟨ok.states.start, begun, table,
    fun _ => ok.states.pstate before, ok.states.member, ok.states.waits,
    ok.states.linked⟩

theorem Mutexes.setRecovery
    (mutexes : p.Mutexes)
    {pc : RecoveryPc}
    (working : pc.hasWorking = p.recovery.hasWorking)
    (recovery : pc.hasRecovery = p.recovery.hasRecovery) :
    { p with recovery := pc }.Mutexes :=
  mutexes.frame rfl rfl (hasWorking_congr rfl working)
    (hasRecovery_congr recovery fun _ => rfl)

/-- `_recoveryThread` takes or releases `_recoveryMutex`. -/
theorem Mutexes.recovery_of_update
    (mutexes : p.Mutexes)
    {mutex : Option Holder}
    {pc : RecoveryPc}
    (owned : Mutex.Owned mutex
      (Function.update p.hasRecovery .recovery pc.hasRecovery))
    (working : pc.hasWorking = p.recovery.hasWorking) :
    { p with recoveryMutex := mutex, recovery := pc }.Mutexes := by
  have same : Function.update p.hasRecovery .recovery pc.hasRecovery =
      hasRecovery { p with recoveryMutex := mutex, recovery := pc } := by
    funext holder
    cases holder <;> rfl
  rw [same] at owned
  have kept : hasWorking { p with recoveryMutex := mutex, recovery := pc } =
      p.hasWorking := hasWorking_congr rfl working
  refine ⟨?_, owned⟩
  rw [kept]
  exact mutexes.working

/-- `_recoveryThread` takes or releases `_workingMutex`. -/
theorem Mutexes.recovery_of_update_working
    (mutexes : p.Mutexes)
    {mutex : Option Holder}
    {pc : RecoveryPc}
    (owned : Mutex.Owned mutex
      (Function.update p.hasWorking .recovery pc.hasWorking))
    (recovery : pc.hasRecovery = p.recovery.hasRecovery) :
    { p with workingMutex := mutex, recovery := pc }.Mutexes := by
  have same : Function.update p.hasWorking .recovery pc.hasWorking =
      hasWorking { p with workingMutex := mutex, recovery := pc } := by
    funext holder
    cases holder <;> rfl
  rw [same] at owned
  have kept : hasRecovery { p with workingMutex := mutex, recovery := pc } =
      p.hasRecovery := hasRecovery_congr recovery fun _ => rfl
  refine ⟨owned, ?_⟩
  rw [kept]
  exact mutexes.recovery

/-- Outside a recovery a thread assigns to variables that no program uses. -/
theorem Ok.assign
    (ok : p.Ok)
    (other : p.recovery ≠ .running)
    (change : Coordinator → Coordinator)
    (txid : (change p.threads.co).txid = p.threads.co.txid)
    (lg : (change p.threads.co).lg = p.threads.co.lg)
    (pnum : (change p.threads.co).pnum = p.threads.co.pnum)
    (slots : ∀ id, ((change p.threads.co).entry id).slots =
      (p.threads.co.entry id).slots)
    (pstate : ∀ id, ((change p.threads.co).entry id).pstate =
      (p.threads.co.entry id).pstate)
    (states : (p.assign change).States) :
    (p.assign change).Ok where
  threads := ok.threads.assign slots
  balanced := ok.balanced
  among := by
    have among := ok.among
    rw [Coordinator.ids] at among
    change p.threads.prog.Among (change p.threads.co).ids
    rw [Coordinator.ids, pnum]
    exact among
  sim := sim_of_ne ok other other
    fun sim => sim.assign txid lg pnum slots pstate
  idle := ok.idle
  mutexes := ok.mutexes.frame rfl rfl rfl rfl
  states := states

theorem Ok.recovery_clears
    (ok : p.Ok)
    {minID : Nat}
    (isClearing : p.recovery = .clearing minID) :
    { p.assign fun co =>
        { co with entry := fun id => { co.entry id with maxTxid := none } } with
      recovery := .waiting minID }.Ok := by
  have other : p.recovery ≠ .running := by
    rw [isClearing]
    exact RecoveryPc.noConfusion
  have states := ok.states
  have cleared := ok.assign other
    (fun co =>
      { co with entry := fun id => { co.entry id with maxTxid := none } })
    rfl rfl rfl (fun _ => rfl) (fun _ => rfl)
    ⟨states.start, states.begun, fun _ _ => rfl, states.pstate, states.member,
      states.waits, states.linked⟩
  refine cleared.setRecovery other RecoveryPc.noConfusion
    (cleared.mutexes.setRecovery ?_ ?_) ?_ fun _ _ => rfl
  · change _ = p.recovery.hasWorking
    rw [isClearing]
    rfl
  · change _ = p.recovery.hasRecovery
    rw [isClearing]
    rfl
  · intro minID' isMinID
    exact states.begun minID' (by rw [isClearing]; exact isMinID)

/-- `_recoveryThread` assigns to `_cstate`. -/
theorem Ok.recovery_sets
    (ok : p.Ok)
    (cstate : CState)
    {pc : RecoveryPc}
    (before : p.recovery ≠ .running)
    (after : pc ≠ .running)
    (working : pc.hasWorking = p.recovery.hasWorking)
    (recovery : pc.hasRecovery = p.recovery.hasRecovery)
    (begun : ∀ minID, pc.minID = some minID →
      p.recovery.minID = some minID)
    (cleared : pc.cleared = true → p.recovery.cleared = true) :
    { p.assign fun co => { co with cstate := cstate } with
      recovery := pc }.Ok := by
  have states := ok.states
  have assigned := ok.assign before
    (fun co => { co with cstate := cstate })
    rfl rfl rfl (fun _ => rfl) (fun _ => rfl)
    ⟨states.start, states.begun, states.table, states.pstate, states.member,
      states.waits, states.linked⟩
  exact assigned.setRecovery before after
    (assigned.mutexes.setRecovery working recovery)
    (fun minID isMinID => states.begun minID (begun minID isMinID))
    fun isCleared => states.table (cleared isCleared)

/-- The recovery begins to run. -/
theorem Ok.recovery_calls
    (ok : p.Ok)
    {minID : Nat}
    (isLocked : p.recovery = .locked minID) :
    { p.call (.recovery minID) with recovery := .running }.Ok := by
  have other : p.recovery ≠ .running := by
    rw [isLocked]
    exact RecoveryPc.noConfusion
  have alone : p.working ≠ .running := by
    intro running
    have none := ok.exclusive (by rw [running]; rfl)
    rw [isLocked] at none
    cases none
  have states := ok.states
  have isRet := ok.idle alone other
  obtain ⟨lower, older⟩ := states.begun minID (by rw [isLocked]; rfl)
  have called := (ok.still other isRet).recovery ok.threads isRet lower older
    (states.table (by rw [isLocked]; rfl))
  obtain ⟨threads, balanced⟩ := ok.threads_call isRet (.recovery minID)
  refine ⟨threads, balanced, among_call _ (.recovery minID), called,
    fun _ notRecovery => absurd rfl notRecovery,
    ok.mutexes.frame rfl rfl (hasWorking_congr rfl ?_)
      (hasRecovery_congr ?_ fun _ => rfl),
    ⟨states.start, ?_, ?_, fun notRecovery => absurd rfl notRecovery,
      states.member, states.waits, states.linked⟩⟩
  · rw [isLocked]
    rfl
  · rw [isLocked]
    rfl
  · intro minID' isMinID
    cases isMinID
  · intro isCleared
    cases isCleared

/-- The recovery has run: everybody works or waits. -/
theorem Ok.recovery_returns
    (ok : p.Ok)
    (isRunning : p.recovery = .running)
    (isRet : p.threads.prog = .ret ()) :
    { p with recovery := .unlockingWorking }.Ok := by
  have sim := ok.sim
  obtain ⟨isMode, isPost⟩ := mode_of_running isRunning
  rw [isMode, isPost] at sim
  obtain ⟨still, recovered⟩ := sim.recovered ok.threads isRet
  have states := ok.states
  refine ⟨ok.threads, ok.balanced, ok.among, still.sim ok.threads isRet,
    fun _ _ => isRet, ok.mutexes.setRecovery ?_ ?_,
    ⟨states.start, ?_, ?_, fun _ id inside => ?_, states.member, states.waits,
      states.linked⟩⟩
  · rw [isRunning]
    rfl
  · rw [isRunning]
    rfl
  · intro minID isMinID
    cases isMinID
  · intro isCleared
    cases isCleared
  · change (p.threads.co.entry id).pstate ≠ _ ∧
      ((p.threads.co.entry id).pstate = _ → _)
    rcases recovered id inside with same | same
    · rw [same]
      exact ⟨PState.noConfusion, fun temp => PState.noConfusion temp⟩
    · rw [same]
      exact ⟨PState.noConfusion, fun temp => PState.noConfusion temp⟩

/-- `_recoveryThread` reads `_TXID`. -/
theorem Ok.recovery_enters
    (ok : p.Ok)
    (isEntering : p.recovery = .entering) :
    { p with recovery := .clearing (p.threads.co.txid - 1) }.Ok := by
  have start := ok.states.start
  refine ok.setRecovery ?_ RecoveryPc.noConfusion
    (ok.mutexes.setRecovery ?_ ?_) ?_ fun isCleared => Bool.noConfusion isCleared
  · rw [isEntering]
    exact RecoveryPc.noConfusion
  · rw [isEntering]
    rfl
  · rw [isEntering]
    rfl
  · intro minID isMinID
    cases isMinID
    simp only [txidStart] at start ⊢
    omega

/-- `_recoveryThread` goes on with the number that it has read, and the same
mutexes. -/
theorem Ok.recovery_goesOn
    (ok : p.Ok)
    {pc : RecoveryPc}
    (before : p.recovery ≠ .running)
    (after : pc ≠ .running)
    (working : pc.hasWorking = p.recovery.hasWorking)
    (recovery : pc.hasRecovery = p.recovery.hasRecovery)
    (begun : pc.minID = p.recovery.minID)
    (cleared : p.recovery.cleared = true) :
    { p with recovery := pc }.Ok :=
  ok.setRecovery before after (ok.mutexes.setRecovery working recovery)
    (fun minID isMinID => ok.states.begun minID (begun ▸ isMinID))
    fun _ => ok.states.table cleared

/-- `_recoveryThread` locks `_recoveryMutex`. -/
theorem Ok.recovery_locks
    (ok : p.Ok)
    {minID : Nat}
    (isLocking : p.recovery = .lockingRecovery minID)
    (free : p.recoveryMutex = none) :
    { p with
      recoveryMutex := some .recovery
      recovery := .lockingWorking minID }.Ok := by
  have states := ok.states
  have mutexes := ok.mutexes
  refine ok.setRecovery ?_ RecoveryPc.noConfusion
    (mutexes.recovery_of_update (mutexes.recovery.take free .recovery) ?_) ?_ ?_
  · rw [isLocking]
    exact RecoveryPc.noConfusion
  · rw [isLocking]
    rfl
  · exact fun minID' isMinID =>
      states.begun minID' (by rw [isLocking]; exact isMinID)
  · exact fun _ => states.table (by rw [isLocking]; rfl)

/-- `_recoveryThread` locks `_workingMutex`. -/
theorem Ok.recovery_locksWorking
    (ok : p.Ok)
    {minID : Nat}
    (isLocking : p.recovery = .lockingWorking minID)
    (free : p.workingMutex = none) :
    { p with workingMutex := some .recovery, recovery := .locked minID }.Ok := by
  have states := ok.states
  have mutexes := ok.mutexes
  refine ok.setRecovery ?_ RecoveryPc.noConfusion
    (mutexes.recovery_of_update_working
      (mutexes.working.take free .recovery) ?_) ?_ ?_
  · rw [isLocking]
    exact RecoveryPc.noConfusion
  · rw [isLocking]
    rfl
  · exact fun minID' isMinID =>
      states.begun minID' (by rw [isLocking]; exact isMinID)
  · exact fun _ => states.table (by rw [isLocking]; rfl)

/-- `_recoveryThread` unlocks `_workingMutex`. -/
theorem Ok.recovery_unlocksWorking
    (ok : p.Ok)
    (isUnlocking : p.recovery = .unlockingWorking) :
    { p with workingMutex := none, recovery := .unlockingRecovery }.Ok := by
  have mutexes := ok.mutexes
  have own : p.hasWorking .recovery = true := by
    change p.recovery.hasWorking = true
    rw [isUnlocking]
    rfl
  refine ok.setRecovery ?_ RecoveryPc.noConfusion
    (mutexes.recovery_of_update_working (mutexes.working.release own) ?_)
    (fun _ isMinID => by cases isMinID)
    fun isCleared => Bool.noConfusion isCleared
  · rw [isUnlocking]
    exact RecoveryPc.noConfusion
  · rw [isUnlocking]
    rfl

/-- `_recoveryThread` unlocks `_recoveryMutex`. -/
theorem Ok.recovery_unlocks
    (ok : p.Ok)
    (isUnlocking : p.recovery = .unlockingRecovery) :
    { p with recoveryMutex := none, recovery := .leaving }.Ok := by
  have mutexes := ok.mutexes
  have own : p.hasRecovery .recovery = true := by
    change p.recovery.hasRecovery = true
    rw [isUnlocking]
    rfl
  refine ok.setRecovery ?_ RecoveryPc.noConfusion
    (mutexes.recovery_of_update (mutexes.recovery.release own) ?_)
    (fun _ isMinID => by cases isMinID)
    fun isCleared => Bool.noConfusion isCleared
  · rw [isUnlocking]
    exact RecoveryPc.noConfusion
  · rw [isUnlocking]
    rfl

/-- A step of `_recoveryThread`. -/
theorem Ok.stepRecovery
    (ok : p.Ok)
    (taken : p.stepRecovery = some p') :
    p'.Ok := by
  have other : ∀ {pc}, p.recovery = pc → pc ≠ .running →
      p.recovery ≠ .running := by
    rintro _ rfl notRunning
    exact notRunning
  unfold Process.stepRecovery at taken
  split at taken
  · rename_i isEntering
    cases taken
    exact ok.recovery_enters isEntering
  · rename_i minID isClearing
    cases taken
    exact ok.recovery_clears isClearing
  · rename_i minID isWaiting
    split at taken
    · cases taken
      exact ok
    · cases taken
      apply ok.recovery_goesOn (other isWaiting RecoveryPc.noConfusion)
        RecoveryPc.noConfusion
      all_goals
        rw [isWaiting]
        rfl
  · rename_i minID isWaking
    cases taken
    refine ok.recovery_sets .recovery (other isWaking RecoveryPc.noConfusion)
      RecoveryPc.noConfusion ?_ ?_ ?_ ?_
    · rw [isWaking]
      rfl
    · rw [isWaking]
      rfl
    · rw [isWaking]
      exact fun _ isMinID => isMinID
    · rw [isWaking]
      exact fun _ => rfl
  · rename_i minID isLocking
    split at taken
    · rename_i free
      cases taken
      exact ok.recovery_locks isLocking free
    · cases taken
  · rename_i minID isLocking
    split at taken
    · rename_i free
      cases taken
      exact ok.recovery_locksWorking isLocking free
    · cases taken
  · rename_i minID isLocked
    cases taken
    exact ok.recovery_calls isLocked
  · rename_i isRunning
    exact ok.run (.inr isRunning)
      (fun isRet => ok.recovery_returns isRunning isRet) taken
  · rename_i isUnlocking
    cases taken
    exact ok.recovery_unlocksWorking isUnlocking
  · rename_i isUnlocking
    cases taken
    exact ok.recovery_unlocks isUnlocking
  · rename_i isLeaving
    cases taken
    refine ok.recovery_sets .working (other isLeaving RecoveryPc.noConfusion)
      RecoveryPc.noConfusion ?_ ?_ ?_ ?_
    · rw [isLeaving]
      rfl
    · rw [isLeaving]
      rfl
    · intro minID isMinID
      cases isMinID
    · exact fun isCleared => Bool.noConfusion isCleared

/-! ## `keepAlive` -/

/-- What a thread knows at its place in `keepAlive`. -/
structure Placed (p : Process) (id : Nat) (pc : KeepAlivePc) : Prop where
  waits : pc = .connecting ∨ pc = .locking ∨ pc = .assigning →
    (p.threads.co.entry id).pstate = .waiting
  linked : pc = .locking ∨ pc = .assigning →
    (p.threads.line id).link = true ∧ (p.threads.line id).old = none
  counted : p.recovery ≠ .running →
    (p.threads.co.entry id).pstate = .temp →
    1 ≤ p.threads.co.tmpNum ∨ pc = .counting

theorem States.setKeepAlive
    (states : p.States)
    {id : Nat}
    (inside : id ∈ p.threads.co.ids)
    {pc : KeepAlivePc}
    (placed : p.Placed id pc)
    (mutex : Option Holder) :
    ({ p with recoveryMutex := mutex }.setKeepAlive id pc).States := by
  have own : ∀ other, Function.update p.keepAlive id pc other =
      if other = id then pc else p.keepAlive other :=
    fun other => Function.update_apply ..
  refine ⟨states.start, states.begun, states.table, fun notRunning other
    member => ?_, fun other => ?_, fun other => ?_, fun other => ?_⟩
  · obtain ⟨notRecovery, counted⟩ := states.pstate notRunning other member
    refine ⟨notRecovery, fun temp => ?_⟩
    change 1 ≤ p.threads.co.tmpNum ∨
      Function.update p.keepAlive id pc other = .counting
    rw [own]
    split
    · rename_i same
      subst same
      exact placed.counted notRunning temp
    · exact counted temp
  · change Function.update p.keepAlive id pc other ≠ .polling →
      other ∈ p.threads.co.ids
    rw [own]
    split
    · rename_i same
      exact fun _ => same ▸ inside
    · exact states.member other
  · change Function.update p.keepAlive id pc other = _ ∨
      Function.update p.keepAlive id pc other = _ ∨
      Function.update p.keepAlive id pc other = _ → _
    rw [own]
    split
    · rename_i same
      subst same
      exact placed.waits
    · exact states.waits other
  · change Function.update p.keepAlive id pc other = _ ∨
      Function.update p.keepAlive id pc other = _ → _
    rw [own]
    split
    · rename_i same
      subst same
      exact placed.linked
    · exact states.linked other

/-- A thread goes on in `keepAlive`, and perhaps takes or releases its
mutex. -/
theorem Ok.setKeepAlive
    (ok : p.Ok)
    {id : Nat}
    (inside : id ∈ p.threads.co.ids)
    {pc : KeepAlivePc}
    (placed : p.Placed id pc)
    {mutex : Option Holder}
    (owned : Mutex.Owned mutex
      (Function.update p.hasRecovery (.keepAlive id) pc.hasMutex)) :
    ({ p with recoveryMutex := mutex }.setKeepAlive id pc).Ok := by
  refine ⟨ok.threads, ok.balanced, ok.among, ok.sim, ok.idle,
    ⟨ok.mutexes.working, ?_⟩, ok.states.setKeepAlive inside placed mutex⟩
  have same : Function.update p.hasRecovery (.keepAlive id) pc.hasMutex =
      hasRecovery
        ({ p with recoveryMutex := mutex }.setKeepAlive id pc) := by
    funext holder
    cases holder with
    | work => rfl
    | recovery => rfl
    | keepAlive other =>
        change _ = (Function.update p.keepAlive id pc other).hasMutex
        by_cases own : other = id
        · subst own
          rw [Function.update_self, Function.update_self]
        · rw [Function.update_of_ne own, Function.update_of_ne]
          · rfl
          · intro both
            cases both
            exact own rfl
  rw [same] at owned
  exact owned

/-- The mutex stays where it is. -/
theorem Mutexes.keepAlive
    (mutexes : p.Mutexes)
    {id : Nat}
    {pc : KeepAlivePc}
    (mutex : pc.hasMutex = (p.keepAlive id).hasMutex) :
    Mutex.Owned p.recoveryMutex
      (Function.update p.hasRecovery (.keepAlive id) pc.hasMutex) := by
  have same : Function.update p.hasRecovery (.keepAlive id) pc.hasMutex =
      p.hasRecovery := by
    rw [mutex]
    exact Function.update_eq_self (.keepAlive id) p.hasRecovery
  rw [same]
  exact mutexes.recovery

/-- A thread has connected to its participant. -/
theorem Ok.keepAlive_connects
    (ok : p.Ok)
    {id : Nat}
    (isConnecting : p.keepAlive id = .connecting)
    {t : Threads}
    (connected : p.threads.onLine id Line.reconnect = some t) :
    ({ p with threads := t }.setKeepAlive id .locking).Ok := by
  have states := ok.states
  have inside := states.member id (by rw [isConnecting]; exact KeepAlivePc.noConfusion)
  have waiting := states.waits id (.inl isConnecting)
  have reconnects : ∀ line, (p.threads.line id).reconnect = some line →
      line.link = true ∧ line.old = none := by
    intro line isLine
    unfold Line.reconnect at isLine
    split at isLine
    · rename_i free
      cases isLine
      exact ⟨rfl, free.2⟩
    · cases isLine
  have same : t.prog = p.threads.prog ∧ (t.line id).link = true ∧
      (t.line id).old = none := by
    obtain ⟨line, isLine, rfl⟩ := Threads.onLine_eq connected
    simp only [Function.update_self]
    exact ⟨trivial, reconnects line isLine⟩
  have kept : Kept p.mode p.threads t :=
    Threads.kept_onLine p.mode (fun line isLine _ => reconnects line isLine)
      connected
  have done : { p with threads := t }.Ok := by
    refine ok.of_kept
      (ok.threads.onLine (fun _ isLine => .reconnect isLine) connected)
      (ok.balanced.onLine connected) ?_ (ok.sim.connect waiting connected)
      kept ?_
    · rw [same.1]
      exact ok.among
    · rw [same.1]
      exact ok.idle
  refine done.setKeepAlive (kept.ids ▸ inside) ⟨?_, ?_, ?_⟩
    (done.mutexes.keepAlive ?_)
  · exact fun _ => kept.waiting id waiting
  · exact fun _ => same.2
  · intro _ temp
    rw [kept.waiting id waiting] at temp
    cases temp
  · change _ = (p.keepAlive id).hasMutex
    rw [isConnecting]
    rfl

/-- A thread changes the state of its participant, that it counts next. -/
theorem Ok.joins
    (ok : p.Ok)
    {id : Nat}
    (isCounting : p.keepAlive id = .counting)
    (waiting : (p.threads.co.entry id).pstate = .waiting)
    (linked : (p.threads.line id).link = true)
    (old : (p.threads.line id).old = none) :
    (p.assign fun co =>
      co.setEntry id { co.entry id with pstate := .temp }).Ok := by
  have states := ok.states
  have other : p.recovery ≠ .running := by
    intro running
    have hasMutex : (p.keepAlive id).hasMutex = true := by
      rw [isCounting]
      rfl
    have none := ok.exclusive_keepAlive hasMutex
    rw [running] at none
    cases none
  have entry : ∀ other, other ≠ id →
      (p.threads.co.setEntry id
        { p.threads.co.entry id with pstate := .temp }).entry other =
          p.threads.co.entry other := by
    intro other different
    rw [Coordinator.setEntry_entry, if_neg different]
  have own : (p.threads.co.setEntry id
      { p.threads.co.entry id with pstate := .temp }).entry id =
        { p.threads.co.entry id with pstate := .temp } := by
    rw [Coordinator.setEntry_entry, if_pos rfl]
  refine ⟨ok.threads.assign (p.threads.co.setEntry_slots rfl), ok.balanced,
    ok.among, sim_of_ne ok other other fun sim => sim.join waiting linked old,
    ok.idle, ok.mutexes.frame rfl rfl rfl rfl,
    ⟨states.start, states.begun, fun cleared some => ?_,
      fun notRunning some member => ?_, states.member, fun some pc => ?_,
      states.linked⟩⟩
  · change ((p.threads.co.setEntry id _).entry some).maxTxid = none
    by_cases same : some = id
    · subst same
      rw [own]
      exact states.table cleared some
    · rw [entry some same]
      exact states.table cleared some
  · change ((p.threads.co.setEntry id _).entry some).pstate ≠ _ ∧
      (((p.threads.co.setEntry id _).entry some).pstate = _ → _)
    by_cases same : some = id
    · subst same
      rw [own]
      exact ⟨PState.noConfusion, fun _ => .inr isCounting⟩
    · rw [entry some same]
      exact states.pstate notRunning some member
  · change ((p.threads.co.setEntry id _).entry some).pstate = _
    have different : some ≠ id := by
      rintro rfl
      change p.keepAlive some = _ ∨ p.keepAlive some = _ ∨
        p.keepAlive some = _ at pc
      rw [isCounting] at pc
      rcases pc with pc | pc | pc <;> cases pc
    rw [entry some different]
    exact states.waits some pc

theorem Ok.keepAlive_assigns
    (ok : p.Ok)
    {id : Nat}
    (isAssigning : p.keepAlive id = .assigning) :
    ((p.assign fun co => co.setEntry id
        { co.entry id with pstate := .temp }).setKeepAlive id .counting).Ok := by
  have states := ok.states
  have inside := states.member id (by
    rw [isAssigning]
    exact KeepAlivePc.noConfusion)
  have waiting := states.waits id (.inr (.inr isAssigning))
  obtain ⟨linked, old⟩ := states.linked id (.inr isAssigning)
  have counting : (p.setKeepAlive id .counting).Ok := by
    refine ok.setKeepAlive inside ⟨fun pc => ?_, fun pc => ?_, fun _ _ => ?_⟩
      (ok.mutexes.keepAlive ?_)
    · rcases pc with pc | pc | pc <;> cases pc
    · rcases pc with pc | pc <;> cases pc
    · exact .inr rfl
    · rw [isAssigning]
      rfl
  exact counting.joins (Function.update_self ..) waiting linked old

/-- A thread counts its participant. -/
theorem Ok.keepAlive_counts
    (ok : p.Ok)
    {id : Nat}
    (isCounting : p.keepAlive id = .counting) :
    ((p.assign fun co => { co with tmpNum := co.tmpNum + 1 }).setKeepAlive id
      .releasing).Ok := by
  have states := ok.states
  have hasMutex : (p.keepAlive id).hasMutex = true := by
    rw [isCounting]
    rfl
  have inside := states.member id (by
    rw [isCounting]
    exact KeepAlivePc.noConfusion)
  have other : p.recovery ≠ .running := by
    intro running
    have none := ok.exclusive_keepAlive hasMutex
    rw [running] at none
    cases none
  have counted : (p.assign fun co =>
      { co with tmpNum := co.tmpNum + 1 }).Ok := by
    refine ok.assign other _ rfl rfl rfl (fun _ => rfl) (fun _ => rfl)
      ⟨states.start, states.begun, states.table,
        fun notRunning some member => ?_, states.member, states.waits,
        states.linked⟩
    obtain ⟨notRecovery, _⟩ := states.pstate notRunning some member
    exact ⟨notRecovery, fun _ => .inl (Nat.le_add_left 1 _)⟩
  refine counted.setKeepAlive inside ⟨fun pc => ?_, fun pc => ?_, fun _ _ => ?_⟩
    (counted.mutexes.keepAlive hasMutex.symm)
  · rcases pc with pc | pc | pc <;> cases pc
  · rcases pc with pc | pc <;> cases pc
  · exact .inl (Nat.le_add_left 1 _)

/-- A step of `keepAlive`. -/
theorem Ok.stepKeepAlive
    (ok : p.Ok)
    {id : Nat}
    (inside : id ∈ p.threads.co.ids)
    (taken : p.stepKeepAlive id = some p') :
    p'.Ok := by
  have states := ok.states
  have counted : ∀ pc, p.keepAlive id ≠ .counting → p.recovery ≠ .running →
      (p.threads.co.entry id).pstate = .temp →
      1 ≤ p.threads.co.tmpNum ∨ pc = KeepAlivePc.counting := by
    intro pc notCounting notRunning temp
    rcases (states.pstate notRunning id inside).2 temp with counted | isCounting
    · exact .inl counted
    · exact absurd isCounting notCounting
  unfold Process.stepKeepAlive at taken
  split at taken
  · rename_i isPolling
    split at taken
    · rename_i waiting
      cases taken
      refine ok.setKeepAlive inside ⟨fun _ => waiting, fun pc => ?_,
        counted .connecting ?_⟩ (ok.mutexes.keepAlive ?_)
      · rcases pc with pc | pc <;> cases pc
      · rw [isPolling]
        exact KeepAlivePc.noConfusion
      · rw [isPolling]
        rfl
    · cases taken
      exact ok
  · rename_i isConnecting
    split at taken
    · cases taken
      exact ok
    · rename_i t connected
      cases taken
      exact ok.keepAlive_connects isConnecting connected
  · rename_i isLocking
    split at taken
    · rename_i free
      cases taken
      refine ok.setKeepAlive inside
        ⟨fun _ => states.waits id (.inr (.inl isLocking)),
          fun _ => states.linked id (.inl isLocking), counted .assigning ?_⟩
        (ok.mutexes.recovery.take free (.keepAlive id))
      rw [isLocking]
      exact KeepAlivePc.noConfusion
    · cases taken
  · rename_i isAssigning
    cases taken
    exact ok.keepAlive_assigns isAssigning
  · rename_i isCounting
    cases taken
    exact ok.keepAlive_counts isCounting
  · rename_i isReleasing
    cases taken
    have own : p.hasRecovery (.keepAlive id) = true := by
      change (p.keepAlive id).hasMutex = true
      rw [isReleasing]
      rfl
    refine ok.setKeepAlive inside ⟨fun pc => ?_, fun pc => ?_,
      counted .polling ?_⟩ (ok.mutexes.recovery.release own)
    · rcases pc with pc | pc | pc <;> cases pc
    · rcases pc with pc | pc <;> cases pc
    · rw [isReleasing]
      exact KeepAlivePc.noConfusion

/-! ## All steps -/

theorem Ok.accept
    (ok : p.Ok)
    {task : List Bytes}
    (taken : p.step (.accept task) = some p') :
    p'.Ok := by
  simp only [Process.step] at taken
  split at taken
  · rename_i isAccepting
    cases taken
    refine ok.setWorking (ok.mutexes.setWorking ?_) (ok.idle ?_)
    · rw [isAccepting]
      rfl
    · rw [isAccepting]
      exact WorkingPc.noConfusion
  · cases taken

theorem Ok.step
    (ok : p.Ok)
    {move : Move}
    (taken : p.step move = some p') :
    p'.Ok := by
  cases move with
  | accept task => exact ok.accept taken
  | working => exact ok.stepWorking taken
  | recovery => exact ok.stepRecovery taken
  | keepAlive id =>
      simp only [Process.step] at taken
      split at taken
      · rename_i inside
        exact ok.stepKeepAlive inside taken
      · cases taken
  | worker act => exact ok.worker taken
  | outside act => exact ok.outside taken

/-! ## Runs -/

/-- A process starts on participants at rest. -/
theorem Ok.init
    {pnum : Nat}
    (starts : Starts pnum p) :
    p.Ok := by
  obtain ⟨reachable, left⟩ := starts
  rename_i w old
  have ok := reachable.ok
  have still : (Threads.init pnum (fun id => (w.sys.node id).proc) old).Still := by
    refine ⟨fun id => { w.sys.node id with link := false },
      ⟨.init, fun id inside => ?_⟩, fun id => ⟨rfl, left id, ?_, ?_⟩⟩
    · have member : id ∈ w.sys.co.ids := by
        rw [reachable.ids]
        exact inside
      exact (ok.rest.peers id member).restart txidStart
    · exact fun linked => linked
    · exact fun other => absurd rfl other
  have threads := Threads.Ok.init pnum (fun id => (w.sys.node id).proc) old
  refine ⟨threads, Threads.Balanced.init _ _ _, trivial, still.sim threads rfl,
    fun _ _ => rfl, ⟨?_, ?_⟩, ⟨le_rfl, ?_, ?_, ?_, ?_, ?_, ?_⟩⟩
  · refine .free fun holder => ?_
    cases holder <;> rfl
  · refine .free fun holder => ?_
    cases holder <;> rfl
  · intro minID isMinID
    cases isMinID
  · intro cleared
    cases cleared
  · intro _ id _
    exact ⟨PState.noConfusion, fun temp => PState.noConfusion temp⟩
  · intro id notPolling
    exact absurd rfl notPolling
  · rintro id (pc | pc | pc) <;> cases pc
  · rintro id (pc | pc) <;> cases pc

/-- The invariant holds in every reachable state. -/
theorem Reachable.ok
    {pnum : Nat}
    (reachable : Reachable pnum p) :
    p.Ok := by
  obtain ⟨start, starts, moves, run⟩ := reachable
  exact run.preserves (fun _ _ _ ok _ taken => ok.step taken) (.init starts)

/-- A new process with a new participant. -/
def single : Process :=
  .init (.init 1 (fun _ => Participant.init) fun _ => none)

theorem single_starts : Starts 1 single :=
  .init (w := World.init 1) ⟨[], .nil _⟩ fun _ => .nothing

end Process
end Lab3
end CloudComputing
