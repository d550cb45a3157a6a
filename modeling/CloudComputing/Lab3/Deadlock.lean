import CloudComputing.Lab3.ProcessSteps

/-!
# Deadlock freedom

Every wait of a thread for a lock is for a step of another one.  A worker waits
for nothing but its next task, the thread that has `_workingMutex` waits for a
worker that has this task, and the threads in front of a mutex wait for its
owner, who waits for neither mutex or takes the two in their order.
-/

namespace CloudComputing
namespace Lab3

open CloudComputing.Lab3.Parser Network

/-! ## Workers -/

/-- The worker whose step it is. -/
def Act.worker : Act → Option Port
  | .work port => some port
  | .fail port _ _ _ => some port
  | .receive port _ => some port
  | _ => none

/-- The operations that a worker has still to do behind its task. -/
def WorkerPc.remaining : WorkerPc → Nat
  | .releasing rest => rest.length + 1
  | _ => 0

/-- The step is one of a thread of the coordinator. -/
def Move.isThread : Move → Bool
  | .outside _ => false
  | _ => true

namespace Threads

variable {t : Threads} {port : Port}

/-- A worker at work can go on outside `sendAndRecv`. -/
theorem Balanced.work_advances
    (balanced : t.Balanced)
    (ok : t.Ok)
    (starts : t.worker port = .locking [] → (t.begin port).isSome = true)
    (outside : (t.worker port).Outside)
    (notWaiting : ¬ t.Waiting port) :
    (t.work port).isSome = true := by
  have placed := (ok.ports port).placed
  unfold Threads.work
  split
  · rename_i isLocking
    exact starts isLocking
  · rename_i op rest isLocking
    obtain ⟨sems, applied⟩ := Option.isSome_iff_exists.mp
      (balanced.work_isSome ok isLocking notWaiting)
    rw [applied]
    rfl
  · rename_i number text isExchange
    exact absurd isExchange (outside number text)
  · rfl
  · rename_i op rest isReleasing
    have posts : ∀ lock slot, op ≠ .wait lock slot := by
      rw [isReleasing] at placed
      cases placed with
      | releasing suffix =>
          have member := suffix.subset (List.mem_cons_self ..)
          intro lock slot isWait
          rw [isWait] at member
          cases port <;>
            simp [Port.releases, Semaphore.cRelease, Semaphore.pRelease]
              at member
    have ready : (op.apply t.sems).isSome = true :=
      Semaphore.Op.apply_isSome
        fun lock slot isWait => absurd isWait (posts lock slot)
    obtain ⟨sems, applied⟩ := Option.isSome_iff_exists.mp ready
    rw [applied]
    rfl

/-- The worker of an idle port is behind its task, unless it has settled. -/
theorem Ok.releasing_of_idle
    (ok : t.Ok)
    (idle : t.phase port = .idle)
    (unsettled : t.worker port ≠ .locking port.acquires) :
    ∃ rest, t.worker port = .releasing rest := by
  have sum := (ok.ports port).token
  have placed := (ok.ports port).placed
  have holds : t.holds port = 1 :=
    holds_of_not_posted (by rw [idle]; exact Phase.noConfusion)
  have token : (t.worker port).token port = 0 := by omega
  cases pc : t.worker port with
  | releasing rest => exact ⟨rest, rfl⟩
  | exchange number text =>
      rw [pc] at token
      cases token
  | locking rest =>
      rw [pc] at token placed unsettled
      cases placed with
      | locking suffix =>
          -- Only the first operation takes the token.
          have isAll : rest = port.acquires := by
            simp only [Port.acquires, Semaphore.cGet, Semaphore.pGet,
              List.suffix_cons_iff, List.suffix_nil] at suffix
            rcases suffix with rfl | rfl | rfl | rfl | rfl
            · rfl
            · simp [WorkerPc.token] at token
            · simp [WorkerPc.token] at token
            · simp [WorkerPc.token] at token
            · simp [WorkerPc.token] at token
          exact absurd (congrArg WorkerPc.locking isAll) unsettled

/-- A worker behind its task comes nearer to the start of its loop. -/
theorem remaining_step
    {rest : List (Semaphore.Op (Port × Side))}
    (isReleasing : t.worker port = .releasing rest)
    {act : Act}
    (own : act.worker = some port)
    (taken : t.step act = some t') :
    t'.prog = t.prog ∧
      (t'.worker port).remaining < (t.worker port).remaining := by
  rw [isReleasing]
  cases act with
  | work other =>
      cases own
      simp only [Threads.step] at taken
      split at taken
      · simp only [Threads.work, isReleasing] at taken
        cases rest with
        | nil =>
            cases taken
            simp [WorkerPc.remaining]
        | cons op rest =>
            obtain ⟨sems, _, isNext⟩ := Option.bind_eq_some_iff.mp taken
            cases isNext
            simp [WorkerPc.remaining]
      · cases taken
  | fail other error part arrives =>
      cases own
      simp only [Threads.step, Threads.fail, isReleasing, reduceCtorEq]
        at taken
  | receive other reads =>
      cases own
      simp only [Threads.step, Threads.receive, isReleasing, reduceCtorEq]
        at taken
  | _ => cases own

end Threads

namespace Process

variable {p : Process} {port : Port}

/-- A worker that does not wait for a task can take a step. -/
theorem Ok.worker_advances
    (ok : p.Ok)
    (inside : port.id ∈ p.threads.co.ids)
    (notWaiting : ¬ p.threads.Waiting port) :
    ∃ act p', act.worker = some port ∧ p.step (.worker act) = some p' := by
  by_cases exchanges : ∃ number text,
      p.threads.worker port = .exchange number text
  · obtain ⟨number, text, isExchange⟩ := exchanges
    have fails : ∃ t, p.threads.fail port .network [] 0 = some t := by
      unfold Threads.fail
      rw [isExchange]
      exact ⟨_, rfl⟩
    obtain ⟨t, failed⟩ := fails
    refine ⟨.fail port .network [] 0, { p with threads := t }, rfl, ?_⟩
    simp only [Process.step, Act.isWorker, if_true, Threads.step, failed,
      Option.map_some]
  · have outside : (p.threads.worker port).Outside :=
      fun number text isExchange => exchanges ⟨number, text, isExchange⟩
    have starts : p.threads.worker port = .locking [] →
        (p.threads.begin port).isSome = true := by
      intro isLocking
      obtain ⟨base, node, lags, _⟩ := ok.sim
      obtain ⟨⟨goesOn, entry⟩, admitted⟩ :=
        Option.ne_none_iff_exists'.mp (lags.admits ok.threads isLocking)
      unfold Threads.begin
      rw [admitted]
      simp only [Option.bind_eq_bind, Option.bind_some]
      split
      · rfl
      · split <;> rfl
    obtain ⟨t, worked⟩ := Option.isSome_iff_exists.mp
      (ok.balanced.work_advances ok.threads starts outside notWaiting)
    refine ⟨.work port, { p with threads := t }, rfl, ?_⟩
    simp only [Process.step, Act.isWorker, if_true, Threads.step, inside,
      worked, Option.map_some]

/-! ## Calls -/

/-- The program under `_workingMutex` goes on, or a worker does. -/
theorem Ok.run_advances
    (ok : p.Ok)
    (return' : Process → Process) :
    (p.run return').isSome = true ∨
      ∃ act p', p.step (.worker act) = some p' := by
  unfold Process.run
  split
  · exact .inl rfl
  · rename_i unfinished
    cases isProg : p.threads.prog with
    | ret value => exact absurd isProg (unfinished value)
    | fail => exact absurd isProg ok.sim.not_fail
    | get next =>
        left
        simp [Threads.coordinate, isProg]
    | modify change next =>
        left
        simp [Threads.coordinate, isProg]
    | lock op port next =>
        by_cases waiting : p.threads.Waiting port
        · left
          rw [Option.isSome_map]
          exact ok.balanced.coordinate_isSome ok.threads isProg waiting
        · right
          have among := ok.among
          rw [isProg] at among
          obtain ⟨act, p', _, taken⟩ := ok.worker_advances among.1 waiting
          exact ⟨act, p', taken⟩

/-! ## Threads -/

/-- The step is a round of a loop that waits: for a participant, in
`keepAlive`, or for `_tmpNum`, in `Recovery`. -/
def Idle (p : Process) : Move → Prop
  | .recovery =>
      ∃ minID, p.recovery = .waiting minID ∧ p.threads.co.tmpNum = 0
  | .keepAlive id => p.keepAlive id = .polling ∨ p.keepAlive id = .connecting
  | _ => False

/-- The step is one of the thread that is in a call, or of a worker. -/
def Serves (p : Process) : Move → Prop
  | .working => p.working = .running
  | .recovery => p.recovery = .running
  | .worker _ => True
  | _ => False

/-- The process has nothing to do: `_workThread` waits for a command and
`_recoveryThread` for a participant. -/
def Unoccupied (p : Process) : Prop :=
  p.working = .accepting ∧ p.Idle .recovery

/-- Some thread can take a step that is neither a round of a waiting loop nor
the receipt of a command. -/
def Advances (p : Process) : Prop :=
  ∃ move p', p.step move = some p' ∧ move.isThread = true ∧ ¬ p.Idle move ∧
    ∀ task, move ≠ .accept task

theorem Advances.working
    (ready : p.stepWorking.isSome = true) :
    p.Advances := by
  obtain ⟨p', taken⟩ := Option.isSome_iff_exists.mp ready
  exact ⟨.working, p', taken, rfl, fun idle => idle, fun _ => Move.noConfusion⟩

theorem Advances.recovery
    (busy : ¬ p.Idle .recovery)
    (ready : p.stepRecovery.isSome = true) :
    p.Advances := by
  obtain ⟨p', taken⟩ := Option.isSome_iff_exists.mp ready
  exact ⟨.recovery, p', taken, rfl, busy, fun _ => Move.noConfusion⟩

theorem Advances.of_serves
    {move : Move}
    {p' : Process}
    (taken : p.step move = some p')
    (serves : p.Serves move) :
    p.Advances := by
  refine ⟨move, p', taken, ?_, ?_, ?_⟩
  · cases move with
    | outside act => exact serves.elim
    | _ => rfl
  · cases move with
    | recovery =>
        rintro ⟨minID, isWaiting, _⟩
        rw [show p.recovery = .running from serves] at isWaiting
        cases isWaiting
    | keepAlive id => exact serves.elim
    | _ => exact fun idle => idle
  · rintro task rfl
    exact serves

/-- A call goes on. -/
theorem Ok.serves
    (ok : p.Ok)
    (running : p.working = .running ∨ p.recovery = .running) :
    ∃ move p', p.step move = some p' ∧ p.Serves move := by
  rcases running with isRunning | isRunning
  · rcases ok.run_advances fun p => { p with working := .unlocking } with
      ready | ⟨act, p', taken⟩
    · obtain ⟨p', taken⟩ := Option.isSome_iff_exists.mp ready
      refine ⟨.working, p', ?_, isRunning⟩
      simp only [Process.step, Process.stepWorking, isRunning, taken]
    · exact ⟨.worker act, p', taken, trivial⟩
  · rcases ok.run_advances fun p => { p with recovery := .unlockingWorking }
      with ready | ⟨act, p', taken⟩
    · obtain ⟨p', taken⟩ := Option.isSome_iff_exists.mp ready
      refine ⟨.recovery, p', ?_, isRunning⟩
      simp only [Process.step, Process.stepRecovery, isRunning, taken]
    · exact ⟨.worker act, p', taken, trivial⟩

theorem Ok.running_advances
    (ok : p.Ok)
    (running : p.working = .running ∨ p.recovery = .running) :
    p.Advances := by
  obtain ⟨move, p', taken, serves⟩ := ok.serves running
  exact .of_serves taken serves

/-! ## Mutexes -/

/-- The owner of `_recoveryMutex` in `keepAlive` can take a step. -/
theorem Ok.keepAlive_advances
    (ok : p.Ok)
    {id : Nat}
    (hasMutex : (p.keepAlive id).hasMutex = true) :
    p.Advances := by
  have busy : ¬ p.Idle (.keepAlive id) := by
    rintro (pc | pc) <;> rw [pc] at hasMutex <;> cases hasMutex
  have inside := ok.states.member id fun polling => busy (.inl polling)
  have ready : (p.stepKeepAlive id).isSome = true := by
    unfold Process.stepKeepAlive
    cases pc : p.keepAlive id with
    | assigning => rfl
    | counting => rfl
    | releasing => rfl
    | _ => rw [pc] at hasMutex; cases hasMutex
  obtain ⟨p', taken⟩ := Option.isSome_iff_exists.mp ready
  refine ⟨.keepAlive id, p', ?_, rfl, busy, fun _ => Move.noConfusion⟩
  simp only [Process.step, inside, if_true, taken]

/-- `_recoveryThread` can take a step when it has `_workingMutex`. -/
theorem Ok.recovery_advances_of_hasWorking
    (ok : p.Ok)
    (hasWorking : p.recovery.hasWorking = true) :
    p.Advances := by
  by_cases isRunning : p.recovery = .running
  · exact ok.running_advances (.inr isRunning)
  · refine .recovery ?_ ?_
    · rintro ⟨minID, isWaiting, _⟩
      rw [isWaiting] at hasWorking
      cases hasWorking
    · unfold Process.stepRecovery
      cases pc : p.recovery with
      | locked minID => rfl
      | unlockingWorking => rfl
      | running => exact absurd pc isRunning
      | _ => rw [pc] at hasWorking; cases hasWorking

/-- Behind `recvCommand`, `_workThread` or the owner of its mutex can take a
step. -/
theorem Ok.working_advances
    (ok : p.Ok)
    (busy : p.working ≠ .accepting) :
    p.Advances := by
  cases pc : p.working with
  | accepting => exact absurd pc busy
  | received task =>
      refine .working ?_
      unfold Process.stepWorking
      rw [pc]
      dsimp only
      split <;> rfl
  | locking task =>
      by_cases free : p.workingMutex = none
      · refine .working ?_
        unfold Process.stepWorking
        rw [pc]
        simp [free]
      · obtain ⟨holder, own⟩ := ok.mutexes.working.exists_of_ne_none free
        cases holder with
        | work =>
            have hasMutex : p.working.hasMutex = true := own
            rw [pc] at hasMutex
            cases hasMutex
        | recovery => exact ok.recovery_advances_of_hasWorking own
        | keepAlive id => cases own
  | locked task =>
      refine .working ?_
      unfold Process.stepWorking
      rw [pc]
      dsimp only
      split
      · rfl
      · split <;> rfl
  | running => exact ok.running_advances (.inl pc)
  | unlocking =>
      refine .working ?_
      unfold Process.stepWorking
      rw [pc]
      rfl
  | replying =>
      refine .working ?_
      unfold Process.stepWorking
      rw [pc]
      rfl

/-- Unless it waits for a participant, `_recoveryThread` or the owner of its
next mutex can take a step. -/
theorem Ok.recovery_advances
    (ok : p.Ok)
    (busy : ¬ p.Idle .recovery) :
    p.Advances := by
  cases pc : p.recovery with
  | lockingRecovery minID =>
      by_cases free : p.recoveryMutex = none
      · refine .recovery busy ?_
        unfold Process.stepRecovery
        rw [pc]
        simp [free]
      · obtain ⟨holder, own⟩ := ok.mutexes.recovery.exists_of_ne_none free
        cases holder with
        | work => cases own
        | recovery =>
            have hasMutex : p.recovery.hasRecovery = true := own
            rw [pc] at hasMutex
            cases hasMutex
        | keepAlive id => exact ok.keepAlive_advances own
  | lockingWorking minID =>
      by_cases free : p.workingMutex = none
      · refine .recovery busy ?_
        unfold Process.stepRecovery
        rw [pc]
        simp [free]
      · obtain ⟨holder, own⟩ := ok.mutexes.working.exists_of_ne_none free
        cases holder with
        | work =>
            refine ok.working_advances fun isAccepting => ?_
            have hasMutex : p.working.hasMutex = true := own
            rw [isAccepting] at hasMutex
            cases hasMutex
        | recovery =>
            have hasMutex : p.recovery.hasWorking = true := own
            rw [pc] at hasMutex
            cases hasMutex
        | keepAlive id => cases own
  | running => exact ok.running_advances (.inr pc)
  | waiting minID =>
      refine .recovery busy ?_
      unfold Process.stepRecovery
      rw [pc]
      dsimp only
      split <;> rfl
  | _ =>
      refine .recovery busy ?_
      unfold Process.stepRecovery
      rw [pc]
      rfl

/-! ## The end of a call -/

/-- A call has returned, or `recoveryFromC` or `recoveryFromP` within
`Recovery`. -/
def Ended (p : Process) : Prop :=
  p.threads.prog = .ret () ∨ p.threads.prog = Prog.write leaveRecovery

theorem Ok.idle_of_ended
    (ok : p.Ok)
    (ended : p.Ended)
    (port : Port) :
    p.threads.phase port = .idle ∧ p.threads.half = false := by
  have follows := ok.threads.follows
  have noLock : ∀ op port next, p.threads.prog ≠ .lock op port next := by
    intro op port next isLock
    rcases ended with isRet | isWrite
    · rw [isRet] at isLock
      cases isLock
    · rw [isWrite] at isLock
      cases isLock
  refine ⟨?_, ok.threads.not_half noLock⟩
  rcases ended with isRet | isWrite
  · rw [isRet] at follows
    exact congrFun follows port
  · rw [isWrite] at follows
    exact congrFun follows.2 port

/-- The locks of the participants are as new. -/
theorem Ok.fresh_of_ended
    (ok : p.Ok)
    (ended : p.Ended)
    (settled : p.threads.worker port = .locking port.acquires)
    (side : Side) :
    p.threads.sems (port, side) = Semaphore.fresh 1 := by
  obtain ⟨idle, half⟩ := ok.idle_of_ended ended port
  exact ok.balanced.fresh ok.threads idle half settled side

/-- What a worker of a call that has ended does: it comes nearer to the start
of its loop with every step, and can take one until it is there. -/
theorem Ok.settles
    (ok : p.Ok)
    (ended : p.Ended)
    (inside : port.id ∈ p.threads.co.ids)
    (unsettled : p.threads.worker port ≠ .locking port.acquires) :
    (∃ act p', act.worker = some port ∧ p.step (.worker act) = some p') ∧
      ∀ act p', act.worker = some port → p.step (.worker act) = some p' →
        p'.Ended ∧ (p'.threads.worker port).remaining <
          (p.threads.worker port).remaining := by
  constructor
  · exact ok.worker_advances inside fun waiting => unsettled waiting.1
  · intro act p' own taken
    obtain ⟨rest, isReleasing⟩ := ok.threads.releasing_of_idle
      (ok.idle_of_ended ended port).1 unsettled
    simp only [Process.step] at taken
    split at taken
    · obtain ⟨t, stepped, isNext⟩ := Option.map_eq_some_iff.mp taken
      subst isNext
      obtain ⟨prog, nearer⟩ := Threads.remaining_step isReleasing own stepped
      refine ⟨?_, nearer⟩
      unfold Ended at ended ⊢
      rw [prog]
      exact ended
    · cases taken

/-- The threads cannot deadlock. -/
structure DeadlockFree (p : Process) : Prop where
  /-- Some thread can take a step that is no polling, if not without a new
  command then because the process has nothing to do. -/
  advances : ∃ move p', p.step move = some p' ∧ move.isThread = true ∧
    ¬ p.Idle move ∧ ∀ task, move = .accept task → p.Unoccupied
  /-- In a call it is the thread in the call or a worker. -/
  serves : p.working = .running ∨ p.recovery = .running →
    ∃ move p', p.step move = some p' ∧ p.Serves move
  /-- At its end the workers settle. -/
  settles : p.Ended → ∀ port, port.id ∈ p.threads.co.ids →
    p.threads.worker port ≠ .locking port.acquires →
    (∃ act p', act.worker = some port ∧ p.step (.worker act) = some p') ∧
      ∀ act p', act.worker = some port → p.step (.worker act) = some p' →
        p'.Ended ∧ (p'.threads.worker port).remaining <
          (p.threads.worker port).remaining
  /-- When a worker has settled, the locks that it uses are as new. -/
  fresh : p.Ended → ∀ port, p.threads.worker port = .locking port.acquires →
    ∀ side, p.threads.sems (port, side) = Semaphore.fresh 1

theorem Ok.advances
    (ok : p.Ok) :
    ∃ move p', p.step move = some p' ∧ move.isThread = true ∧
      ¬ p.Idle move ∧ ∀ task, move = .accept task → p.Unoccupied := by
  have weaken : p.Advances → ∃ move p', p.step move = some p' ∧
      move.isThread = true ∧ ¬ p.Idle move ∧
      ∀ task, move = .accept task → p.Unoccupied := by
    rintro ⟨move, p', taken, isThread, busy, notAccept⟩
    exact ⟨move, p', taken, isThread, busy,
      fun task isAccept => absurd isAccept (notAccept task)⟩
  by_cases accepting : p.working = .accepting
  · by_cases idle : p.Idle .recovery
    · refine ⟨.accept [], { p with working := .received [] }, ?_, rfl,
        fun idle => idle, fun _ _ => ⟨accepting, idle⟩⟩
      simp only [Process.step, accepting]
    · exact weaken (ok.recovery_advances idle)
  · exact weaken (ok.working_advances accepting)

end Process

/-- The coordinator's threads cannot deadlock. -/
theorem process_deadlockFree
    {pnum : Nat}
    {p : Process}
    (reachable : Process.Reachable pnum p) :
    p.DeadlockFree where
  advances := reachable.ok.advances
  serves := reachable.ok.serves
  settles := fun ended _ inside unsettled =>
    reachable.ok.settles ended inside unsettled
  fresh := fun ended _ settled side =>
    reachable.ok.fresh_of_ended ended settled side

/-- A participant joins, and a recovery brings it to work. -/
def singleRecovers : List Move :=
  List.replicate 6 (.keepAlive 1) ++ List.replicate 14 .recovery ++
    List.replicate 5 (.worker (.work (.recov 1))) ++
    [.outside (.serve 1 []), .worker (.receive (.recov 1) [])] ++
    List.replicate 2 (.worker (.work (.recov 1))) ++
    List.replicate 9 .recovery ++
    List.replicate 3 (.worker (.work (.recov 1)))

theorem process_deadlockFree_recovers :
    ∃ p, Process.Reachable 1 p ∧ p.recovery = .unlockingWorking ∧
      (p.threads.co.entry 1).pstate = .working ∧
      (∀ side, p.threads.sems (.recov 1, side) = Semaphore.fresh 1) ∧
      ∃ move p', p.step move = some p' ∧ move.isThread = true ∧
        ¬ p.Idle move := by
  obtain ⟨p, executed, seen⟩ := (Option.any_eq_true
    (fun p : Process => decide (p.working = .accepting ∧
      p.recovery = .unlockingWorking ∧
      (p.threads.co.entry 1).pstate = .working ∧
      p.threads.worker (.recov 1) = .locking (Port.recov 1).acquires))
    (singleRecovers.foldlM Process.step Process.single)).mp
      (by decide +kernel)
  rw [decide_eq_true_eq] at seen
  obtain ⟨accepting, unlocking, works, settled⟩ := seen
  have reachable : Process.Reachable 1 p :=
    ⟨_, Process.single_starts, _, Run.of_executed executed⟩
  have free := process_deadlockFree reachable
  have ended : p.Ended := by
    left
    apply reachable.ok.idle
    · rw [accepting]
      exact WorkingPc.noConfusion
    · rw [unlocking]
      exact RecoveryPc.noConfusion
  obtain ⟨move, p', taken, isThread, busy, _⟩ := free.advances
  exact ⟨p, reachable, unlocking, works, free.fresh ended _ settled,
    move, p', taken, isThread, busy⟩

end Lab3
end CloudComputing
