import CloudComputing.Lab3.Joiners
import CloudComputing.Lab3.Mirrors

/-!
# The process beside the system of calls

A run of the coordinator process is followed by a run of the system of calls:
whenever no program runs under `_workingMutex`, the two stand at the same
place.  While `Working` runs a function, a recovery may be called; the system
takes that call before the command, since the function changes `_TXID` only
when it ends.
-/

namespace CloudComputing
namespace Lab3

open CloudComputing.Lab3.Parser Network

/-- The command that `_workThread` has received and not begun to work on. -/
def WorkingPc.task : WorkingPc → List (List Bytes)
  | .received task => [task]
  | .locking task => [task]
  | .locked task => [task]
  | _ => []

/-- `_workThread` is behind its test of `_cstate`. -/
def WorkingPc.admitted : WorkingPc → Bool
  | .locking _ => true
  | .locked _ => true
  | _ => false

/-- The recovery runs, or has run and not returned. -/
def RecoveryPc.ran : RecoveryPc → Bool
  | .running => true
  | .unlockingWorking => true
  | .unlockingRecovery => true
  | .leaving => true
  | _ => false

/-- The command that a move accepts. -/
def Move.command : Move → List (List Bytes)
  | .accept task => [task]
  | _ => []

namespace Process

/-- The recovery that has begun, as the system of calls has it. -/
def stage (p : Process) : RecoveryPhase :=
  match p.recovery.minID with
  | some minID => .waiting minID
  | none => .idle

/-- A recovery has been completed before the command at hand, or now. -/
def ready (p : Process) : Prop :=
  p.threads.co.cstate = .working ∨ p.working.admitted = true ∨
    p.recovery.ran = true

/-- `Working` runs a function, and a recovery could be called meanwhile. -/
def Early (p : Process) : Prop :=
  p.working = .running ∧ p.recovery.minID = none ∧ p.threads.prog ≠ .ret ()

/-- The system of calls follows the process, receiving only accepted
commands. -/
structure Tracks
    (start : World)
    (accepted : List (List Bytes))
    (p : Process) : Prop where
  course : ∃ commands, (commands ++ p.working.task).Sublist accepted ∧
    p.threads.Sim p.mode (Accompanied start p.stage p.ready commands) ∧
    (p.Early → p.threads.Sim .work
      (Accompanied start (.waiting (p.threads.co.txid - 1)) p.ready commands))
  nonempty : p.working.admitted = true →
    ∀ task ∈ p.working.task, ¬ task.length < 1
  steady : p.working = .running → p.threads.prog.Steady

variable
  {start : World}
  {accepted : List (List Bytes)}
  {p p' : Process}

theorem stage_of_none
    (isNone : p.recovery.minID = none) :
    p.stage = .idle := by
  rw [stage, isNone]

theorem stage_of_some
    {minID : Nat}
    (isSome : p.recovery.minID = some minID) :
    p.stage = .waiting minID := by
  rw [stage, isSome]

/-- While one thread runs a program the other does not. -/
theorem Ok.not_both
    (ok : p.Ok)
    (running : p.recovery.hasWorking = true) :
    p.working ≠ .running := by
  intro both
  have none := ok.exclusive (by rw [both]; rfl)
  rw [running] at none
  cases none

/-- While `Working` has its mutex the recovery does not run. -/
theorem Ok.recovery_ne
    (ok : p.Ok)
    (working : p.working.hasMutex = true) :
    p.recovery ≠ .running := by
  intro running
  have alone := ok.exclusive working
  rw [running] at alone
  cases alone

namespace Tracks

/-! ## Frames -/

/-- Neither the threads nor the place of the system has changed. -/
theorem frame
    (tracks : p.Tracks start accepted)
    {accepted' : List (List Bytes)}
    (threads : p'.threads = p.threads)
    (mode : p'.mode = p.mode)
    (stage : p'.stage = p.stage)
    (ready : p'.ready → p.ready)
    (early : p'.Early → p.Early)
    (task : ∀ commands : List (List Bytes),
      (commands ++ p.working.task).Sublist accepted →
        (commands ++ p'.working.task).Sublist accepted')
    (nonempty : p'.working.admitted = true →
      ∀ task ∈ p'.working.task, ¬ task.length < 1)
    (steady : p'.working = .running → p.working = .running) :
    p'.Tracks start accepted' := by
  obtain ⟨commands, received, sim, earlier⟩ := tracks.course
  refine ⟨⟨commands, task commands received, ?_, fun isEarly => ?_⟩,
    nonempty, fun running => ?_⟩
  · rw [threads, mode, stage]
    exact sim.mono fun _ accompanied => accompanied.mono ready (.refl _)
  · rw [threads]
    exact (earlier (early isEarly)).mono
      fun _ accompanied => accompanied.mono ready (.refl _)
  · rw [threads]
    exact tracks.steady (steady running)

/-- The threads have taken a step that leaves the program. -/
theorem kept
    (tracks : p.Tracks start accepted)
    {t : Threads}
    (sims : ∀ mode post, p.threads.Sim mode post → t.Sim mode post)
    (prog : t.prog = p.threads.prog)
    (txid : t.co.txid = p.threads.co.txid)
    (cstate : t.co.cstate = p.threads.co.cstate) :
    { p with threads := t }.Tracks start accepted := by
  obtain ⟨commands, received, sim, earlier⟩ := tracks.course
  have ready : ready { p with threads := t } → p.ready := by
    intro isReady
    change t.co.cstate = .working ∨ _ at isReady
    rw [cstate] at isReady
    exact isReady
  refine ⟨⟨commands, received, ?_, fun isEarly => ?_⟩, tracks.nonempty,
    fun running => ?_⟩
  · exact (sims _ _ sim).mono
      fun _ accompanied => accompanied.mono ready (.refl _)
  · obtain ⟨running, isNone, goesOn⟩ := isEarly
    change t.prog ≠ .ret () at goesOn
    rw [prog] at goesOn
    change t.Sim .work (Accompanied start (.waiting (t.co.txid - 1)) _ commands)
    rw [txid]
    exact (sims _ _ (earlier ⟨running, isNone, goesOn⟩)).mono
      fun _ accompanied => accompanied.mono ready (.refl _)
  · change t.prog.Steady
    rw [prog]
    exact tracks.steady running

/-- Outside a recovery a thread assigns to variables that no program uses. -/
theorem assign
    (tracks : p.Tracks start accepted)
    (other : p.recovery ≠ .running)
    (change : Coordinator → Coordinator)
    (sims : ∀ post, p.threads.Sim .work post →
      (p.assign change).threads.Sim .work post)
    (txid : (change p.threads.co).txid = p.threads.co.txid)
    (ready : (p.assign change).ready → p.ready) :
    (p.assign change).Tracks start accepted := by
  obtain ⟨commands, received, sim, earlier⟩ := tracks.course
  have isWork := (mode_of_ne other).1
  have isWork' : (p.assign change).mode = .work := isWork
  rw [isWork] at sim
  refine ⟨⟨commands, received, ?_, fun isEarly => ?_⟩, tracks.nonempty,
    tracks.steady⟩
  · rw [isWork']
    exact (sims _ sim).mono
      fun _ accompanied => accompanied.mono ready (.refl _)
  · change (p.assign change).threads.Sim .work
      (Accompanied start (.waiting ((change p.threads.co).txid - 1)) _ commands)
    rw [txid]
    exact (sims _ (earlier isEarly)).mono
      fun _ accompanied => accompanied.mono ready (.refl _)

/-- Where no program runs, the process stands where the system does. -/
theorem rests
    (tracks : p.Tracks start accepted)
    (ok : p.Ok)
    (joiners : p.Joiners)
    (isRet : p.threads.prog = .ret ()) :
    ∃ commands, (commands ++ p.working.task).Sublist accepted ∧
      p.threads.Rests start p.stage p.ready commands := by
  obtain ⟨commands, received, sim, _⟩ := tracks.course
  refine ⟨commands, received, sim.rests ok.threads isRet fun id notMember => ?_⟩
  rw [joiners.outside id notMember]
  exact PState.noConfusion

/-! ## `Working` -/

/-- `_workThread` goes on in the function that it has called. -/
theorem working_runs
    (tracks : p.Tracks start accepted)
    (ok : p.Ok)
    (isRunning : p.working = .running)
    (notRet : p.threads.prog ≠ .ret ())
    {t : Threads}
    (stepped : p.threads.coordinate = some t) :
    { p with threads := t }.Tracks start accepted := by
  obtain ⟨commands, received, sim, earlier⟩ := tracks.course
  obtain ⟨steady, cstate, txid⟩ :=
    Threads.steady_coordinate (tracks.steady isRunning) stepped
  have ready : ready { p with threads := t } → p.ready := by
    intro isReady
    change t.co.cstate = .working ∨ _ at isReady
    rw [cstate] at isReady
    exact isReady
  refine ⟨⟨commands, received, ?_, fun isEarly => ?_⟩, tracks.nonempty,
    fun _ => steady⟩
  · exact (sim.coordinate ok.threads stepped).mono
      fun _ accompanied => accompanied.mono ready (.refl _)
  · obtain ⟨_, isNone, goesOn⟩ := isEarly
    change t.Sim .work (Accompanied start (.waiting (t.co.txid - 1)) _ commands)
    rw [txid goesOn]
    exact ((earlier ⟨isRunning, isNone, notRet⟩).coordinate ok.threads
      stepped).mono fun _ accompanied => accompanied.mono ready (.refl _)

/-- `_workThread` calls a function: the system receives the command and works
on it. -/
theorem working_calls
    (tracks : p.Tracks start accepted)
    (ok : p.Ok)
    (joiners : p.Joiners)
    {task : List Bytes}
    (isLocked : p.working = .locked task)
    {call : Call}
    (called : isUpdate task = true ∧ call = .update (getRESPArry task) ∨
      isUpdate task = false ∧ isRequest task = true ∧
        call = .request (getRESPArry task)) :
    { p.call call with working := .running }.Tracks start accepted := by
  have other : p.recovery ≠ .running := ok.recovery_ne (by rw [isLocked]; rfl)
  have isRet := ok.idle (by rw [isLocked]; exact WorkingPc.noConfusion) other
  have nonempty : ¬ task.length < 1 :=
    tracks.nonempty (by rw [isLocked]; rfl) task (by simp [isLocked,
      WorkingPc.task])
  obtain ⟨commands, received, rests⟩ := tracks.rests ok joiners isRet
  have rests := rests.mono
    fun _ : True => .inr (.inl (by rw [isLocked]; rfl))
  have isWork : call.mode = .work := by
    rcases called with ⟨_, rfl⟩ | ⟨_, _, rfl⟩
    · rfl
    · rfl
  refine ⟨⟨commands ++ [task], ?_, ?_, ?_⟩,
    fun admitted => Bool.noConfusion admitted, fun _ => steady_call call isWork⟩
  · rw [isLocked] at received
    change ((commands ++ [task]) ++ []).Sublist accepted
    rw [List.append_nil]
    exact received
  · change Threads.Sim p.mode _ { p.threads with prog := call.prog }
    rw [(mode_of_ne other).1]
    exact (rests.dispatch ok.threads isRet nonempty called).mono
      fun _ accompanied => accompanied.mono (fun _ => trivial) (.refl _)
  · rintro ⟨_, isNone, _⟩
    rw [stage_of_none (show p.recovery.minID = none from isNone)] at rests
    exact (rests.enter.dispatch ok.threads isRet nonempty called).mono
      fun _ accompanied => accompanied.mono (fun _ => trivial) (.refl _)

/-- A step of `_workThread`. -/
theorem stepWorking
    (tracks : p.Tracks start accepted)
    (ok : p.Ok)
    (joiners : p.Joiners)
    (taken : p.stepWorking = some p') :
    p'.Tracks start accepted := by
  -- A step that only moves on, or drops the command.
  have moves : ∀ {mutex : Option Holder} {pc : WorkingPc},
      pc.admitted = false → pc.task = [] → pc ≠ .running →
      { p with workingMutex := mutex, working := pc }.Tracks start
        accepted := by
    intro mutex pc notAdmitted noTask notRunning
    refine tracks.frame rfl rfl rfl ?_
      (fun isEarly => absurd isEarly.1 notRunning) ?_ ?_
      fun running => absurd running notRunning
    · rintro (working | admitted | ran)
      · exact .inl working
      · change pc.admitted = true at admitted
        rw [notAdmitted] at admitted
        cases admitted
      · exact .inr (.inr ran)
    · intro commands received
      change (commands ++ pc.task).Sublist accepted
      rw [noTask, List.append_nil]
      exact (List.sublist_append_left _ _).trans received
    · intro admitted
      change pc.admitted = true at admitted
      rw [notAdmitted] at admitted
      cases admitted
  unfold Process.stepWorking at taken
  split at taken
  · cases taken
  · rename_i task isReceived
    split at taken
    · cases taken
      exact moves rfl rfl WorkingPc.noConfusion
    · rename_i accepts
      obtain ⟨long, working⟩ := not_or.mp accepts
      cases taken
      refine tracks.frame rfl rfl rfl (fun _ => .inl (not_not.mp working))
        (fun isEarly => WorkingPc.noConfusion isEarly.1) ?_ ?_
        fun running => WorkingPc.noConfusion running
      · rw [isReceived]
        exact fun _ received => received
      · rintro _ other member
        rw [List.mem_singleton.mp member]
        exact long
  · rename_i task isLocking
    split at taken
    · cases taken
      refine tracks.frame rfl rfl rfl ?_
        (fun isEarly => WorkingPc.noConfusion isEarly.1) ?_ ?_
        fun running => WorkingPc.noConfusion running
      · exact fun _ => .inr (.inl (by rw [isLocking]; rfl))
      · rw [isLocking]
        exact fun _ received => received
      · rintro _ other member
        exact tracks.nonempty (by rw [isLocking]; rfl) other
          (by rw [isLocking]; exact member)
    · cases taken
  · rename_i task isLocked
    split at taken
    · rename_i update
      cases taken
      exact tracks.working_calls ok joiners isLocked (.inl ⟨update, rfl⟩)
    · rename_i notUpdate
      rw [Bool.not_eq_true] at notUpdate
      split at taken
      · rename_i isRead
        cases taken
        exact tracks.working_calls ok joiners isLocked
          (.inr ⟨notUpdate, isRead, rfl⟩)
      · cases taken
        exact moves rfl rfl WorkingPc.noConfusion
  · rename_i isRunning
    unfold Process.run at taken
    split at taken
    · cases taken
      exact moves rfl rfl WorkingPc.noConfusion
    · rename_i notRet
      obtain ⟨t, stepped, isNext⟩ := Option.map_eq_some_iff.mp taken
      subst isNext
      exact tracks.working_runs ok isRunning (notRet ()) stepped
  · cases taken
    exact moves rfl rfl WorkingPc.noConfusion
  · cases taken
    exact moves rfl rfl WorkingPc.noConfusion

/-! ## `Recovery` -/

/-- `_recoveryThread` goes on, with the same `minID`. -/
theorem setRecovery
    (tracks : p.Tracks start accepted)
    (before : p.recovery ≠ .running)
    (pc : RecoveryPc)
    (after : pc ≠ .running)
    (minID : pc.minID = p.recovery.minID)
    (ran : pc.ran = true → p.recovery.ran = true)
    (workingMutex recoveryMutex : Option Holder) :
    { p with
      workingMutex := workingMutex
      recoveryMutex := recoveryMutex
      recovery := pc }.Tracks start accepted := by
  refine tracks.frame rfl ?_ ?_ ?_ (fun isEarly => ?_)
    (fun _ received => received) tracks.nonempty fun running => running
  · rw [(mode_of_ne before).1]
    exact (mode_of_ne (p := { p with
      workingMutex := workingMutex
      recoveryMutex := recoveryMutex
      recovery := pc }) after).1
  · simp only [stage, minID]
  · exact Or.imp_right (Or.imp_right ran)
  · exact ⟨isEarly.1, minID ▸ isEarly.2.1, isEarly.2.2⟩

/-- `_recoveryThread` computes `minID`: the system takes the call before a
command that is being worked on. -/
theorem recovery_enters
    (tracks : p.Tracks start accepted)
    (ok : p.Ok)
    (joiners : p.Joiners)
    (isEntering : p.recovery = .entering) :
    { p with recovery := .clearing (p.threads.co.txid - 1) }.Tracks start
      accepted := by
  have other : p.recovery ≠ .running := by
    rw [isEntering]
    exact RecoveryPc.noConfusion
  have isNone : p.recovery.minID = none := by
    rw [isEntering]
    rfl
  have ready : ready
      { p with recovery := .clearing (p.threads.co.txid - 1) } → p.ready :=
    Or.imp_right (Or.imp_right fun ran => Bool.noConfusion ran)
  by_cases isEarly : p.Early
  · obtain ⟨commands, received, _, earlier⟩ := tracks.course
    refine ⟨⟨commands, received, ?_, fun later => ?_⟩, tracks.nonempty,
      tracks.steady⟩
    · exact (earlier isEarly).mono fun _ accompanied =>
        accompanied.mono ready (.refl _)
    · cases later.2.1
  · have isRet : p.threads.prog = .ret () := by
      by_cases running : p.working = .running
      · by_contra goesOn
        exact isEarly ⟨running, isNone, goesOn⟩
      · exact ok.idle running other
    obtain ⟨commands, received, rests⟩ := tracks.rests ok joiners isRet
    rw [stage_of_none isNone] at rests
    refine ⟨⟨commands, received, ?_, fun later => ?_⟩, tracks.nonempty,
      tracks.steady⟩
    · exact ((rests.enter.mono ready).sim ok.threads isRet)
    · cases later.2.1

/-- The recovery begins to run. -/
theorem recovery_calls
    {pnum : Nat}
    (reachable : World.Reachable pnum start)
    (tracks : p.Tracks start accepted)
    (ok : p.Ok)
    (joiners : p.Joiners)
    {minID : Nat}
    (isLocked : p.recovery = .locked minID) :
    { p.call (.recovery minID) with recovery := .running }.Tracks start
      accepted := by
  have alone := ok.not_both (by rw [isLocked]; rfl)
  have isRet := ok.idle alone (by rw [isLocked]; exact RecoveryPc.noConfusion)
  obtain ⟨commands, received, rests⟩ := tracks.rests ok joiners isRet
  rw [stage_of_some (show p.recovery.minID = some minID by
    rw [isLocked]
    rfl)] at rests
  refine ⟨⟨commands, received, ?_, fun isEarly => absurd isEarly.1 alone⟩,
    tracks.nonempty, fun running => absurd running alone⟩
  exact (rests.recovery reachable ok.threads isRet
    (ok.states.table (by rw [isLocked]; rfl))
    (joiners.awake (by rw [isLocked]; rfl))).mono
      fun _ accompanied => accompanied.mono (fun _ => trivial) (.refl _)

/-- The recovery goes on or has run. -/
theorem recovery_runs
    (tracks : p.Tracks start accepted)
    (ok : p.Ok)
    (joiners : p.Joiners)
    (isRunning : p.recovery = .running)
    (taken : (p.run fun p => { p with recovery := .unlockingWorking }) =
      some p') :
    p'.Tracks start accepted := by
  have alone := ok.not_both (by rw [isRunning]; rfl)
  have ready : p.ready := .inr (.inr (by rw [isRunning]; rfl))
  unfold Process.run at taken
  split at taken
  · rename_i isRet
    cases taken
    obtain ⟨commands, received, rests⟩ := tracks.rests ok joiners isRet
    rw [stage_of_none (show p.recovery.minID = none by
      rw [isRunning]
      rfl)] at rests
    exact ⟨⟨commands, received,
        (rests.mono fun _ => ready).sim ok.threads isRet,
        fun isEarly => absurd isEarly.1 alone⟩,
      tracks.nonempty, fun running => absurd running alone⟩
  · obtain ⟨t, stepped, isNext⟩ := Option.map_eq_some_iff.mp taken
    subst isNext
    obtain ⟨commands, received, sim, _⟩ := tracks.course
    exact ⟨⟨commands, received,
        (sim.coordinate ok.threads stepped).mono fun _ accompanied =>
          accompanied.mono (fun _ => ready) (.refl _),
        fun isEarly => absurd isEarly.1 alone⟩,
      tracks.nonempty, fun running => absurd running alone⟩

/-- A step of `_recoveryThread`. -/
theorem stepRecovery
    {pnum : Nat}
    (reachable : World.Reachable pnum start)
    (tracks : p.Tracks start accepted)
    (ok : p.Ok)
    (joiners : p.Joiners)
    (taken : p.stepRecovery = some p') :
    p'.Tracks start accepted := by
  have other : ∀ {pc}, p.recovery = pc → pc ≠ .running →
      p.recovery ≠ .running := by
    rintro _ rfl notRunning
    exact notRunning
  have minID : ∀ {pc pc' : RecoveryPc}, p.recovery = pc →
      pc'.minID = pc.minID → pc'.minID = p.recovery.minID := by
    rintro pc pc' rfl same
    exact same
  have ran : ∀ {pc pc' : RecoveryPc}, p.recovery = pc →
      (pc'.ran = true → pc.ran = true) →
      pc'.ran = true → p.recovery.ran = true := by
    rintro pc pc' rfl implied
    exact implied
  unfold Process.stepRecovery at taken
  split at taken
  · rename_i isEntering
    cases taken
    exact tracks.recovery_enters ok joiners isEntering
  · rename_i minID' isClearing
    cases taken
    have before := other isClearing RecoveryPc.noConfusion
    have cleared := tracks.assign before
      (fun co =>
        { co with entry := fun id => { co.entry id with maxTxid := none } })
      (fun _ sim => sim.assign rfl rfl rfl (fun _ => rfl) fun _ => rfl)
      rfl fun isReady => isReady
    exact cleared.setRecovery before (.waiting minID') RecoveryPc.noConfusion
      (minID isClearing rfl) (ran isClearing fun isTrue => isTrue) _ _
  · rename_i minID' isWaiting
    split at taken
    · cases taken
      exact tracks
    · cases taken
      exact tracks.setRecovery (other isWaiting RecoveryPc.noConfusion)
        (.waking minID') RecoveryPc.noConfusion (minID isWaiting rfl)
        (ran isWaiting fun isTrue => isTrue) _ _
  · rename_i minID' isWaking
    cases taken
    have before := other isWaking RecoveryPc.noConfusion
    have assigned := tracks.assign before
      (fun co => { co with cstate := .recovery })
      (fun _ sim => sim.assign rfl rfl rfl (fun _ => rfl) fun _ => rfl)
      rfl fun isReady =>
        isReady.elim (fun working => CState.noConfusion working) Or.inr
    exact assigned.setRecovery before (.lockingRecovery minID')
      RecoveryPc.noConfusion (minID isWaking rfl)
      (ran isWaking fun isTrue => isTrue) _ _
  · rename_i minID' isLocking
    split at taken
    · cases taken
      exact tracks.setRecovery (other isLocking RecoveryPc.noConfusion)
        (.lockingWorking minID') RecoveryPc.noConfusion (minID isLocking rfl)
        (ran isLocking fun isTrue => isTrue) _ _
    · cases taken
  · rename_i minID' isLocking
    split at taken
    · cases taken
      exact tracks.setRecovery (other isLocking RecoveryPc.noConfusion)
        (.locked minID') RecoveryPc.noConfusion (minID isLocking rfl)
        (ran isLocking fun isTrue => isTrue) _ _
    · cases taken
  · rename_i isLocked
    cases taken
    exact tracks.recovery_calls reachable ok joiners isLocked
  · rename_i isRunning
    exact tracks.recovery_runs ok joiners isRunning taken
  · rename_i isUnlocking
    cases taken
    exact tracks.setRecovery (other isUnlocking RecoveryPc.noConfusion)
      .unlockingRecovery RecoveryPc.noConfusion (minID isUnlocking rfl)
      (ran isUnlocking fun _ => rfl) _ _
  · rename_i isUnlocking
    cases taken
    exact tracks.setRecovery (other isUnlocking RecoveryPc.noConfusion)
      .leaving RecoveryPc.noConfusion (minID isUnlocking rfl)
      (ran isUnlocking fun _ => rfl) _ _
  · rename_i isLeaving
    cases taken
    have before := other isLeaving RecoveryPc.noConfusion
    have assigned := tracks.assign before
      (fun co => { co with cstate := .working })
      (fun _ sim => sim.assign rfl rfl rfl (fun _ => rfl) fun _ => rfl)
      rfl fun _ => .inr (.inr (by rw [isLeaving]; rfl))
    exact assigned.setRecovery before .entering RecoveryPc.noConfusion
      (minID isLeaving rfl) (fun isTrue => Bool.noConfusion isTrue) _ _

/-! ## `keepAlive` -/

/-- A thread goes on in `keepAlive`. -/
theorem setKeepAlive
    (tracks : p.Tracks start accepted)
    (id : Nat)
    (pc : KeepAlivePc)
    (mutex : Option Holder) :
    ({ p with recoveryMutex := mutex }.setKeepAlive id pc).Tracks start
      accepted :=
  tracks.frame rfl rfl rfl (fun isReady => isReady) (fun isEarly => isEarly)
    (fun _ received => received) tracks.nonempty fun running => running

/-- A thread has connected to its participant. -/
theorem connects
    (tracks : p.Tracks start accepted)
    (ok : p.Ok)
    {id : Nat}
    (isConnecting : p.keepAlive id = .connecting)
    {t : Threads}
    (connected : p.threads.onLine id Line.reconnect = some t) :
    { p with threads := t }.Tracks start accepted := by
  have waiting := ok.states.waits id (.inl isConnecting)
  refine tracks.kept (fun _ _ sim => sim.connect waiting connected) ?_ ?_ ?_
  · obtain ⟨line, _, rfl⟩ := Threads.onLine_eq connected
    rfl
  · obtain ⟨line, _, rfl⟩ := Threads.onLine_eq connected
    rfl
  · obtain ⟨line, _, rfl⟩ := Threads.onLine_eq connected
    rfl

/-- A step of `keepAlive`. -/
theorem stepKeepAlive
    (tracks : p.Tracks start accepted)
    (ok : p.Ok)
    {id : Nat}
    (taken : p.stepKeepAlive id = some p') :
    p'.Tracks start accepted := by
  have alone : (p.keepAlive id).hasMutex = true → p.recovery ≠ .running := by
    intro hasMutex running
    have none := ok.exclusive_keepAlive hasMutex
    rw [running] at none
    cases none
  unfold Process.stepKeepAlive at taken
  split at taken
  · split at taken
    · cases taken
      exact tracks.setKeepAlive id _ _
    · cases taken
      exact tracks
  · rename_i isConnecting
    split at taken
    · cases taken
      exact tracks
    · rename_i t connected
      cases taken
      exact (tracks.connects ok isConnecting connected).setKeepAlive id _ _
  · split at taken
    · cases taken
      exact tracks.setKeepAlive id _ _
    · cases taken
  · rename_i isAssigning
    cases taken
    have waiting := ok.states.waits id (.inr (.inr isAssigning))
    obtain ⟨linked, old⟩ := ok.states.linked id (.inr isAssigning)
    have assigned := tracks.assign (alone (by rw [isAssigning]; rfl))
      (fun co => co.setEntry id { co.entry id with pstate := .temp })
      (fun _ sim => sim.join waiting linked old) rfl fun isReady => isReady
    exact assigned.setKeepAlive id .counting _
  · rename_i isCounting
    cases taken
    have counted := tracks.assign (alone (by rw [isCounting]; rfl))
      (fun co => { co with tmpNum := co.tmpNum + 1 })
      (fun _ sim => sim.assign rfl rfl rfl (fun _ => rfl) fun _ => rfl)
      rfl fun isReady => isReady
    exact counted.setKeepAlive id .releasing _
  · cases taken
    exact tracks.setKeepAlive id _ _

end Tracks

/-! ## All steps -/

/-- A step of the process is followed by the system of calls. -/
theorem Tracks.step
    {pnum : Nat}
    (reachable : World.Reachable pnum start)
    (tracks : p.Tracks start accepted)
    (ok : p.Ok)
    (joiners : p.Joiners)
    {move : Move}
    (taken : p.step move = some p') :
    p'.Tracks start (accepted ++ move.command) := by
  have nothing : accepted ++ [] = accepted := List.append_nil accepted
  cases move with
  | accept task =>
      simp only [Process.step] at taken
      split at taken
      · rename_i isAccepting
        cases taken
        refine tracks.frame rfl rfl rfl ?_
          (fun isEarly => WorkingPc.noConfusion isEarly.1)
          (fun commands received => ?_)
          (fun admitted => Bool.noConfusion admitted)
          fun running => WorkingPc.noConfusion running
        · exact Or.imp_right (Or.imp_left fun admitted =>
            Bool.noConfusion admitted)
        · rw [isAccepting] at received
          change (commands ++ []).Sublist accepted at received
          rw [List.append_nil] at received
          exact received.append (.refl _)
      · cases taken
  | working =>
      change p'.Tracks start (accepted ++ [])
      rw [nothing]
      exact tracks.stepWorking ok joiners taken
  | recovery =>
      change p'.Tracks start (accepted ++ [])
      rw [nothing]
      exact tracks.stepRecovery reachable ok joiners taken
  | keepAlive id =>
      change p'.Tracks start (accepted ++ [])
      rw [nothing]
      simp only [Process.step] at taken
      split at taken
      · exact tracks.stepKeepAlive ok taken
      · cases taken
  | worker act =>
      change p'.Tracks start (accepted ++ [])
      rw [nothing]
      simp only [Process.step] at taken
      split at taken
      · rename_i isWorker
        obtain ⟨t, stepped, isNext⟩ := Option.map_eq_some_iff.mp taken
        subst isNext
        obtain ⟨_, prog⟩ := ok.balanced.worker ok.threads isWorker stepped
        obtain ⟨entry, co⟩ := Threads.co_worker isWorker stepped
        exact tracks.kept
          (fun _ _ sim => (sim.worker ok.threads isWorker stepped).1) prog
          (by rw [co]) (by rw [co])
      · cases taken
  | outside act =>
      change p'.Tracks start (accepted ++ [])
      rw [nothing]
      simp only [Process.step] at taken
      split at taken
      · rename_i isOutside
        obtain ⟨t, stepped, isNext⟩ := Option.map_eq_some_iff.mp taken
        subst isNext
        obtain ⟨_, prog⟩ := ok.balanced.outside isOutside stepped
        have co := Threads.co_outside isOutside stepped
        exact tracks.kept
          (fun _ _ sim => (sim.outside ok.threads isOutside stepped).1) prog
          (by rw [co]) (by rw [co])
      · cases taken

/-- The commands that moves accept. -/
def acceptedBy (moves : List Move) : List (List Bytes) :=
  moves.flatMap Move.command

/-- A process over the participants of a state of the system. -/
inductive StartsAt (pnum : Nat) (w : World) : Process → Prop
  | init
      {old : Nat → Option (Bytes × List Ticket)}
      (left : ∀ id, Left (old id) (w.sys.node id).late) :
      StartsAt pnum w
        (.init (.init pnum (fun id => (w.sys.node id).proc) old))

/-- The new coordinator in the system of calls. -/
def restarted (w : World) : World :=
  { w with sys := w.sys.restart, phase := .idle, pending := none }

/-- A process starts where the system does. -/
theorem Tracks.init
    {pnum : Nat}
    {w : World}
    (reachable : World.Reachable pnum w)
    (starts : StartsAt pnum w p) :
    p.Tracks (restarted w) [] := by
  obtain ⟨left⟩ := starts
  rename_i old
  have same : w.sys.co.pnum = pnum := by
    have ids := congrArg List.length reachable.ids
    simpa [Coordinator.ids, Coordinator.init] using ids
  have rests : (Threads.init pnum (fun id => (w.sys.node id).proc)
      old).Rests (restarted w) .idle False [] := by
    refine ⟨fun id => { w.sys.node id with link := false },
      fun id => ⟨rfl, left id, ?_, ?_⟩, [], restarted w, .nil _,
      List.nil_sublist _, False.elim, rfl, rfl, rfl, rfl, same,
      fun _ => rfl, fun _ => rfl, fun _ _ => rfl, fun _ isWaiting => ?_⟩
    · exact fun linked => linked
    · exact fun other => absurd rfl other
    · cases isWaiting
  refine ⟨⟨[], List.nil_sublist _, ?_, fun isEarly =>
    WorkingPc.noConfusion isEarly.1⟩, fun admitted =>
    Bool.noConfusion admitted, fun running => WorkingPc.noConfusion running⟩
  refine (rests.sim (.init _ _ _) rfl).mono fun _ accompanied =>
    accompanied.mono ?_ (.refl _)
  rintro (working | admitted | ran)
  · cases working
  · cases admitted
  · cases ran

end Process
end Lab3
end CloudComputing
