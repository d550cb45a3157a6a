import CloudComputing.Lab3.Endings
import CloudComputing.Lab3.ProcessSteps

/-!
# Participants that join

A participant in `P_TEMP` stays there until the next recovery, so `_tmpNum`,
which that recovery resets, is not zero only while somebody is in `P_TEMP`: a
recovery that leaves its waiting loop has a participant to recover.  What is
stored about numbers that belong to no participant never changes.
-/

namespace CloudComputing
namespace Lab3

open CloudComputing.Lab3.Parser Network

theorem Entry.pstate_skip (port : Port) (entry : Entry) :
    (entry.skip port).pstate = entry.pstate := by
  cases port with
  | work id => rfl
  | recov id => rfl

namespace Threads

variable
  {post : Sys → Prop}
  {t t' : Threads}
  {port : Port}
  {base : Coordinator}
  {node : Nat → Node}

/-- Outside a recovery an exchange is one with a working participant. -/
theorem Lags.working_of_exchange
    (lags : t.Lags .work base node)
    (ok : t.Ok)
    {number : Nat}
    {text : Bytes}
    (exchange : t.worker port = .exchange number text) :
    (t.co.entry port.id).pstate = .working := by
  have posted :=
    ((ok.ports port).of_busy ((ok.ports port).busy_of_exchange exchange)).1
  have own := lags.uses_of_posted posted rfl
  obtain ⟨started, admitted, _, alike⟩ :=
    (lags.flies port number text exchange).admitted
  rw [own] at admitted
  simp only [Entry.admits, Option.some.injEq, Prod.mk.injEq,
    decide_eq_true_eq] at admitted
  obtain ⟨working, rfl⟩ := admitted
  exact alike.pstate.trans working

/-- A step of a worker outside a recovery leaves participants in `P_TEMP`
alone. -/
theorem Sim.temp_worker
    (sim : t.Sim .work post)
    (ok : t.Ok)
    {act : Act}
    (isWorker : act.isWorker = true)
    (taken : t.step act = some t')
    {id : Nat}
    (temp : (t.co.entry id).pstate = .temp) :
    (t'.co.entry id).pstate = .temp := by
  obtain ⟨base, node, lags, _⟩ := sim
  -- A worker that is not at work on this participant does not change it.
  have stays : ∀ {port : Port} {entry : Entry},
      ((t.co.entry port.id).pstate = .temp → entry.pstate = .temp) →
      ((t.co.setEntry port.id entry).entry id).pstate = .temp := by
    intro port entry kept
    rw [Coordinator.setEntry_entry]
    split
    · rename_i own
      exact kept (own ▸ temp)
    · exact temp
  have exchanged : ∀ {port : Port} {number : Nat} {text : Bytes},
      t.worker port = .exchange number text → ∀ entry : Entry,
      ((t.co.setEntry port.id entry).entry id).pstate = .temp := by
    intro port number text exchange entry
    refine stays fun isTemp => ?_
    have working := lags.working_of_exchange ok exchange
    rw [isTemp] at working
    cases working
  cases act with
  | work port =>
      simp only [Threads.step] at taken
      split at taken
      · unfold Threads.work at taken
        split at taken
        · rename_i isLocking
          obtain ⟨_, _, uses, _, _⟩ := lags.resting_entry ok isLocking
          have own := uses rfl
          obtain ⟨⟨goesOn, entry⟩, admitted, isNext⟩ :=
            Option.bind_eq_some_iff.mp taken
          rw [own] at admitted
          simp only [Entry.admits, Option.some.injEq, Prod.mk.injEq]
            at admitted
          obtain ⟨rfl, rfl⟩ := admitted
          dsimp only at isNext
          split at isNext
          · cases isNext
            exact stays fun isTemp =>
              (Entry.pstate_skip port _).trans isTemp
          · rename_i goes
            have working :
                (t.co.entry (Port.work port.id).id).pstate = .working := by
              simpa using goes
            change (t.co.entry port.id).pstate = .working at working
            split at isNext
            · cases isNext
              refine stays fun isTemp => ?_
              rw [working] at isTemp
              cases isTemp
            · cases isNext
              exact stays fun isTemp => isTemp
        · obtain ⟨sems, _, isNext⟩ := Option.bind_eq_some_iff.mp taken
          cases isNext
          exact temp
        · cases taken
        · cases taken
          exact temp
        · obtain ⟨sems, _, isNext⟩ := Option.bind_eq_some_iff.mp taken
          cases isNext
          exact temp
      · cases taken
  | fail port error part arrives =>
      change t.fail port error part arrives = some t' at taken
      unfold Threads.fail at taken
      split at taken
      · rename_i number text exchange
        cases taken
        exact exchanged exchange _
      · cases taken
  | receive port reads =>
      change t.receive port reads = some t' at taken
      unfold Threads.receive at taken
      split at taken
      · rename_i number text exchange
        obtain ⟨received, _, isNext⟩ := Option.bind_eq_some_iff.mp taken
        cases isNext
        exact exchanged exchange _
      · cases taken
  | _ => cases isWorker

/-- What happens outside the coordinator changes none of its variables. -/
theorem co_outside
    {act : Act}
    (isOutside : act.isOutside = true)
    (taken : t.step act = some t') :
    t'.co = t.co := by
  have onLine : ∀ {id : Nat} {change : Line → Option Line},
      t.onLine id change = some t' → t'.co = t.co := by
    intro id change changed
    obtain ⟨line, _, rfl⟩ := onLine_eq changed
    rfl
  cases act with
  | serve id reads =>
      change t.onLine id (fun line => line.serve reads) = some t' at taken
      exact onLine taken
  | drain id reads =>
      change t.onLine id (fun line => line.drain reads) = some t' at taken
      exact onLine taken
  | crash id =>
      change t.onLine id (fun line => some line.crash) = some t' at taken
      exact onLine taken
  | hangUp id =>
      change t.onLine id (fun line => some line.hangUp) = some t' at taken
      exact onLine taken
  | _ => cases isOutside

/-- A worker changes no variable but the entry of its participant. -/
theorem co_worker
    {act : Act}
    (isWorker : act.isWorker = true)
    (taken : t.step act = some t') :
    ∃ entry, t'.co = { t.co with entry := entry } := by
  cases act with
  | work port =>
      simp only [Threads.step] at taken
      split at taken
      · unfold Threads.work at taken
        split at taken
        · obtain ⟨⟨goesOn, entry⟩, _, isNext⟩ :=
            Option.bind_eq_some_iff.mp taken
          dsimp only at isNext
          split at isNext
          · cases isNext
            exact ⟨_, rfl⟩
          · split at isNext
            · cases isNext
              exact ⟨_, rfl⟩
            · cases isNext
              exact ⟨_, rfl⟩
        · obtain ⟨sems, _, isNext⟩ := Option.bind_eq_some_iff.mp taken
          cases isNext
          exact ⟨_, rfl⟩
        · cases taken
        · cases taken
          exact ⟨_, rfl⟩
        · obtain ⟨sems, _, isNext⟩ := Option.bind_eq_some_iff.mp taken
          cases isNext
          exact ⟨_, rfl⟩
      · cases taken
  | fail port error part arrives =>
      change t.fail port error part arrives = some t' at taken
      unfold Threads.fail at taken
      split at taken
      · cases taken
        exact ⟨_, rfl⟩
      · cases taken
  | receive port reads =>
      change t.receive port reads = some t' at taken
      unfold Threads.receive at taken
      split at taken
      · obtain ⟨received, _, isNext⟩ := Option.bind_eq_some_iff.mp taken
        cases isNext
        exact ⟨_, rfl⟩
      · cases taken
  | _ => cases isWorker

/-- Outside a recovery no assignment changes the state of a participant. -/
theorem Sim.pstate_coordinate
    (sim : t.Sim .work post)
    (taken : t.coordinate = some t')
    (id : Nat) :
    (t'.co.entry id).pstate = (t.co.entry id).pstate := by
  obtain ⟨base, node, lags, _⟩ := sim
  have isLocal := lags.isLocal
  unfold Threads.coordinate at taken
  split at taken
  · cases taken
  · cases taken
  · cases taken
    rfl
  · rename_i change next isModify
    cases taken
    rw [isModify] at isLocal
    exact isLocal.1.pstate rfl t.co id
  · rename_i op port next isLock
    split at taken
    · obtain ⟨sems, _, isNext⟩ := Option.bind_eq_some_iff.mp taken
      cases isNext
      rfl
    · obtain ⟨sems, _, isNext⟩ := Option.bind_eq_some_iff.mp taken
      cases isNext
      rw [complete_eq]

end Threads

/-- The recovery has left its waiting loop and not run yet. -/
def RecoveryPc.awake : RecoveryPc → Bool
  | .waking _ => true
  | .lockingRecovery _ => true
  | .lockingWorking _ => true
  | .locked _ => true
  | _ => false

/-- Somebody is in `P_TEMP`. -/
def Coordinator.HasTemp (co : Coordinator) : Prop :=
  ∃ id ∈ co.ids, (co.entry id).pstate = .temp

/-- Whoever is in `P_TEMP` stays there. -/
theorem Coordinator.HasTemp.mono
    {co co' : Coordinator}
    (hasTemp : co.HasTemp)
    (ids : co'.ids = co.ids)
    (stays : ∀ id, (co.entry id).pstate = .temp →
      (co'.entry id).pstate = .temp) :
    co'.HasTemp := by
  obtain ⟨id, inside, temp⟩ := hasTemp
  exact ⟨id, ids ▸ inside, stays id temp⟩

namespace Process

/-- What the threads know of participants in `P_TEMP`. -/
structure Joiners (p : Process) : Prop where
  resets : p.recovery = .running → p.threads.prog.Resets ∨
    p.threads.prog = .ret () ∧ p.threads.co.tmpNum = 0
  counted : p.recovery ≠ .running → p.threads.co.tmpNum ≠ 0 →
    p.threads.co.HasTemp
  awake : p.recovery.awake = true → p.threads.co.HasTemp
  counting : ∀ id, p.keepAlive id = .counting →
    (p.threads.co.entry id).pstate = .temp
  outside : ∀ id ∉ p.threads.co.ids,
    (p.threads.co.entry id).pstate = .waiting

namespace Joiners

variable {p p' : Process} {t : Threads}

/-- A step of the threads. -/
theorem kept
    (joiners : p.Joiners)
    (ok : p.Ok)
    (kept : Kept p.mode p.threads t)
    (stays : p.recovery ≠ .running → ∀ id,
      (p.threads.co.entry id).pstate = .temp → (t.co.entry id).pstate = .temp)
    (resets : p.recovery = .running → t.prog.Resets ∨
      t.prog = .ret () ∧ t.co.tmpNum = 0) :
    { p with threads := t }.Joiners where
  resets := resets
  counted := by
    intro other counted
    change t.co.tmpNum ≠ 0 at counted
    rw [kept.tmpNum (mode_of_ne other).1] at counted
    exact (joiners.counted other counted).mono kept.ids (stays other)
  awake := by
    intro isAwake
    have other : p.recovery ≠ .running := by
      intro running
      change p.recovery.awake = true at isAwake
      rw [running] at isAwake
      cases isAwake
    exact (joiners.awake isAwake).mono kept.ids (stays other)
  counting := by
    intro id isCounting
    have holds : (p.keepAlive id).hasMutex = true := by
      rw [show p.keepAlive id = .counting from isCounting]
      rfl
    have alone := ok.exclusive_keepAlive holds
    refine stays (fun running => ?_) id (joiners.counting id isCounting)
    rw [running] at alone
    cases alone
  outside := by
    intro id notMember
    change id ∉ t.co.ids at notMember
    rw [kept.ids] at notMember
    exact kept.waiting id (joiners.outside id notMember)

/-- Outside a recovery a thread assigns to variables that have nothing to do
with `P_TEMP`. -/
theorem assign
    (joiners : p.Joiners)
    (other : p.recovery ≠ .running)
    (change : Coordinator → Coordinator)
    (ids : (change p.threads.co).ids = p.threads.co.ids)
    (tmpNum : (change p.threads.co).tmpNum = p.threads.co.tmpNum)
    (pstate : ∀ id, ((change p.threads.co).entry id).pstate =
      (p.threads.co.entry id).pstate) :
    (p.assign change).Joiners where
  resets := fun running => absurd running other
  counted := by
    intro _ counted
    change (change p.threads.co).tmpNum ≠ 0 at counted
    rw [tmpNum] at counted
    exact (joiners.counted other counted).mono ids
      fun id temp => (pstate id).trans temp
  awake := fun isAwake => (joiners.awake isAwake).mono ids
    fun id temp => (pstate id).trans temp
  counting := fun id isCounting =>
    (pstate id).trans (joiners.counting id isCounting)
  outside := by
    intro id notMember
    change id ∉ (change p.threads.co).ids at notMember
    rw [ids] at notMember
    exact (pstate id).trans (joiners.outside id notMember)

/-- `_recoveryThread` goes on outside the recovery itself. -/
theorem setRecovery
    (joiners : p.Joiners)
    (before : p.recovery ≠ .running)
    {pc : RecoveryPc}
    (after : pc ≠ .running)
    (awake : pc.awake = true → p.threads.co.HasTemp)
    (workingMutex recoveryMutex : Option Holder) :
    { p with
      workingMutex := workingMutex
      recoveryMutex := recoveryMutex
      recovery := pc }.Joiners where
  resets := fun running => absurd running after
  counted := fun _ => joiners.counted before
  awake := awake
  counting := joiners.counting
  outside := joiners.outside

/-- A thread goes on in `keepAlive`. -/
theorem setKeepAlive
    (joiners : p.Joiners)
    {id : Nat}
    {pc : KeepAlivePc}
    (counting : pc = .counting → (p.threads.co.entry id).pstate = .temp)
    (mutex : Option Holder) :
    ({ p with recoveryMutex := mutex }.setKeepAlive id pc).Joiners := by
  refine ⟨joiners.resets, joiners.counted, joiners.awake, fun other => ?_,
    joiners.outside⟩
  change Function.update p.keepAlive id pc other = _ → _
  rw [Function.update_apply]
  split
  · rename_i same
    rw [same]
    exact counting
  · exact joiners.counting other

/-- A thread goes on in a function. -/
theorem run
    (joiners : p.Joiners)
    (ok : p.Ok)
    {return' : Process → Process}
    (returns : p.threads.prog = .ret () → (return' p).Joiners)
    (taken : p.run return' = some p') :
    p'.Joiners := by
  unfold Process.run at taken
  split at taken
  · rename_i isRet
    cases taken
    exact returns isRet
  · rename_i notRet
    obtain ⟨t, stepped, isNext⟩ := Option.map_eq_some_iff.mp taken
    subst isNext
    refine joiners.kept ok (ok.sim.kept_coordinate stepped)
      (fun other id temp => ?_) fun running => ?_
    · have sim := ok.sim
      rw [(mode_of_ne other).1] at sim
      exact (sim.pstate_coordinate stepped id).trans temp
    · rcases joiners.resets running with resets | ⟨isRet, _⟩
      · exact Threads.resets_coordinate resets stepped
      · exact absurd isRet (notRet ())

theorem stepWorking
    (joiners : p.Joiners)
    (ok : p.Ok)
    (taken : p.stepWorking = some p') :
    p'.Joiners := by
  have same : ∀ (mutex : Option Holder) (pc : WorkingPc),
      { p with workingMutex := mutex, working := pc }.Joiners :=
    fun _ _ => ⟨joiners.resets, joiners.counted, joiners.awake,
      joiners.counting, joiners.outside⟩
  have calls : ∀ {task : List Bytes} (call : Call),
      p.working = .locked task →
      { p.call call with working := .running }.Joiners := by
    intro task call isLocked
    have alone := ok.exclusive (by rw [isLocked]; rfl)
    refine ⟨fun running => ?_, joiners.counted, joiners.awake,
      joiners.counting, joiners.outside⟩
    rw [show p.recovery = .running from running] at alone
    cases alone
  unfold Process.stepWorking at taken
  split at taken
  · cases taken
  · split at taken
    · cases taken
      exact same _ _
    · cases taken
      exact same _ _
  · split at taken
    · cases taken
      exact same _ _
    · cases taken
  · rename_i task isLocked
    split at taken
    · cases taken
      exact calls _ isLocked
    · split at taken
      · cases taken
        exact calls _ isLocked
      · cases taken
        exact same _ _
  · exact joiners.run ok (fun _ => same _ _) taken
  · cases taken
    exact same _ _
  · cases taken
    exact same _ _

theorem stepRecovery
    (joiners : p.Joiners)
    (ok : p.Ok)
    (taken : p.stepRecovery = some p') :
    p'.Joiners := by
  have other : ∀ {pc}, p.recovery = pc → pc ≠ .running →
      p.recovery ≠ .running := by
    rintro _ rfl notRunning
    exact notRunning
  have asleep : ∀ {pc : RecoveryPc}, pc.awake = false →
      pc.awake = true → p.threads.co.HasTemp := by
    intro pc isFalse isTrue
    rw [isFalse] at isTrue
    cases isTrue
  unfold Process.stepRecovery at taken
  split at taken
  · rename_i isEntering
    cases taken
    exact joiners.setRecovery (other isEntering RecoveryPc.noConfusion)
      RecoveryPc.noConfusion (asleep rfl) _ _
  · rename_i minID isClearing
    cases taken
    have before := other isClearing RecoveryPc.noConfusion
    have cleared := joiners.assign before
      (fun co =>
        { co with entry := fun id => { co.entry id with maxTxid := none } })
      rfl rfl fun _ => rfl
    exact cleared.setRecovery before RecoveryPc.noConfusion
      (fun isAwake => Bool.noConfusion isAwake) _ _
  · rename_i minID isWaiting
    split at taken
    · cases taken
      exact joiners
    · rename_i counted
      cases taken
      have before := other isWaiting RecoveryPc.noConfusion
      exact joiners.setRecovery before RecoveryPc.noConfusion
        (fun _ => joiners.counted before counted) _ _
  · rename_i minID isWaking
    cases taken
    have before := other isWaking RecoveryPc.noConfusion
    have hasTemp := joiners.awake (by rw [isWaking]; rfl)
    have assigned := joiners.assign before
      (fun co => { co with cstate := .recovery })
      rfl rfl fun _ => rfl
    exact assigned.setRecovery before RecoveryPc.noConfusion
      (fun _ => hasTemp) _ _
  · rename_i minID isLocking
    split at taken
    · cases taken
      have hasTemp := joiners.awake (by rw [isLocking]; rfl)
      exact joiners.setRecovery (other isLocking RecoveryPc.noConfusion)
        RecoveryPc.noConfusion (fun _ => hasTemp) _ _
    · cases taken
  · rename_i minID isLocking
    split at taken
    · cases taken
      have hasTemp := joiners.awake (by rw [isLocking]; rfl)
      exact joiners.setRecovery (other isLocking RecoveryPc.noConfusion)
        RecoveryPc.noConfusion (fun _ => hasTemp) _ _
    · cases taken
  · rename_i minID isLocked
    cases taken
    exact ⟨fun _ => .inl (.recoveryBody minID), fun other => absurd rfl other,
      fun isAwake => Bool.noConfusion isAwake, joiners.counting,
      joiners.outside⟩
  · rename_i isRunning
    refine joiners.run ok (fun isRet => ?_) taken
    have zero : p.threads.co.tmpNum = 0 := by
      rcases joiners.resets isRunning with resets | ⟨_, zero⟩
      · rw [isRet] at resets
        exact resets.elim
      · exact zero
    exact ⟨fun running => RecoveryPc.noConfusion running,
      fun _ counted => absurd zero counted,
      fun isAwake => Bool.noConfusion isAwake, joiners.counting,
      joiners.outside⟩
  · rename_i isUnlocking
    cases taken
    exact joiners.setRecovery (other isUnlocking RecoveryPc.noConfusion)
      RecoveryPc.noConfusion (asleep rfl) _ _
  · rename_i isUnlocking
    cases taken
    exact joiners.setRecovery (other isUnlocking RecoveryPc.noConfusion)
      RecoveryPc.noConfusion (asleep rfl) _ _
  · rename_i isLeaving
    cases taken
    have before := other isLeaving RecoveryPc.noConfusion
    have assigned := joiners.assign before
      (fun co => { co with cstate := .working })
      rfl rfl fun _ => rfl
    exact assigned.setRecovery before RecoveryPc.noConfusion
      (fun isAwake => Bool.noConfusion isAwake) _ _

/-- A thread assigns to the state of its participant. -/
theorem assigns
    (joiners : p.Joiners)
    (ok : p.Ok)
    {id : Nat}
    (isAssigning : p.keepAlive id = .assigning) :
    ((p.assign fun co => co.setEntry id
        { co.entry id with pstate := .temp }).setKeepAlive id
      .counting).Joiners := by
  have inside := ok.states.member id (by
    rw [isAssigning]
    exact KeepAlivePc.noConfusion)
  have other : p.recovery ≠ .running := by
    have holds : (p.keepAlive id).hasMutex = true := by
      rw [isAssigning]
      rfl
    have alone := ok.exclusive_keepAlive holds
    intro running
    rw [running] at alone
    cases alone
  have own : ∀ some, ((p.threads.co.setEntry id
      { p.threads.co.entry id with pstate := .temp }).entry some).pstate =
        if some = id then .temp else (p.threads.co.entry some).pstate := by
    intro some
    rw [Coordinator.setEntry_entry]
    split
    · rfl
    · rfl
  have stays : ∀ some, (p.threads.co.entry some).pstate = .temp →
      ((p.threads.co.setEntry id
        { p.threads.co.entry id with pstate := .temp }).entry some).pstate =
          .temp := by
    intro some temp
    rw [own]
    split
    · rfl
    · exact temp
  refine ⟨fun running => absurd running other,
    fun _ counted => (joiners.counted other counted).mono rfl stays,
    fun isAwake => (joiners.awake isAwake).mono rfl stays, fun some => ?_,
    fun some notMember => ?_⟩
  · change Function.update p.keepAlive id .counting some = _ →
      ((p.threads.co.setEntry id _).entry some).pstate = _
    rw [Function.update_apply, own]
    split
    · exact fun _ => rfl
    · exact joiners.counting some
  · change ((p.threads.co.setEntry id _).entry some).pstate = _
    rw [own, if_neg]
    · exact joiners.outside some notMember
    · rintro rfl
      exact notMember inside

/-- A thread counts its participant. -/
theorem counts
    (joiners : p.Joiners)
    (ok : p.Ok)
    {id : Nat}
    (isCounting : p.keepAlive id = .counting) :
    ((p.assign fun co => { co with tmpNum := co.tmpNum + 1 }).setKeepAlive id
      .releasing).Joiners := by
  have inside := ok.states.member id (by
    rw [isCounting]
    exact KeepAlivePc.noConfusion)
  have temp := joiners.counting id isCounting
  have other : p.recovery ≠ .running := by
    have holds : (p.keepAlive id).hasMutex = true := by
      rw [isCounting]
      rfl
    have alone := ok.exclusive_keepAlive holds
    intro running
    rw [running] at alone
    cases alone
  have counted : (p.assign fun co =>
      { co with tmpNum := co.tmpNum + 1 }).Joiners :=
    ⟨fun running => absurd running other, fun _ _ => ⟨id, inside, temp⟩,
      joiners.awake, joiners.counting, joiners.outside⟩
  exact counted.setKeepAlive (fun isCounting =>
    KeepAlivePc.noConfusion isCounting) _

theorem stepKeepAlive
    (joiners : p.Joiners)
    (ok : p.Ok)
    {id : Nat}
    (taken : p.stepKeepAlive id = some p') :
    p'.Joiners := by
  unfold Process.stepKeepAlive at taken
  split at taken
  · split at taken
    · cases taken
      exact joiners.setKeepAlive (fun isCounting =>
        KeepAlivePc.noConfusion isCounting) _
    · cases taken
      exact joiners
  · split at taken
    · cases taken
      exact joiners
    · rename_i t connected
      cases taken
      obtain ⟨line, _, rfl⟩ := Threads.onLine_eq connected
      have same : { p with threads := { p.threads with
          line := Function.update p.threads.line id line } }.Joiners :=
        ⟨joiners.resets, joiners.counted, joiners.awake, joiners.counting,
          joiners.outside⟩
      exact same.setKeepAlive (fun isCounting =>
        KeepAlivePc.noConfusion isCounting) _
  · split at taken
    · cases taken
      exact joiners.setKeepAlive (fun isCounting =>
        KeepAlivePc.noConfusion isCounting) _
    · cases taken
  · rename_i isAssigning
    cases taken
    exact joiners.assigns ok isAssigning
  · rename_i isCounting
    cases taken
    exact joiners.counts ok isCounting
  · cases taken
    exact joiners.setKeepAlive (fun isCounting =>
      KeepAlivePc.noConfusion isCounting) _

/-- Every step keeps what is known of participants in `P_TEMP`. -/
theorem step
    (joiners : p.Joiners)
    (ok : p.Ok)
    {move : Move}
    (taken : p.step move = some p') :
    p'.Joiners := by
  cases move with
  | accept task =>
      simp only [Process.step] at taken
      split at taken
      · cases taken
        exact ⟨joiners.resets, joiners.counted, joiners.awake,
          joiners.counting, joiners.outside⟩
      · cases taken
  | working => exact joiners.stepWorking ok taken
  | recovery => exact joiners.stepRecovery ok taken
  | keepAlive id =>
      simp only [Process.step] at taken
      split at taken
      · exact joiners.stepKeepAlive ok taken
      · cases taken
  | worker act =>
      simp only [Process.step] at taken
      split at taken
      · rename_i isWorker
        obtain ⟨t, stepped, isNext⟩ := Option.map_eq_some_iff.mp taken
        subst isNext
        obtain ⟨_, prog⟩ := ok.balanced.worker ok.threads isWorker stepped
        have kept := (ok.sim.worker ok.threads isWorker stepped).2
        refine joiners.kept ok kept (fun other id temp => ?_)
          fun running => ?_
        · have sim := ok.sim
          rw [(mode_of_ne other).1] at sim
          exact sim.temp_worker ok.threads isWorker stepped temp
        · obtain ⟨entry, co⟩ := Threads.co_worker isWorker stepped
          rw [prog, co]
          exact joiners.resets running
      · cases taken
  | outside act =>
      simp only [Process.step] at taken
      split at taken
      · rename_i isOutside
        obtain ⟨t, stepped, isNext⟩ := Option.map_eq_some_iff.mp taken
        subst isNext
        obtain ⟨_, prog⟩ := ok.balanced.outside isOutside stepped
        have co := Threads.co_outside isOutside stepped
        have kept := (ok.sim.outside ok.threads isOutside stepped).2
        refine joiners.kept ok kept (fun _ id temp => ?_) fun running => ?_
        · rw [co]
          exact temp
        · rw [prog, co]
          exact joiners.resets running
      · cases taken

/-- A new process has nobody in `P_TEMP`. -/
theorem init
    {pnum : Nat}
    (starts : Starts pnum p) :
    p.Joiners := by
  obtain ⟨_, _⟩ := starts
  exact ⟨fun running => RecoveryPc.noConfusion running,
    fun _ counted => absurd rfl counted,
    fun isAwake => Bool.noConfusion isAwake,
    fun _ isCounting => KeepAlivePc.noConfusion isCounting, fun _ _ => rfl⟩

end Joiners
end Process
end Lab3
end CloudComputing
