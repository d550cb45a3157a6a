import CloudComputing.Lab3.Calls
import CloudComputing.Lab3.CatchingUp
import CloudComputing.Lab3.Likeness
import CloudComputing.Lab3.ShadowCalls

/-!
# The system of calls beside the threads

While no program runs, the threads stand where a run of the system of calls
stands (`Accompanied`): the same log and number, every participant in the same
state with the same process, and the recovery that has begun with the same
`minID`.  A call of the threads continues that run by the events of the call.

The run takes the steps of `Recovery` from the end of its waiting loop on at
once, when the threads execute its program.
-/

namespace CloudComputing
namespace Lab3

open CloudComputing.Lab3.Parser Network

/-- A state of the system of calls with these variables and participants, apart
from what no call uses. -/
structure World.Mirrors
    (stage : RecoveryPhase)
    (s : Sys)
    (w : World) : Prop where
  phase : w.phase = stage
  pending : w.pending = none
  txid : w.sys.co.txid = s.co.txid
  lg : w.sys.co.lg = s.co.lg
  pnum : w.sys.co.pnum = s.co.pnum
  slots : ∀ id, (w.sys.co.entry id).slots = (s.co.entry id).slots
  pstate : ∀ id, (w.sys.co.entry id).pstate = (s.co.entry id).pstate
  node : ∀ id ∈ s.co.ids, (w.sys.node id).bare = (s.node id).bare
  table : ∀ minID, stage = .waiting minID →
    ∀ id, (w.sys.co.entry id).maxTxid = none

/-- The system of calls comes from `start` to a state that mirrors `s`,
receiving no other commands than these; it works on commands if `ready`. -/
def Accompanied
    (start : World)
    (phase : RecoveryPhase)
    (ready : Prop)
    (commands : List (List Bytes))
    (s : Sys) : Prop :=
  ∃ events w, World.Lives start events w ∧
    (World.commands events).Sublist commands ∧
    (ready → w.sys.co.cstate = .working) ∧ w.Mirrors phase s

namespace World.Mirrors

variable
  {phase : RecoveryPhase}
  {s s' : Sys}
  {w : World}

theorem ids (mirrors : w.Mirrors phase s) : w.sys.co.ids = s.co.ids := by
  rw [Coordinator.ids, Coordinator.ids, mirrors.pnum]

/-- The exchanges to come do not matter. -/
theorem withFates
    (mirrors : w.Mirrors phase s)
    (fates : Nat → List Fate) :
    w.Mirrors phase (s.withFates fates) :=
  { mirrors with }

theorem of_withFates
    {fates : Nat → List Fate}
    (mirrors : w.Mirrors phase (s.withFates fates)) :
    w.Mirrors phase s :=
  { mirrors with }

/-- `Working` treats both alike, with the same fates. -/
theorem like
    (mirrors : w.Mirrors phase s)
    (fates : Nat → List Fate) :
    (w.sys.withFates fates).Like .work (s.withFates fates) where
  txid := mirrors.txid.symm
  lg := mirrors.lg.symm
  pnum := mirrors.pnum.symm
  entry := fun id => ⟨(mirrors.slots id).symm, (mirrors.pstate id).symm,
    fun isRecovery => Mode.noConfusion isRecovery⟩
  node := fun id inside =>
    congrArg (fun node => { node with fates := fates id })
      (mirrors.node id (mirrors.ids ▸ inside)).symm

/-- The entries of a recovery that has cleared the table. -/
theorem entry
    {minID : Nat}
    (mirrors : w.Mirrors (.waiting minID) s)
    {id : Nat}
    (table : (s.co.entry id).maxTxid = none) :
    s.co.entry id = w.sys.co.entry id := by
  have slots := mirrors.slots id
  have pstate := mirrors.pstate id
  have cleared := mirrors.table minID rfl id
  generalize s.co.entry id = entry at *
  generalize w.sys.co.entry id = entry' at *
  cases entry
  cases entry'
  simp only [Entry.slots, Prod.mk.injEq] at slots pstate table cleared
  simp only [slots, pstate, table, cleared]

end World.Mirrors

namespace Accompanied

variable
  {start : World}
  {phase : RecoveryPhase}
  {ready ready' : Prop}
  {commands commands' : List (List Bytes)}
  {s : Sys}

/-- Less is claimed. -/
theorem mono
    (accompanied : Accompanied start phase ready commands s)
    (isReady : ready' → ready)
    (more : commands.Sublist commands') :
    Accompanied start phase ready' commands' s := by
  obtain ⟨events, w, run, received, working, mirrors⟩ := accompanied
  exact ⟨events, w, run, received.trans more, fun is => working (isReady is),
    mirrors⟩

theorem withFates
    (accompanied : Accompanied start phase ready commands s)
    (fates : Nat → List Fate) :
    Accompanied start phase ready commands (s.withFates fates) := by
  obtain ⟨events, w, run, received, working, mirrors⟩ := accompanied
  exact ⟨events, w, run, received, working, mirrors.withFates fates⟩

/-- `Recovery` is called. -/
theorem enter
    (accompanied : Accompanied start .idle ready commands s) :
    Accompanied start (.waiting (s.co.txid - 1)) ready commands s := by
  obtain ⟨events, w, run, received, working, mirrors⟩ := accompanied
  let next : World :=
    { w with sys := w.sys.clearTable, phase := .waiting (s.co.txid - 1) }
  have entered : w.step .recoveryEnter = some next := by
    simp only [World.step, mirrors.phase, mirrors.txid, next]
  refine ⟨events ++ [.recoveryEnter], next,
    run.append (.single Event.noConfusion entered), ?_, working,
    ⟨rfl, mirrors.pending, mirrors.txid, mirrors.lg, mirrors.pnum,
      mirrors.slots, mirrors.pstate, mirrors.node, fun _ _ _ => rfl⟩⟩
  rw [World.commands_append]
  simpa [World.commands] using received

end Accompanied

namespace Threads

variable
  {mode : Mode}
  {t : Threads}
  {start : World}
  {phase : RecoveryPhase}
  {ready : Prop}
  {commands : List (List Bytes)}

/-- No program runs, and the threads stand where a run of the system of calls
does. -/
def Rests
    (t : Threads)
    (start : World)
    (phase : RecoveryPhase)
    (ready : Prop)
    (commands : List (List Bytes)) : Prop :=
  ∃ node, (∀ id, Shows (t.co.entry id).pstate (node id) (t.line id)) ∧
    Accompanied start phase ready commands { co := t.co, node := node }

theorem commands_of_drifts
    {w w' : World}
    {events : List Event}
    (run : World.Drifts w events w') :
    World.commands events = [] := by
  rw [World.commands, List.filterMap_eq_nil_iff]
  intro event member
  obtain ⟨_, isLocal⟩ := run.exists_guard event member
  cases event with
  | request task => cases isLocal
  | _ => rfl

/-- At the end of a call the system catches up with the threads. -/
theorem Sim.rests
    (sim : t.Sim mode (Accompanied start phase ready commands))
    (ok : t.Ok)
    (isRet : t.prog = .ret ())
    (outside : ∀ id ∉ t.co.ids, (t.co.entry id).pstate ≠ .temp) :
    t.Rests start phase ready commands := by
  obtain ⟨base, node, lags, runs⟩ := sim
  obtain ⟨s, executed, accompanied⟩ := runs fun _ => []
  rw [isRet, ok.prompt_of_ret isRet] at executed
  cases executed
  obtain ⟨events, w, run, received, working, mirrors⟩ := accompanied
  have mirrors := mirrors.of_withFates
  have stands : ∀ id, ∃ node', Behind mode (base.entry id) (node id)
      (t.co.entry id) node' ∧ Shows (t.co.entry id).pstate node' (t.line id) :=
    fun id => lags.stands id fun port _ => ok.outside_of_ret isRet port
  choose node' behind shows' using stands
  have ids : w.sys.co.ids = t.co.ids := by
    rw [mirrors.ids, Coordinator.ids, Coordinator.ids, lags.pnum]
  have outsidePstate : ∀ id ∉ t.co.ids,
      (t.co.entry id).pstate = (base.entry id).pstate := by
    intro id notMember
    cases behind id with
    | same slots pstate exact before => exact pstate
    | joined isWork slots waiting temp =>
        exact absurd temp (outside id notMember)
  obtain ⟨further, w', drift, apart, reached⟩ :=
    World.catches_up (List.Subset.refl w.sys.co.ids) w.sys.co.nodup_ids
      fun id inside => ⟨mode, base.entry id, node id, behind id,
        mirrors.pstate id, mirrors.node id (mirrors.ids ▸ inside)⟩
  refine ⟨node', shows', events ++ further, w', run.append (drift.mono ?_),
    ?_, fun is => apart.cstate.trans (working is), ?_⟩
  · intro _ event isLocal restarts
    rw [restarts] at isLocal
    cases isLocal
  · rw [World.commands_append, commands_of_drifts drift, List.append_nil]
    exact received
  · refine ⟨apart.phase.trans mirrors.phase,
      apart.pending.trans mirrors.pending,
      (apart.txid.trans mirrors.txid).trans lags.txid.symm,
      (apart.lg.trans mirrors.lg).trans lags.lg.symm,
      (apart.pnum.trans mirrors.pnum).trans lags.pnum.symm,
      fun id => ?_, fun id => ?_, fun id inside => ?_,
      fun minID isWaiting id => ?_⟩
    · exact ((apart.slots id).trans (mirrors.slots id)).trans
        (behind id).slots.symm
    · by_cases inside : id ∈ t.co.ids
      · exact (reached id (ids ▸ inside)).1
      · rw [(apart.others id (ids ▸ inside)).1, mirrors.pstate id]
        exact (outsidePstate id inside).symm
    · exact (reached id (ids ▸ inside)).2
    · rw [apart.maxTxid]
      exact mirrors.table minID isWaiting id

/-- Less is claimed of the end of the call. -/
theorem Sim.mono
    {post post' : Sys → Prop}
    (sim : t.Sim mode post)
    (weaker : ∀ s, post s → post' s) :
    t.Sim mode post' := by
  obtain ⟨base, node, lags, runs⟩ := sim
  refine ⟨base, node, lags, fun fates => ?_⟩
  obtain ⟨s, executed, holds⟩ := runs fates
  exact ⟨s, executed, weaker s holds⟩

theorem Rests.mono
    (rests : t.Rests start phase ready commands)
    {ready' : Prop}
    (isReady : ready' → ready) :
    t.Rests start phase ready' commands := by
  obtain ⟨node, shows', accompanied⟩ := rests
  exact ⟨node, shows', accompanied.mono isReady (.refl _)⟩

/-- `Recovery` is called while no program runs. -/
theorem Rests.enter
    (rests : t.Rests start .idle ready commands) :
    t.Rests start (.waiting (t.co.txid - 1)) ready commands := by
  obtain ⟨node, shows', accompanied⟩ := rests
  exact ⟨node, shows', accompanied.enter⟩

/-- Between two calls. -/
theorem Rests.sim
    (rests : t.Rests start phase ready commands)
    (ok : t.Ok)
    (isRet : t.prog = .ret ()) :
    t.Sim .work (Accompanied start phase ready commands) := by
  obtain ⟨node, shows', accompanied⟩ := rests
  have lags : t.Lags .work t.co node := by
    have same : ({ t with prog := .ret () } : Threads) = t := by
      rw [← isRet]
    rw [← same]
    exact Still.lags ok isRet shows' _ rfl
      fun isRecovery => Mode.noConfusion isRecovery
  refine ⟨t.co, node, lags, fun fates => ?_⟩
  rw [isRet, ok.prompt_of_ret isRet]
  exact ⟨_, rfl, accompanied.withFates fates⟩

/-! ## The start of a call -/

/-- `Working` calls `UpdateDB` or `Request`: the system receives the command
and works on it. -/
theorem Rests.dispatch
    (rests : t.Rests start phase True commands)
    (ok : t.Ok)
    (isRet : t.prog = .ret ())
    {task : List Bytes}
    (nonempty : ¬ task.length < 1)
    {call : Call}
    (called : isUpdate task = true ∧ call = .update (getRESPArry task) ∨
      isUpdate task = false ∧ isRequest task = true ∧
        call = .request (getRESPArry task)) :
    Sim .work (Accompanied start phase True (commands ++ [task]))
      { t with prog := call.prog } := by
  obtain ⟨node, shows', events, w, run, received, working, mirrors⟩ := rests
  have isWork : call.mode = .work := by
    rcases called with ⟨_, rfl⟩ | ⟨_, _, rfl⟩
    · rfl
    · rfl
  have same : call.prog = Lab3.dispatch task >>= fun _ => Pure.pure () := by
    unfold Lab3.dispatch
    rcases called with ⟨update, rfl⟩ | ⟨notUpdate, isRead, rfl⟩
    · rw [if_pos update]
      rfl
    · rw [if_neg (by rw [notUpdate]; exact Bool.false_ne_true), if_pos isRead]
      rfl
  have isLocal : call.prog.Local .work (fun _ phase => phase = postedOn [])
      (postedOn []) := isWork ▸ local_call call
  refine ⟨t.co, node, Still.lags ok isRet shows' _ isLocal
    fun isRecovery => Mode.noConfusion isRecovery, fun fates => ?_⟩
  obtain ⟨reply, sys, executed, dispatched⟩ :=
    exec_dispatch (w.sys.withFates fates) task
  have called' : call.prog.exec (w.sys.withFates fates) = some ((), sys) := by
    rw [same, Prog.exec_bind, executed]
    rfl
  obtain ⟨s', executed', like⟩ := Prog.exec_like isLocal
    (among_call _ call) (mirrors.like fates) called'
  have ids : s'.co.ids = sys.co.ids := like.ids
  refine ⟨s', ?_, events ++ [.request task, .serve fates], _,
    run.append (World.lives_serve mirrors.pending (working trivial) nonempty
      executed), ?_, ?_, ?_⟩
  · change call.prog.exec (t.prompt t.co node fates) = _
    rw [ok.prompt_of_ret isRet]
    exact executed'
  · rw [World.commands_append]
    exact received.append (.refl _)
  · exact fun _ => dispatched.calm.cstate.trans (working trivial)
  · refine ⟨mirrors.phase, rfl, like.txid.symm, like.lg.symm, like.pnum.symm,
      fun id => (like.entry id).slots.symm,
      fun id => (like.entry id).pstate.symm,
      fun id inside => congrArg Node.bare (like.node id (ids ▸ inside)).symm,
      fun minID isWaiting id => ?_⟩
    exact (dispatched.maxTxid id).trans (mirrors.table minID isWaiting id)

/-- `Recovery` runs under both mutexes: the system leaves the waiting loop and
runs to the end of the call. -/
theorem Rests.recovery
    {pnum : Nat}
    (reachable : World.Reachable pnum start)
    {minID : Nat}
    (rests : t.Rests start (.waiting minID) ready commands)
    (ok : t.Ok)
    (isRet : t.prog = .ret ())
    (table : ∀ id, (t.co.entry id).maxTxid = none)
    (temp : ∃ id ∈ t.co.ids, (t.co.entry id).pstate = .temp) :
    Sim .recovery (Accompanied start .idle True commands)
      { t with prog := (Call.recovery minID).prog } := by
  obtain ⟨node, shows', events, w, run, received, _, mirrors⟩ := rests
  have isReachable := run.reachable reachable
  have counted : w.sys.co.tmpNum ≠ 0 := by
    obtain ⟨id, inside, isTemp⟩ := temp
    refine isReachable.counts ⟨id, mirrors.ids ▸ inside, ?_⟩
    rw [mirrors.pstate]
    exact isTemp
  have waits : t.co.Waits := fun id _ => table id
  have guarded : (recoveryBody minID).Guarded (fun _ _ _ => True)
      (postedOn []) t.co :=
    (Prog.Guarded.recoveryBody minID t.co).mono fun _ _ _ _ => trivial
  refine ⟨t.co, node, Still.lags ok isRet shows' _ (.recoveryBody minID)
    fun _ => ⟨waits, guarded⟩, fun fates => ?_⟩
  -- The recovery fails no assertion in the system of calls.
  have isOk := isReachable.ok
  obtain ⟨lower, older, cleared⟩ :=
    isOk.recovery minID (Or.inl mirrors.phase)
  have rest := isOk.rest.withFates fates
  obtain ⟨sys, executed, _⟩ := exec_recoveryBody
    (s := (w.sys.setCState .recovery).withFates fates) rest.log
    (fun id inside => (rest.peers id inside).joining (cleared id inside))
    lower older
  have like : ((w.sys.setCState .recovery).withFates fates).Like .recovery
      (Sys.withFates { co := t.co, node := node } fates) := by
    have weaker := mirrors.like fates
    refine ⟨weaker.txid, weaker.lg, weaker.pnum, fun id => ?_, weaker.node⟩
    have same := mirrors.entry (table id)
    exact ⟨congrArg Entry.slots same, congrArg Entry.pstate same,
      fun _ => same⟩
  obtain ⟨s', executed', like'⟩ := Prog.exec_like (.recoveryBody minID)
    (.recoveryBody minID) like executed
  refine ⟨s', ?_, events ++ [.recoveryWake, .recoveryRun fates,
    .recoveryLeave], _, run.append (World.lives_recover mirrors.phase counted
      executed), ?_, fun _ => rfl, ?_⟩
  · change (recoveryBody minID).exec (t.prompt t.co node fates) = _
    rw [ok.prompt_of_ret isRet]
    exact executed'
  · rw [World.commands_append]
    simpa [World.commands] using received
  · exact ⟨rfl, mirrors.pending, like'.txid.symm, like'.lg.symm,
      like'.pnum.symm, fun id => (like'.entry id).slots.symm,
      fun id => (like'.entry id).pstate.symm,
      fun id inside =>
        congrArg Node.bare (like'.node id (like'.ids ▸ inside)).symm,
      fun _ isWaiting => by cases isWaiting⟩

end Threads
end Lab3
end CloudComputing
