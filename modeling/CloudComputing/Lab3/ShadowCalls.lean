import CloudComputing.Lab3.ShadowWorkers

/-!
# Calls beside prompt workers

Between two calls there is no task, so the coordinator and its participants
are at rest as in the system of calls.  From there a call of the threads is the
call of that system, with whatever fates its exchanges will have.
-/

namespace CloudComputing
namespace Lab3

open CloudComputing.Lab3.Parser Network

/-- The system is at rest, whatever records have been committed. -/
abbrev Sys.Rests (s : Sys) : Prop := AtRest (fun _ _ => True) s

/-- The system after a recovery: every participant works or waits. -/
structure Sys.Recovered (s : Sys) : Prop where
  rests : s.Rests
  pstate : ∀ id ∈ s.co.ids,
    (s.co.entry id).pstate = .working ∨ (s.co.entry id).pstate = .waiting

namespace Threads

/-- The participants behind the lines are at rest. -/
def Still (t : Threads) : Prop :=
  ∃ node, Sys.Rests { co := t.co, node := node } ∧
    ∀ id, Shows (t.co.entry id).pstate (node id) (t.line id)

variable
  {mode : Mode}
  {post : Sys → Prop}
  {t : Threads}

/-! ## The end of a call -/

/-- Outside a call nobody has a task. -/
theorem Ok.phase_of_ret
    (ok : t.Ok)
    (isRet : t.prog = .ret ()) :
    t.phase = postedOn [] := by
  have follows := ok.follows
  rw [isRet] at follows
  exact follows

theorem Ok.idle_of_ret
    (ok : t.Ok)
    (isRet : t.prog = .ret ())
    (port : Port) :
    ¬ t.Busy port := by
  intro busy
  have posted := ((ok.ports port).of_busy busy).1
  rw [ok.phase_of_ret isRet] at posted
  cases posted

theorem Ok.outside_of_ret
    (ok : t.Ok)
    (isRet : t.prog = .ret ())
    (port : Port) :
    (t.worker port).Outside :=
  fun _ _ exchange =>
    ok.idle_of_ret isRet port ((ok.ports port).busy_of_exchange exchange)

/-- Outside a call the two executions agree. -/
theorem Ok.prompt_of_ret
    (ok : t.Ok)
    (isRet : t.prog = .ret ())
    (base : Coordinator)
    (node : Nat → Node)
    (fates : Nat → List Fate) :
    t.prompt base node fates =
      Sys.withFates { co := base, node := node } fates := by
  have peer : t.promptPeer base node fates =
      fun id => (base.entry id, (node id).withFates (fates id)) := by
    funext id
    exact promptPeer_of_idle (fun port _ => ok.idle_of_ret isRet port) ..
  unfold prompt
  rw [peer]
  rfl

/-- At the end of a call the system is at rest again. -/
theorem Sim.still
    (sim : t.Sim mode Sys.Rests)
    (ok : t.Ok)
    (isRet : t.prog = .ret ()) :
    t.Still := by
  obtain ⟨base, node, lags, runs⟩ := sim
  obtain ⟨s, executed, rests⟩ := runs fun _ => []
  rw [isRet, ok.prompt_of_ret isRet] at executed
  cases executed
  have stands : ∀ id, Stands mode (base.entry id) (node id) (t.co.entry id)
      (t.line id) :=
    fun id => lags.stands id fun port _ => ok.outside_of_ret isRet port
  have node' : ∀ id, ∃ node', Behind mode (base.entry id) (node id)
      (t.co.entry id) node' ∧ Shows (t.co.entry id).pstate node' (t.line id) :=
    stands
  choose node' behind shows' using node'
  have ids : t.co.ids = base.ids := by
    rw [Coordinator.ids, Coordinator.ids, lags.pnum]
  refine ⟨node', ⟨?_, fun id inside => ?_⟩, shows'⟩
  · rw [lags.lg, lags.txid]
    exact rests.log
  · rw [show t.co.txid = base.txid from lags.txid]
    have state := rests.peers id (ids ▸ inside)
    exact (behind id).resting
      { valid := state.valid
        sound := state.sound.congr rfl rfl rfl state.sound.closed
        late := state.late
        connected := state.connected
        aligned := state.aligned }

/-- After a recovery every participant works or waits. -/
theorem Sim.recovered
    (sim : t.Sim .recovery Sys.Recovered)
    (ok : t.Ok)
    (isRet : t.prog = .ret ()) :
    t.Still ∧ ∀ id ∈ t.co.ids,
      (t.co.entry id).pstate = .working ∨
        (t.co.entry id).pstate = .waiting := by
  constructor
  · have rests : t.Sim .recovery Sys.Rests := by
      obtain ⟨base, node, lags, runs⟩ := sim
      refine ⟨base, node, lags, fun fates => ?_⟩
      obtain ⟨s, executed, recovered⟩ := runs fates
      exact ⟨s, executed, recovered.rests⟩
    exact rests.still ok isRet
  · obtain ⟨base, node, lags, runs⟩ := sim
    obtain ⟨s, executed, recovered⟩ := runs fun _ => []
    rw [isRet, ok.prompt_of_ret isRet] at executed
    cases executed
    intro id inside
    have same : t.co.entry id = base.entry id := by
      obtain ⟨node', behind, _⟩ :=
        lags.stands id fun port _ => ok.outside_of_ret isRet port
      exact behind.exact
    have ids : t.co.ids = base.ids := by
      rw [Coordinator.ids, Coordinator.ids, lags.pnum]
    rw [same]
    exact recovered.pstate id (ids ▸ inside)

/-! ## The start of a call -/

/-- The thread begins to execute a program. -/
theorem Still.lags
    (ok : t.Ok)
    (isRet : t.prog = .ret ())
    {node : Nat → Node}
    (shows' : ∀ id, Shows (t.co.entry id).pstate (node id) (t.line id))
    (prog : Prog Unit)
    (isLocal : prog.Local mode (fun _ phase => phase = postedOn [])
      (postedOn []))
    (recovery : mode = .recovery → t.co.Waits ∧
      prog.Guarded (fun _ _ _ => True) (postedOn []) t.co) :
    ({ t with prog := prog } : Threads).Lags mode t.co node := by
  have phase := ok.phase_of_ret isRet
  have notPosted : ∀ port, t.phase port ≠ .posted := by
    intro port posted
    rw [phase] at posted
    cases posted
  refine ⟨rfl, rfl, rfl, ?_, ?_, ?_, ?_, ?_, ?_, ?_, ?_, ?_⟩
  · change prog.Local mode (fun _ phase => phase = postedOn []) t.phase
    rw [phase]
    exact isLocal
  · intro _ id
    change t.phase _ = .idle
    rw [phase]
    rfl
  · exact fun port busy => absurd busy (ok.idle_of_ret isRet port)
  · exact fun id _ => ⟨node id, .refl mode _ _, shows' id⟩
  · exact fun port number text exchange =>
      absurd exchange (ok.outside_of_ret isRet port number text)
  · exact fun isRecovery => (recovery isRecovery).1
  · exact fun _ port posted => absurd posted (notPosted port)
  · exact fun _ id posted => absurd posted (notPosted _)
  · intro isRecovery
    obtain ⟨waits, guarded⟩ := recovery isRecovery
    rw [← phase] at guarded
    exact ⟨t.co, .refl waits, guarded⟩

/-- Without a call nothing is executed. -/
theorem Still.sim
    (still : t.Still)
    (ok : t.Ok)
    (isRet : t.prog = .ret ()) :
    t.Sim .work Sys.Rests := by
  obtain ⟨node, rests, shows'⟩ := still
  have lags : t.Lags .work t.co node := by
    have same : ({ t with prog := .ret () } : Threads) = t := by
      rw [← isRet]
    rw [← same]
    exact Still.lags ok isRet shows' _ rfl
      fun isRecovery => Mode.noConfusion isRecovery
  refine ⟨t.co, node, lags, fun fates => ?_⟩
  rw [isRet, ok.prompt_of_ret isRet]
  exact ⟨_, rfl, rests.withFates fates⟩

/-- `Working` calls `UpdateDB` or `Request`. -/
theorem Still.dispatch
    (still : t.Still)
    (ok : t.Ok)
    (isRet : t.prog = .ret ())
    {task : List Bytes}
    {call : Call}
    (called : isUpdate task = true ∧ call = .update (getRESPArry task) ∨
      isUpdate task = false ∧ isRequest task = true ∧
        call = .request (getRESPArry task)) :
    Sim .work Sys.Rests { t with prog := call.prog } := by
  obtain ⟨node, rests, shows'⟩ := still
  have isWork : call.mode = .work := by
    rcases called with ⟨_, rfl⟩ | ⟨_, _, rfl⟩
    · rfl
    · rfl
  refine ⟨t.co, node, Still.lags ok isRet shows' _ (isWork ▸ local_call call)
    fun isRecovery => Mode.noConfusion isRecovery, fun fates => ?_⟩
  have rests' := rests.withFates fates
  obtain ⟨reply, s', executed, dispatched⟩ :=
    exec_dispatch (Sys.withFates { co := t.co, node := node } fates) task
  refine ⟨s', ?_, (dispatched.atRest rests' fun _ _ _ => trivial).1⟩
  have same : call.prog = Lab3.dispatch task >>= fun _ => Pure.pure () := by
    unfold Lab3.dispatch
    rcases called with ⟨update, rfl⟩ | ⟨notUpdate, isRead, rfl⟩
    · rw [if_pos update]
      rfl
    · rw [if_neg (by rw [notUpdate]; exact Bool.false_ne_true), if_pos isRead]
      rfl
  change call.prog.exec (t.prompt t.co node fates) = _
  rw [same, ok.prompt_of_ret isRet, Prog.exec_bind, executed]
  rfl

/-- `Recovery` runs under both mutexes. -/
theorem Still.recovery
    (still : t.Still)
    (ok : t.Ok)
    (isRet : t.prog = .ret ())
    {minID : Nat}
    (lower : txidStart ≤ minID + 1)
    (older : minID + 1 ≤ t.co.txid)
    (table : ∀ id, (t.co.entry id).maxTxid = none) :
    Sim .recovery Sys.Recovered
      { t with prog := (Call.recovery minID).prog } := by
  obtain ⟨node, rests, shows'⟩ := still
  have waits : t.co.Waits := fun id _ => table id
  have guarded : (recoveryBody minID).Guarded (fun _ _ _ => True)
      (postedOn []) t.co :=
    (Prog.Guarded.recoveryBody minID t.co).mono fun _ _ _ _ => trivial
  refine ⟨t.co, node, Still.lags ok isRet shows' _ (.recoveryBody minID)
    fun _ => ⟨waits, guarded⟩, fun fates => ?_⟩
  have rests' := rests.withFates fates
  obtain ⟨s', executed, log, advanced, settled⟩ :=
    exec_recoveryBody rests'.log
      (fun id inside => (rests'.peers id inside).joining (table id)) lower older
  refine ⟨s', ?_, ⟨log, fun id inside => ?_⟩, fun id inside => ?_⟩
  · change (recoveryBody minID).exec (t.prompt t.co node fates) = _
    rw [ok.prompt_of_ret isRet]
    exact executed
  · exact .of_settled (settled id (advanced.ids ▸ inside))
  · have state := settled id (advanced.ids ▸ inside)
    by_cases working : (s'.co.entry id).pstate = .working
    · exact .inl working
    · exact .inr (state.others working)

end Threads
end Lab3
end CloudComputing
