import CloudComputing.Lab3.Tracking

/-!
# The process refines the system of calls

Every run of the coordinator process, with all its threads interleaved, is
followed by a run of the system in which each call is one event.  Whenever
`_workingMutex` is free the two agree, so what holds in the system of calls
holds for the threads.
-/

namespace CloudComputing
namespace Lab3

open CloudComputing.Lab3.Parser Network

/-- What a participant shows does not depend on the fates to come. -/
theorem Shows.of_bare
    {pstate : PState}
    {node node' : Node}
    {line : Line}
    (shows' : Shows pstate node line)
    (same : node'.bare = node.bare) :
    Shows pstate node' line := by
  have proc : node'.bare.proc = node.bare.proc := by rw [same]
  have late : node'.bare.late = node.bare.late := by rw [same]
  have link : node'.bare.link = node.bare.link := by rw [same]
  change node'.proc = node.proc at proc
  change node'.late = node.late at late
  change node'.link = node.link at link
  refine ⟨shows'.proc.trans proc.symm, late ▸ shows'.left, shows'.peer,
    fun awake => ?_⟩
  obtain ⟨linked, old, isLink⟩ := shows'.linked awake
  exact ⟨linked, old, link.trans isLink⟩

/-- The texts of the updates among some commands. -/
def updates (tasks : List (List Bytes)) : List Bytes :=
  (tasks.filter (isUpdate ·)).map getRESPArry

theorem updates_append (tasks further : List (List Bytes)) :
    updates (tasks ++ further) = updates tasks ++ updates further := by
  rw [updates, List.filter_append, List.map_append, updates, updates]

theorem updates_sublist
    {tasks further : List (List Bytes)}
    (sublist : tasks.Sublist further) :
    (updates tasks).Sublist (updates further) :=
  (sublist.filter _).map _

namespace World

/-- An event serves the command that was pending, or leaves one pending that it
has received. -/
theorem submits_step
    {w next : World}
    {event : Event}
    (taken : w.step event = some next) :
    ((w.submits event).map Log.event ++
        updates next.pending.toList).Sublist
      (updates (w.pending.toList ++ commands [event])) := by
  have same : next.pending = w.pending →
      (updates next.pending.toList).Sublist
        (updates (w.pending.toList ++ [])) := by
    intro pending
    rw [pending, List.append_nil]
  have onNode : ∀ {id : Nat} {change : Node → Node},
      w.onNode id change = some next → next.pending = w.pending := by
    intro id change changed
    rw [World.onNode] at changed
    split at changed
    · cases changed
      rfl
    · cases changed
  cases event with
  | drop id =>
      change w.onNode id (fun node => { node with link := false }) = _ at taken
      exact same (onNode taken)
  | crash id =>
      change w.onNode id Node.crash = _ at taken
      exact same (onNode taken)
  | drain id =>
      change w.onNode id Node.drain = _ at taken
      exact same (onNode taken)
  | lose id =>
      change w.onNode id (fun node => { node with late := none }) = _ at taken
      exact same (onNode taken)
  | reconnect id =>
      simp only [World.step] at taken
      split at taken
      · cases taken
        exact same rfl
      · cases taken
  | restart =>
      cases taken
      exact List.nil_sublist _
  | recoveryEnter =>
      simp only [World.step] at taken
      split at taken
      · cases taken
        exact same rfl
      · cases taken
  | recoveryWake =>
      simp only [World.step] at taken
      split at taken
      · split at taken
        · cases taken
          exact same rfl
        · cases taken
      · cases taken
  | recoveryRun fates =>
      simp only [World.step] at taken
      split at taken
      · obtain ⟨_, _, isNext⟩ := Option.bind_eq_some_iff.mp taken
        cases isNext
        exact same rfl
      · cases taken
  | recoveryLeave =>
      simp only [World.step] at taken
      split at taken
      · cases taken
        exact same rfl
      · cases taken
  | request task =>
      simp only [World.step] at taken
      split at taken
      · cases taken
      · rename_i isNone
        split at taken
        · cases taken
          change (updates w.pending.toList).Sublist _
          rw [isNone]
          exact List.nil_sublist _
        · cases taken
          rw [isNone]
          exact .refl _
  | serve fates =>
      simp only [World.step] at taken
      split at taken
      · cases taken
      · rename_i task isPending
        obtain ⟨_, _, isNext⟩ := Option.bind_eq_some_iff.mp taken
        cases isNext
        rw [submits, isPending]
        cases update : isUpdate task with
        | true => simp [updates, update, commands]
        | false => simp [updates, update, commands]

/-- The updates of a run are among the command that was pending and the
commands that it received, in their order. -/
theorem submitted_sublist
    {w w' : World}
    {events : List Event}
    (run : Run step Run.free w events w') :
    ((w.submitted events).map Log.event).Sublist
      (updates (w.pending.toList ++ commands events)) := by
  induction run with
  | nil => exact List.nil_sublist _
  | @cons w next last event events _ taken _ inductionHypothesis =>
      have first := submits_step taken
      have split : commands (event :: events) =
          commands [event] ++ commands events := by
        rw [← commands_append]
        rfl
      rw [submitted_cons taken, List.map_append, split, ← List.append_assoc,
        updates_append]
      rw [updates_append] at inductionHypothesis
      refine (inductionHypothesis.append_left _).trans ?_
      rw [← List.append_assoc]
      exact first.append_right _

end World

namespace Process

variable
  {pnum : Nat}
  {w : World}
  {start p : Process}
  {moves : List Move}

theorem StartsAt.starts
    (reachable : World.Reachable pnum w)
    (starts : StartsAt pnum w p) :
    Starts pnum p := by
  obtain ⟨left⟩ := starts
  exact .init reachable left

/-- What is known at the end of a run. -/
theorem Tracks.run
    {system : World}
    (reachable : World.Reachable pnum system)
    (run : Run Process.step Run.free start moves p)
    {accepted : List (List Bytes)}
    (tracks : start.Tracks system accepted)
    (ok : start.Ok)
    (joiners : start.Joiners) :
    p.Tracks system (accepted ++ acceptedBy moves) ∧ p.Ok ∧ p.Joiners := by
  induction run generalizing accepted with
  | nil =>
      rw [acceptedBy, List.flatMap_nil, List.append_nil]
      exact ⟨tracks, ok, joiners⟩
  | @cons _ _ _ move moves _ taken _ inductionHypothesis =>
      have done := inductionHypothesis (tracks.step reachable ok joiners taken)
        (ok.step taken) (joiners.step ok taken)
      rw [List.append_assoc] at done
      exact done

/-- The process and its participants stand where the system of calls does. -/
structure At (w : World) (p : Process) : Prop where
  txid : w.sys.co.txid = p.threads.co.txid
  lg : w.sys.co.lg = p.threads.co.lg
  ids : w.sys.co.ids = p.threads.co.ids
  phase : w.phase = p.stage
  working : p.threads.co.cstate = .working → w.sys.co.cstate = .working
  peers : ∀ id ∈ p.threads.co.ids,
    (w.sys.co.entry id).pstate = (p.threads.co.entry id).pstate ∧
      Shows (p.threads.co.entry id).pstate (w.sys.node id) (p.threads.line id)

/-- While `_workingMutex` is free no program runs. -/
theorem Ok.idle_of_free
    (ok : p.Ok)
    (free : p.workingMutex = none) :
    p.recovery ≠ .running ∧ p.threads.prog = .ret () := by
  have nobody : ∀ holder, p.hasWorking holder = false := by
    intro holder
    apply Bool.eq_false_of_not_eq_true
    intro own
    have isOwner := (ok.mutexes.working holder).mpr own
    rw [free] at isOwner
    cases isOwner
  have notWorking : p.working ≠ .running := by
    intro running
    have none : p.working.hasMutex = false := nobody .work
    rw [running] at none
    cases none
  have notRecovery : p.recovery ≠ .running := by
    intro running
    have none : p.recovery.hasWorking = false := nobody .recovery
    rw [running] at none
    cases none
  exact ⟨notRecovery, ok.idle notWorking notRecovery⟩

/-- While `_workingMutex` is free the system has come to where the process is,
and follows it from there. -/
theorem Tracks.at_rest
    {system : World}
    {accepted : List (List Bytes)}
    (tracks : p.Tracks system accepted)
    (ok : p.Ok)
    (joiners : p.Joiners)
    (free : p.workingMutex = none) :
    ∃ events reached, World.Lives system events reached ∧
      (World.commands events).Sublist accepted ∧ p.At reached ∧
      p.Tracks reached p.working.task := by
  obtain ⟨other, isRet⟩ := ok.idle_of_free free
  obtain ⟨commands, received, node, shows', events, reached, lives, sublist,
    working, mirrors⟩ := tracks.rests ok joiners isRet
  refine ⟨events, reached, lives, sublist.trans
    ((List.sublist_append_left _ _).trans received), ⟨mirrors.txid, mirrors.lg,
    mirrors.ids, mirrors.phase, fun is => working (.inl is),
    fun id inside => ⟨mirrors.pstate id, ?_⟩⟩, ⟨[], .refl _, ?_,
    fun isEarly => absurd isRet isEarly.2.2⟩, tracks.nonempty, tracks.steady⟩
  · exact (shows' id).of_bare (mirrors.node id inside)
  · have rests : p.threads.Rests reached p.stage p.ready [] :=
      ⟨node, shows', [], reached, .nil _, .refl _, working, mirrors⟩
    rw [(mode_of_ne other).1]
    exact rests.sim ok.threads isRet

theorem restarted_reachable (reachable : World.Reachable pnum w) :
    World.Reachable pnum (restarted w) := by
  obtain ⟨before, came⟩ := reachable
  have restarts : w.step .restart = some (restarted w) := rfl
  exact ⟨_, came.append (.single trivial restarts)⟩

end Process

/-- The coordinator process refines the system of calls.  However its threads
are interleaved, whenever `_workingMutex` is free the process stands where a
run of the system stands that has received no other commands than those the
process has accepted, in the same order; and whenever the mutex is free later,
the process stands where that run goes on to. -/
theorem process_refines
    {pnum : Nat}
    {w : World}
    (reachable : World.Reachable pnum w)
    {start p : Process}
    (starts : Process.StartsAt pnum w start)
    {moves : List Move}
    (run : Run Process.step Run.free start moves p)
    (free : p.workingMutex = none) :
    ∃ events system, World.Lives (Process.restarted w) events system ∧
      (World.commands events).Sublist (Process.acceptedBy moves) ∧
      p.At system ∧
      ∀ later p', Run Process.step Run.free p later p' →
        p'.workingMutex = none →
        ∃ events' system', World.Lives system events' system' ∧
          (World.commands events').Sublist
            (p.working.task ++ Process.acceptedBy later) ∧
          p'.At system' := by
  have started := starts.starts reachable
  have begun := Process.restarted_reachable reachable
  obtain ⟨tracks, ok, joiners⟩ := Process.Tracks.run begun run
    (.init reachable starts) (.init started) (.init started)
  obtain ⟨events, system, lives, sublist, isAt, tracks'⟩ :=
    tracks.at_rest ok joiners free
  refine ⟨events, system, lives, sublist, isAt, fun later p' run' free' => ?_⟩
  obtain ⟨tracks'', ok', joiners'⟩ := Process.Tracks.run
    (lives.reachable begun) run' tracks' ok joiners
  obtain ⟨events', system', lives', sublist', isAt', _⟩ :=
    tracks''.at_rest ok' joiners' free'
  exact ⟨events', system', lives', sublist', isAt'⟩

/-- The moves of one exchange with the first participant. -/
def Process.exchangeMoves (port : Port) : List Move :=
  List.replicate 5 (.worker (.work port)) ++
    [.outside (.serve 1 []), .worker (.receive port [])] ++
    List.replicate 5 (.worker (.work port))

/-- The moves with which the first participant comes to work. -/
def Process.joinMoves : List Move :=
  List.replicate 6 (.keepAlive 1) ++ List.replicate 14 .recovery ++
    exchangeMoves (.recov 1) ++ List.replicate 12 .recovery

/-- The moves of an update of the first participant. -/
def Process.updateMoves (task : List Bytes) : List Move :=
  .accept task :: List.replicate 10 .working ++ exchangeMoves (.work 1) ++
    List.replicate 10 .working ++ exchangeMoves (.work 1) ++
    List.replicate 10 .working

theorem process_refines_written :
    ∃ p system, Run Process.step Run.free Process.single
        (Process.joinMoves ++
          Process.updateMoves [str "SET", str "k", str "v"]) p ∧
      World.Reachable 1 system ∧ system.sys.co.txid = txidStart + 1 ∧
      (system.sys.node 1).proc.kvdb (str "k") = some (str "v") := by
  obtain ⟨p, executed, seen⟩ := (Option.any_eq_true
    (fun p : Process => decide (p.workingMutex = none ∧
      1 ∈ p.threads.co.ids ∧ p.threads.co.txid = txidStart + 1 ∧
      (p.threads.line 1).proc.kvdb (str "k") = some (str "v")))
    ((Process.joinMoves ++
        Process.updateMoves [str "SET", str "k", str "v"]).foldlM Process.step
      Process.single)).mp (by decide +kernel)
  rw [decide_eq_true_eq] at seen
  obtain ⟨free, inside, txid, value⟩ := seen
  have run := Run.of_executed executed
  have reachable : World.Reachable 1 (World.init 1) := ⟨[], .nil _⟩
  obtain ⟨events, system, lives, _, isAt, _⟩ :=
    process_refines reachable (.init fun _ => .nothing) run free
  refine ⟨p, system, run,
    lives.reachable (Process.restarted_reachable reachable),
    isAt.txid.trans txid, ?_⟩
  rw [← (isAt.peers 1 inside).2.proc]
  exact value

/-- With new participants, the logs of the coordinator and of every participant
are made of updates that the process has accepted, in their order and none more
often than accepted, whenever `_workingMutex` is free. -/
theorem process_histories
    {pnum : Nat}
    {start p : Process}
    (starts : Process.StartsAt pnum (World.init pnum) start)
    {moves : List Move}
    (run : Run Process.step Run.free start moves p)
    (free : p.workingMutex = none) :
    (p.threads.co.history.map Log.event).Sublist
        (updates (Process.acceptedBy moves)) ∧
      ∀ id ∈ p.threads.co.ids,
        ((p.threads.line id).proc.history.map Log.event).Sublist
          (updates (Process.acceptedBy moves)) := by
  have reachable : World.Reachable pnum (World.init pnum) := ⟨[], .nil _⟩
  have started := starts.starts reachable
  obtain ⟨tracks, ok, joiners⟩ := Process.Tracks.run
    (Process.restarted_reachable reachable) run (.init reachable starts)
    (.init started) (.init started)
  obtain ⟨events, system, lives, sublist, isAt, _⟩ :=
    tracks.at_rest ok joiners free
  change World.Lives (World.init pnum) events system at lives
  have submitted : (((World.init pnum).submitted events).map
      Log.event).Sublist (updates (Process.acceptedBy moves)) :=
    (World.submitted_sublist (lives.mono fun _ _ _ => trivial)).trans
      (updates_sublist sublist)
  obtain ⟨own, others⟩ := World.ordered_histories lives
  constructor
  · have same : p.threads.co.history = system.sys.co.history := by
      rw [Coordinator.history, Coordinator.history, isAt.lg, isAt.txid]
    rw [same]
    exact (own.map _).trans submitted
  · intro id inside
    rw [(isAt.peers id inside).2.proc]
    exact ((others id (isAt.ids ▸ inside)).1.map _).trans submitted

/-- Two updates, one after the other. -/
def Process.twoUpdateMoves : List Move :=
  Process.joinMoves ++ Process.updateMoves [str "SET", str "k", str "v"] ++
    Process.updateMoves [str "DEL", str "k"]
theorem process_histories_twoUpdates :
    ∃ p, Run Process.step Run.free Process.single Process.twoUpdateMoves p ∧
      (p.threads.line 1).proc.history.map Log.event =
        [getRESPArry [str "SET", str "k", str "v"],
          getRESPArry [str "DEL", str "k"]] ∧
      ((p.threads.line 1).proc.history.map Log.event).Sublist
        (updates (Process.acceptedBy Process.twoUpdateMoves)) := by
  obtain ⟨p, executed, seen⟩ := (Option.any_eq_true
    (fun p : Process =>
      decide (p.workingMutex = none ∧ 1 ∈ p.threads.co.ids ∧
        (p.threads.line 1).proc.history.map Log.event =
          [getRESPArry [str "SET", str "k", str "v"],
            getRESPArry [str "DEL", str "k"]]))
    (Process.twoUpdateMoves.foldlM Process.step Process.single)).mp
      (by decide +kernel)
  rw [decide_eq_true_eq] at seen
  obtain ⟨free, inside, written⟩ := seen
  have run := Run.of_executed executed
  exact ⟨p, run, written,
    (process_histories (.init fun _ => .nothing) run free).2 1 inside⟩
/-- Whenever `_workingMutex` is free, the coordinator's log has a committed
record for every number below its own, every participant's map is the replay of
its log, and a working participant whose process is still connected has the
coordinator's number. -/
theorem process_consistent
    {pnum : Nat}
    {p : Process}
    (reachable : Process.Reachable pnum p)
    (free : p.workingMutex = none) :
    (∀ id, txidStart ≤ id → id < p.threads.co.txid →
      ∃ record, p.threads.co.lg id = some record ∧ record.ID = id ∧
        record.state = .commit) ∧
      (∀ id, p.threads.co.txid < id → p.threads.co.lg id = none) ∧
      ∀ id ∈ p.threads.co.ids, Replays (p.threads.line id).proc ∧
        ((p.threads.co.entry id).pstate = .working →
          (p.threads.line id).peer = true →
          (p.threads.line id).proc.txid = p.threads.co.txid) := by
  have ok := reachable.ok
  obtain ⟨other, isRet⟩ := ok.idle_of_free free
  obtain ⟨node, rests, shows'⟩ := ok.still other isRet
  refine ⟨fun id lower upper => ?_, rests.log.above, fun id inside => ?_⟩
  · obtain ⟨record, stored⟩ := rests.log.covers id lower upper
    obtain ⟨well, _⟩ := rests.log.records id record stored upper
    exact ⟨record, stored, well.number, well.committed⟩
  · have state := rests.peers id inside
    rw [(shows' id).proc]
    refine ⟨state.sound.replica.replays, fun working isPeer => ?_⟩
    obtain ⟨_, _, linked⟩ := (shows' id).linked
      (by rw [working]; exact PState.noConfusion)
    exact state.aligned working (state.connected working
      (linked.trans isPeer))

theorem process_consistent_joined :
    ∃ p, Process.Reachable 1 p ∧ (p.threads.co.entry 1).pstate = .working ∧
      (p.threads.line 1).proc.txid = p.threads.co.txid := by
  obtain ⟨p, executed, seen⟩ := (Option.any_eq_true
    (fun p : Process => decide (p.workingMutex = none ∧
      1 ∈ p.threads.co.ids ∧ (p.threads.co.entry 1).pstate = .working ∧
      (p.threads.line 1).peer = true))
    (Process.joinMoves.foldlM Process.step Process.single)).mp
      (by decide +kernel)
  rw [decide_eq_true_eq] at seen
  obtain ⟨free, inside, working, isPeer⟩ := seen
  have reachable : Process.Reachable 1 p :=
    ⟨_, Process.single_starts, _, Run.of_executed executed⟩
  exact ⟨p, reachable, working,
    ((process_consistent reachable free).2.2 1 inside).2 working isPeer⟩

end Lab3
end CloudComputing
