import CloudComputing.Lab3.System

/-!
# Invariants of every run

What holds in every reachable state, whatever fails: working participants have
the coordinator's transaction number, every participant's map is the replay of
its log, and the coordinator's committed log has no gaps and does not change
until the coordinator restarts.
-/

namespace CloudComputing
namespace Lab3

open CloudComputing.Lab3.Parser Network

/-- A working participant whose process has not restarted has the
coordinator's transaction number.  As long as this number is below `2 ^ 63`,
the largest one that `strtol` reads, the participant grants every vote and
executes every commit of an acceptable command. -/
theorem working_aligned
    {pnum : Nat}
    {w : World}
    (reachable : World.Reachable pnum w)
    {id : Nat}
    (inside : id ∈ w.sys.co.ids)
    (working : (w.sys.co.entry id).pstate = .working)
    (alive : (w.sys.node id).restarted = false) :
    (w.sys.node id).proc.txid = w.sys.co.txid ∧
      (w.sys.co.txid < 2 ^ 63 →
        (w.sys.node id).proc.pWorker (voteReq w.sys.co.txid) =
            some (str "PRE", (w.sys.node id).proc) ∧
        ∀ task, Participant.Accepted task = true →
          (getRESPArry task).length < 2 ^ 31 →
          ∃ reply next, reply ≠ getErrorMessage ∧
            (w.sys.node id).proc.pWorker
                (commitReq w.sys.co.txid (getRESPArry task)) =
              some (reply, next)) := by
  have rest := reachable.ok.rest
  have lower := rest.log.start
  have aligned : (w.sys.node id).proc.txid = w.sys.co.txid :=
    (rest.peers id inside).aligned working alive
  refine ⟨aligned, fun small => ⟨?_, fun task accepted short => ?_⟩⟩
  · have granted : Log.readTxid w.sys.co.txid = (w.sys.node id).proc.txid := by
      rw [aligned, Log.readTxid_of_lt small]
    rw [voteReq, Participant.pWorker_vote _ lower, if_pos granted]
  · have own : Log.readTxid w.sys.co.txid = (w.sys.node id).proc.txid := by
      rw [aligned, Log.readTxid_of_lt small]
    refine ⟨(Participant.runComds (w.sys.node id).proc.kvdb task).1, _, ?_, by
      rw [Participant.pWorker_commitReq _ lower short,
        if_pos ⟨own, accepted⟩]⟩
    rw [ne_eq, Participant.runComds_error_iff, accepted]
    exact Bool.noConfusion

/-- The events with which `pnum` participants come to work. -/
def World.startEvents (pnum : Nat) : List Event :=
  (List.range' 1 pnum).map Event.reconnect ++
    [.recoveryEnter, .recoveryWake, .recoveryRun fun _ => [], .recoveryLeave]

theorem working_aligned_started :
    ∃ w, World.Reachable 2 w ∧ (w.sys.co.entry 1).pstate = .working ∧
      (w.sys.node 1).proc.txid = w.sys.co.txid := by
  obtain ⟨w, executed, seen⟩ := (Option.any_eq_true
    (fun w : World => decide (1 ∈ w.sys.co.ids ∧
      (w.sys.co.entry 1).pstate = .working ∧
      (w.sys.node 1).restarted = false))
    (World.runChecked (fun _ _ => true) (World.startEvents 2)
      (World.init 2))).mp (by decide)
  rw [decide_eq_true_eq] at seen
  obtain ⟨inside, working, alive⟩ := seen
  have reachable : World.Reachable 2 w :=
    ⟨_, Run.of_checked (fun _ _ _ => trivial) executed⟩
  exact ⟨w, reachable, working,
    (working_aligned reachable inside working alive).1⟩

/-- The log of a participant has exactly the keys from `TXID_START` to
`_TXID - 1`, each with a committed record of that number, and the map is the
replay of the log. -/
structure Replays (p : Participant) : Prop where
  keys : ∀ id, (∃ record, p.lg id = some record) ↔
    txidStart ≤ id ∧ id < p.txid
  records : ∀ id record, p.lg id = some record →
    record.ID = id ∧ record.state = .commit
  store : p.kvdb = p.history.foldl applyEvent KV.empty

theorem Replica.replays
    {admissible : Nat → Log → Prop}
    {p : Participant}
    (replica : Replica admissible p) :
    Replays p where
  keys := by
    intro id
    constructor
    · rintro ⟨record, stored⟩
      obtain ⟨lower, upper, _⟩ := replica.within id record stored
      exact ⟨lower, upper⟩
    · rintro ⟨lower, upper⟩
      exact replica.covers id lower upper
  records := by
    intro id record stored
    obtain ⟨_, _, well, _⟩ := replica.within id record stored
    exact ⟨well.number, well.committed⟩
  store := replica.store

/-- A participant's state is the replay of its log after any messages of the
coordinator, no number is executed twice and no assertion fails; and in every
run the messages that a participant has handled are such messages. -/
theorem participant_replays :
    (∀ tasks : List Bytes, (∀ task ∈ tasks, Message task) →
      ∃ executed p, Participant.init.serve tasks = some (executed, p) ∧
        Replays p ∧ executed.Nodup) ∧
      ∀ pnum w, World.Reachable pnum w → ∀ id ∈ w.sys.co.ids,
        (∀ task ∈ (w.sys.node id).received, Message task) ∧
        Replays (w.sys.node id).proc ∧
        ∃ executed, Participant.init.serve (w.sys.node id).received =
          some (executed, (w.sys.node id).proc) ∧ executed.Nodup := by
  have served : ∀ tasks : List Bytes, (∀ task ∈ tasks, Message task) →
      ∃ executed p, Participant.init.serve tasks = some (executed, p) ∧
        Replays p ∧ executed.Nodup := by
    intro tasks messages
    obtain ⟨executed, p, served, replica, _, numbers⟩ :=
      Replica.init.serve tasks messages
    exact ⟨executed, p, served, replica.replays,
      numbers ▸ List.nodup_range'⟩
  refine ⟨served, fun pnum w reachable id inside => ?_⟩
  have sound := (reachable.ok.rest.peers id inside).sound
  have trace := sound.trace trivial
  obtain ⟨executed, p, isServed, _, nodup⟩ := served _ trace.messages
  obtain ⟨executed', isServed'⟩ := trace.served
  rw [isServed'] at isServed
  cases isServed
  exact ⟨trace.messages, sound.replica.replays, _, isServed', nodup⟩

def setCommand : List Bytes :=
  [str "SET", str "a", str "v"]

/-- Two updates with their votes.  The first one is sent again, as a recovery
does, and a read and the questions of a recovery are in between. -/
def replayedMessages : List Bytes :=
  [voteReq 5, commitReq 5 (getRESPArry setCommand),
    commitReq 5 (getRESPArry setCommand), txidReq, askReq 5,
    getReq (getRESPArry [str "GET", str "a"]), voteReq 6,
    commitReq 6 (getRESPArry [str "DEL", str "a", str "a"]),
    commitReq 5 (getRESPArry setCommand)]

/-- The first participant has executed two updates, the second one has been
away, and a recovery and an update are about to begin. -/
def World.interruptedEvents : List Event :=
  World.startEvents 2 ++
    [.request setCommand, .serve fun _ => [], .drop 2,
      .request [str "DEL", str "a"], .serve fun _ => [], .reconnect 2,
      .request [str "SET", str "b", str "w"], .recoveryEnter, .recoveryWake]

theorem participant_replays_twice :
    (∃ p, Participant.init.serve replayedMessages = some ([5, 6], p) ∧
      Replays p) ∧
      ∃ w, World.Reachable 2 w ∧ (w.sys.node 1).proc.txid = 7 ∧
        Replays (w.sys.node 1).proc := by
  have messages : ∀ task ∈ replayedMessages, Message task := by
    have set : Message (commitReq 5 (getRESPArry setCommand)) :=
      .commit (by decide) (by decide +kernel) (by decide +kernel)
    have delete : Message (commitReq 6
        (getRESPArry [str "DEL", str "a", str "a"])) :=
      .commit (by decide) (by decide +kernel) (by decide +kernel)
    have read : Message (getReq (getRESPArry [str "GET", str "a"])) :=
      .request (by decide +kernel) (by decide +kernel)
    simp only [replayedMessages, List.forall_mem_cons]
    exact ⟨.vote (by decide), set, set, .txid, .ask (by decide), read,
      .vote (by decide), delete, set, fun _ absurd =>
        (List.not_mem_nil absurd).elim⟩
  obtain ⟨executed, p, served, replays, _⟩ :=
    participant_replays.1 replayedMessages messages
  have numbers : (Participant.init.serve replayedMessages).map Prod.fst =
      some [5, 6] := by
    decide +kernel
  rw [served, Option.map_some, Option.some_inj] at numbers
  subst numbers
  obtain ⟨w, executed, seen⟩ := (Option.any_eq_true
    (fun w : World => decide (1 ∈ w.sys.co.ids ∧
      (w.sys.node 1).proc.txid = 7))
    (World.runChecked (fun _ _ => true) World.interruptedEvents
      (World.init 2))).mp (by decide +kernel)
  rw [decide_eq_true_eq] at seen
  have reachable : World.Reachable 2 w :=
    ⟨_, Run.of_checked (fun _ _ _ => trivial) executed⟩
  exact ⟨⟨p, served, replays⟩, w, reachable, seen.2,
    (participant_replays.2 2 w reachable 1 seen.1).2.1⟩

/-- In every reachable state the coordinator's log has a committed record for
every number below its own and no key above it; until the coordinator restarts,
no record below its number changes and the number does not decrease; and no
assertion fails in the calls of the coordinator. -/
theorem committed_immutable
    {pnum : Nat}
    {w : World}
    (reachable : World.Reachable pnum w) :
    (∀ id, txidStart ≤ id → id < w.sys.co.txid →
      ∃ record, w.sys.co.lg id = some record ∧ record.ID = id ∧
        record.state = .commit) ∧
    (∀ id, w.sys.co.txid < id → w.sys.co.lg id = none) ∧
    (∀ events w', Run World.step (fun _ event => event ≠ .restart) w events
        w' →
      w.sys.co.txid ≤ w'.sys.co.txid ∧
        ∀ id, id < w.sys.co.txid → w'.sys.co.lg id = w.sys.co.lg id) ∧
    (∀ task fates, w.pending = some task →
      ∃ w', w.step (.serve fates) = some w') ∧
    ∀ minID fates, w.phase = .locking minID →
      ∃ w', w.step (.recoveryRun fates) = some w' := by
  have ok := reachable.ok
  refine ⟨fun id lower upper => ?_, ok.rest.log.above, ?_, ?_, ?_⟩
  · obtain ⟨record, stored⟩ := ok.rest.log.covers id lower upper
    obtain ⟨well, _⟩ := ok.rest.log.records id record stored upper
    exact ⟨record, stored, well.number, well.committed⟩
  · intro events w' run
    have keeps : ∀ (state : World) (event : Event) (next : World),
        (state.Ok (fun _ _ => True) ∧ Advanced w.sys.co state.sys.co) →
          event ≠ .restart → state.step event = some next →
          next.Ok (fun _ _ => True) ∧ Advanced w.sys.co next.sys.co := by
      intro state event next before noRestart taken
      obtain ⟨ok', advanced⟩ :=
        before.1.step (fun _ _ _ _ _ _ _ => trivial) taken
      exact ⟨ok', before.2.trans (advanced noRestart)⟩
    have kept := run.preserves keeps ⟨ok, .refl _⟩
    exact ⟨kept.2.forward, kept.2.unchanged⟩
  · intro task fates pending
    obtain ⟨reply, sys, executed, _⟩ :=
      exec_dispatch (w.sys.withFates fates) task
    exact ⟨_, by simp only [World.step, pending, executed]; rfl⟩
  · intro minID fates locking
    obtain ⟨lower, older, table⟩ := ok.recovery minID (Or.inr locking)
    have rest := ok.rest.withFates fates
    obtain ⟨sys, executed, _⟩ := exec_recoveryBody rest.log
      (fun id inside => (rest.peers id inside).joining (table id inside))
      lower older
    exact ⟨_, by simp only [World.step, locking, executed]; rfl⟩

def World.completingEvents : List Event :=
  [.recoveryRun fun _ => [], .recoveryLeave, .serve fun _ => []]

theorem committed_immutable_interrupted :
    ∃ w w' : World, World.Reachable 2 w ∧ w.sys.co.txid = 7 ∧
      w'.sys.co.txid = 8 ∧
      (∃ record, w.sys.co.lg 5 = some record ∧
        w'.sys.co.lg 5 = some record ∧ record.ID = 5 ∧
        record.state = .commit) ∧
      (∀ fates, ∃ next, w.step (.serve fates) = some next) ∧
      ∀ fates, ∃ next, w.step (.recoveryRun fates) = some next := by
  obtain ⟨w, executed, seen⟩ := (Option.any_eq_true
    (fun w : World => decide (w.sys.co.txid = 7 ∧
      w.pending = some [str "SET", str "b", str "w"] ∧
      w.phase = .locking 6) &&
        (World.runChecked (fun _ _ => true) World.completingEvents w).any
          fun w' : World => decide (w'.sys.co.txid = 8))
    (World.runChecked (fun _ _ => true) World.interruptedEvents
      (World.init 2))).mp (by decide +kernel)
  rw [Bool.and_eq_true, decide_eq_true_eq] at seen
  obtain ⟨⟨number, pending, locking⟩, later⟩ := seen
  obtain ⟨w', executed', seen'⟩ := (Option.any_eq_true _ _).mp later
  have reachable : World.Reachable 2 w :=
    ⟨_, Run.of_checked (fun _ _ _ => trivial) executed⟩
  have run : Run World.step (fun _ event => event ≠ .restart) w
      World.completingEvents w' := by
    have free : Run World.step Run.free w World.completingEvents w' :=
      Run.of_checked (fun _ _ _ => trivial) executed'
    apply free.mono_of_mem
    simp [World.completingEvents]
  obtain ⟨committed, _, kept, served, recovered⟩ :=
    committed_immutable reachable
  obtain ⟨record, stored, isNumber, isCommit⟩ :=
    committed 5 (by decide) (by omega)
  have same := (kept _ w' run).2 5 (by omega)
  exact ⟨w, w', reachable, number, of_decide_eq_true seen',
    ⟨record, stored, same.trans stored, isNumber, isCommit⟩,
    fun fates => served _ fates pending,
    fun fates => recovered _ fates locking⟩

end Lab3
end CloudComputing
