import CloudComputing.Lab3.Invariants

/-!
# Agreement of the replicas

Recovery compares only transaction numbers.  A participant that executed a
commit of which the coordinator learned nothing holds a record at the
coordinator's number, and the coordinator may commit another command under that
number: then two working participants differ.

In a run in which no command is served against such a record, all records ever
stored belong to one history (`Follows`), and working participants hold the
same log and map.
-/

namespace CloudComputing
namespace Lab3

open CloudComputing.Lab3.Parser Network

/-- The records of one assignment of records to transaction numbers. -/
def Follows (history : Nat → Option Log) (id : Nat) (record : Log) : Prop :=
  history id = some record

/-- A record that a participant holds, or will hold after a late request. -/
def Node.Holds (node : Node) (id : Nat) (record : Log) : Prop :=
  node.proc.lg id = some record ∨ node.drain.proc.lg id = some record

/-- A participant is working and connected. -/
def Sys.Serving (s : Sys) : Prop :=
  ∃ id ∈ s.co.ids, (s.co.entry id).pstate = .working ∧
    (s.node id).link = true

namespace World

/-- When an update that participants accept is served while a participant is
working and connected, no participant holds a record of another command at the
coordinator's number. -/
def Agrees (w : World) (event : Event) : Prop :=
  ∀ fates, event = .serve fates → ∀ task, w.pending = some task →
    isUpdate task = true → Participant.Accepted task = true →
    w.sys.Serving → ∀ id ∈ w.sys.co.ids, ∀ record,
      (w.sys.node id).Holds w.sys.co.txid record →
        record.event = getRESPArry task

variable {admissible : Nat → Log → Prop} {w : World}

/-- The invariant for a weaker condition on the records in use. -/
theorem Ok.weaken
    (ok : w.Ok admissible)
    {admissible' : Nat → Log → Prop}
    (log : ∀ id record, w.sys.co.lg id = some record →
      id < w.sys.co.txid → admissible id record → admissible' id record)
    (peers : ∀ id ∈ w.sys.co.ids, ∀ number record,
      (w.sys.node id).Holds number record → LogRecord number record →
      admissible number record → admissible' number record) :
    w.Ok admissible' where
  rest :=
    { log := ok.rest.log.weaken log
      peers := fun id inside =>
        have state := ok.rest.peers id inside
        { valid := state.valid
          sound :=
            { replica := state.sound.replica.weaken
                fun number record stored allowed =>
                  peers id inside number record (Or.inl stored)
                    (state.sound.replica.within number record stored).2.2.1
                    allowed
              drained := state.sound.drained.weaken
                fun number record stored allowed =>
                  peers id inside number record (Or.inr stored)
                    (state.sound.drained.within number record stored).2.2.1
                    allowed
              closed := state.sound.closed
              trace := state.sound.trace }
          late := state.late
          connected := state.connected
          aligned := state.aligned } }
  recovery := ok.recovery

/-- A commit reaches only a participant that was working and connected. -/
theorem Ok.serving_of_delivered
    (ok : w.Ok admissible)
    {fates : Nat → List Fate}
    (delivered : CommitDelivered (w.sys.withFates fates)) :
    w.sys.Serving := by
  obtain ⟨id, inside, working, _⟩ := delivered
  have inside' : id ∈ w.sys.co.ids := inside
  have state := (ok.rest.withFates fates).peers id inside
  obtain ⟨before, linked⟩ := (state.vote ok.rest.log.start).2.2.2 working
  exact ⟨id, inside', before, linked⟩

/-- A record of a command is an update that participants accept. -/
theorem accepted_of_logRecord
    {id : Nat}
    {task : List Bytes}
    (well : LogRecord id ⟨id, .commit, getRESPArry task⟩) :
    Participant.Accepted task = true := by
  obtain ⟨other, same, _, accepted⟩ := well.event
  have equal : task = other :=
    getRESPArry_injective (event_small_of_sendable well.sendable) same
  rw [equal]
  exact accepted

/-- Before an event the history can be extended so that it covers what the
event commits.  Only the record at the coordinator's number may change. -/
theorem Ok.extend
    {history : Nat → Option Log}
    (ok : w.Ok (Follows history))
    {event : Event}
    (agrees : w.Agrees event) :
    ∃ history', w.Ok (Follows history') ∧
      w.Admits (Follows history') event ∧
      (history' = history ∨ ∃ task, w.pending = some task ∧
        isUpdate task = true ∧ (∃ fates, event = .serve fates) ∧
        history' = Function.update history w.sys.co.txid
          (some ⟨w.sys.co.txid, .commit, getRESPArry task⟩)) := by
  by_cases served : ∃ fates task, event = .serve fates ∧
      w.pending = some task ∧ isUpdate task = true ∧
      Participant.Accepted task = true ∧ w.sys.Serving
  · obtain ⟨fates, task, isServe, pending, update, accepted, serving⟩ :=
      served
    refine ⟨_, ok.weaken ?_ ?_, ?_, Or.inr ⟨task, pending, update,
      ⟨fates, isServe⟩, rfl⟩⟩
    · intro id record _ below follows
      rw [Follows, Function.update_of_ne (by omega)]
      exact follows
    · intro id inside number record holds well follows
      by_cases same : number = w.sys.co.txid
      · have event := agrees fates isServe task pending update accepted
          serving id inside record (same ▸ holds)
        rw [Follows, same, Function.update_self, Option.some_inj, ← event,
          ← same, ← well.committed]
        have number := well.number
        cases record
        simp only at number
        rw [number]
      · rw [Follows, Function.update_of_ne same]
        exact follows
    · intro fates' isServe' task' pending' _ _ _
      rw [pending, Option.some_inj] at pending'
      rw [Follows, Function.update_self, pending']
  · refine ⟨history, ok, ?_, Or.inl rfl⟩
    intro fates isServe task pending update delivered well
    exact absurd ⟨fates, task, isServe, pending, update,
      accepted_of_logRecord well, ok.serving_of_delivered delivered⟩ served

/-- In a run without conflicting records all logs follow one history. -/
theorem run_follows
    {pnum : Nat}
    {events : List Event}
    (run : Run step Agrees (init pnum) events w) :
    ∃ history, w.Ok (Follows history) := by
  have keeps : ∀ (state : World) (event : Event) (next : World),
      (∃ history, state.Ok (Follows history)) → state.Agrees event →
        state.step event = some next →
        ∃ history, next.Ok (Follows history) := by
    rintro state event next ⟨history, ok⟩ agrees taken
    obtain ⟨history', ok', admits, _⟩ := ok.extend agrees
    exact ⟨history', (ok'.step admits taken).1⟩
  exact run.preserves keeps ⟨fun _ => none, Ok.init _ pnum⟩

end World

/-- Replicas of one history with the same number have the same log and the
same map. -/
theorem Replica.unique
    {history : Nat → Option Log}
    {p q : Participant}
    (replica : Replica (Follows history) p)
    (replica' : Replica (Follows history) q)
    (same : p.txid = q.txid) :
    p.lg = q.lg ∧ p.kvdb = q.kvdb := by
  have logs : p.lg = q.lg := by
    funext id
    by_cases covered : txidStart ≤ id ∧ id < p.txid
    · obtain ⟨record, stored, _, follows⟩ :=
        replica.record covered.1 covered.2
      obtain ⟨record', stored', _, follows'⟩ :=
        replica'.record covered.1 (same ▸ covered.2)
      rw [stored, stored']
      exact follows.symm.trans follows'
    · have missing : ∀ {r : Participant}, Replica (Follows history) r →
          r.txid = p.txid → r.lg id = none := by
        intro r state equal
        cases stored : r.lg id with
        | none => rfl
        | some record =>
            obtain ⟨lower, upper, _⟩ := state.within id record stored
            exact absurd ⟨lower, equal ▸ upper⟩ covered
      rw [missing replica rfl, missing replica' same.symm]
  refine ⟨logs, ?_⟩
  rw [replica.store, replica'.store, Participant.history, Participant.history,
    logs, same]

/-- In every state of a run without conflicting records, any two working
participants that have not restarted hold the same log and the same map. -/
theorem working_agree
    {pnum : Nat}
    {w : World}
    {events : List Event}
    (run : Run World.step World.Agrees (World.init pnum) events w)
    {id id' : Nat}
    (inside : id ∈ w.sys.co.ids)
    (inside' : id' ∈ w.sys.co.ids)
    (working : (w.sys.co.entry id).pstate = .working)
    (working' : (w.sys.co.entry id').pstate = .working)
    (alive : (w.sys.node id).restarted = false)
    (alive' : (w.sys.node id').restarted = false) :
    (w.sys.node id).proc.lg = (w.sys.node id').proc.lg ∧
      (w.sys.node id).proc.kvdb = (w.sys.node id').proc.kvdb := by
  obtain ⟨history, ok⟩ := World.run_follows run
  have state := ok.rest.peers id inside
  have state' := ok.rest.peers id' inside'
  exact state.sound.replica.unique state'.sound.replica
    ((state.aligned working alive).trans (state'.aligned working' alive').symm)

/-- A check for the condition on an event. -/
def World.checkAgrees (w : World) : Event → Bool
  | .serve _ =>
      match w.pending with
      | none => true
      | some task =>
          !isUpdate task || w.sys.co.ids.all fun id =>
            ((w.sys.node id).proc.lg w.sys.co.txid).all
                (·.event = getRESPArry task) &&
              ((w.sys.node id).drain.proc.lg w.sys.co.txid).all
                (·.event = getRESPArry task)
  | _ => true

theorem World.agrees_of_check
    (w : World)
    (event : Event)
    (checked : w.checkAgrees event = true) :
    w.Agrees event := by
  intro fates isServe task pending update _ _ id inside record holds
  simp only [isServe, checkAgrees, pending, update, Bool.not_true,
    Bool.false_or, List.all_eq_true, Bool.and_eq_true] at checked
  obtain ⟨here, late⟩ := checked id inside
  rcases holds with stored | stored
  · rw [stored, Option.all_some, decide_eq_true_eq] at here
    exact here
  · rw [stored, Option.all_some, decide_eq_true_eq] at late
    exact late

theorem working_agree_written :
    ∃ events w, Run World.step World.Agrees (World.init 2) events w ∧
      (w.sys.node 1).proc.kvdb (str "k") = some (str "v") ∧
      (w.sys.node 1).proc.lg = (w.sys.node 2).proc.lg ∧
      (w.sys.node 1).proc.kvdb = (w.sys.node 2).proc.kvdb := by
  obtain ⟨w, executed, seen⟩ := (Option.any_eq_true
    (fun w : World => decide ((1 ∈ w.sys.co.ids ∧ 2 ∈ w.sys.co.ids) ∧
      ((w.sys.co.entry 1).pstate = .working ∧
        (w.sys.co.entry 2).pstate = .working) ∧
      ((w.sys.node 1).restarted = false ∧
        (w.sys.node 2).restarted = false) ∧
      (w.sys.node 1).proc.kvdb (str "k") = some (str "v")))
    (World.runChecked World.checkAgrees
      (World.startEvents 2 ++
        [.request [str "SET", str "k", str "v"], .serve fun _ => []])
      (World.init 2))).mp (by decide +kernel)
  rw [decide_eq_true_eq] at seen
  obtain ⟨inside, working, alive, value⟩ := seen
  have run := Run.of_checked World.agrees_of_check executed
  exact ⟨_, w, run, value, working_agree run inside.1 inside.2 working.1
    working.2 alive.1 alive.2⟩

/-- Fates for two participants. -/
def fatesOf (first second : List Fate) (id : Nat) : List Fate :=
  if id = 1 then first else second

/-- A commit that one participant executes without its answer arriving, and
that never reaches the other one. -/
def lostCommit : Event :=
  .serve (fatesOf
    [.answered [] [], .failed .executed .timeout []]
    [.answered [] [], .failed .never .timeout []])

/-- The recovery thread's events without failures. -/
def recoveryEvents : List Event :=
  [.recoveryEnter, .recoveryWake, .recoveryRun fun _ => [], .recoveryLeave]

/-- The first participant executes a command whose answer is lost; the second
one comes back first and executes another command under the same number. -/
def divergingEvents : List Event :=
  World.startEvents 2 ++
    [.request [str "SET", str "k", str "a"], lostCommit, .reconnect 2] ++
    recoveryEvents ++
    [.request [str "SET", str "k", str "b"], .serve fun _ => [],
      .reconnect 1] ++
    recoveryEvents

theorem working_disagree :
    ∃ w, Run World.step Run.free (World.init 2) divergingEvents w ∧
      (1 ∈ w.sys.co.ids ∧ 2 ∈ w.sys.co.ids) ∧
      ((w.sys.co.entry 1).pstate = .working ∧
        (w.sys.co.entry 2).pstate = .working) ∧
      ((w.sys.node 1).restarted = false ∧
        (w.sys.node 2).restarted = false) ∧
      (w.sys.node 1).proc.kvdb (str "k") = some (str "a") ∧
      (w.sys.node 2).proc.kvdb (str "k") = some (str "b") := by
  obtain ⟨w, executed, seen⟩ := (Option.any_eq_true
    (fun w : World => decide ((1 ∈ w.sys.co.ids ∧ 2 ∈ w.sys.co.ids) ∧
      ((w.sys.co.entry 1).pstate = .working ∧
        (w.sys.co.entry 2).pstate = .working) ∧
      ((w.sys.node 1).restarted = false ∧
        (w.sys.node 2).restarted = false) ∧
      (w.sys.node 1).proc.kvdb (str "k") = some (str "a") ∧
      (w.sys.node 2).proc.kvdb (str "k") = some (str "b")))
    (World.runChecked (fun _ _ => true) divergingEvents
      (World.init 2))).mp (by decide +kernel)
  rw [decide_eq_true_eq] at seen
  exact ⟨w, Run.of_checked (fun _ _ _ => trivial) executed, seen⟩

end Lab3
end CloudComputing
