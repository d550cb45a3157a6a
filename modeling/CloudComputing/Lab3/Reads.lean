import CloudComputing.Lab3.Agreement

/-!
# Reads return the latest acknowledged write

In a run without conflicting records and without a restart of the coordinator,
the record of an acknowledged write is in the log of every working participant,
and no later record names its key unless a later command does.  So a read that
is answered returns the value of that write.
-/

namespace CloudComputing
namespace Lab3

open CloudComputing.Lab3.Parser Network

/-- A command that sets or deletes a key. -/
def Names (k : Bytes) (task : List Bytes) : Prop :=
  (∃ v, task = [str "SET", k, v]) ∨
    ∃ keys, task = str "DEL" :: keys ∧ k ∈ keys

/-- A command after which a key has a given value, or none. -/
def Writes (k : Bytes) (value : Option Bytes) (task : List Bytes) : Prop :=
  (∃ v, task = [str "SET", k, v] ∧ value = some v) ∨
    ∃ keys, task = str "DEL" :: keys ∧ k ∈ keys ∧ value = none

/-- A write and its positive answer: `+OK` for a `SET`, an integer for a
`DEL`. -/
inductive Acknowledged (k : Bytes) : Option Bytes → List Bytes × Bytes → Prop
  | set (v : Bytes) :
      Acknowledged k (some v) ([str "SET", k, v], getSuccessMessage)
  | del
      {keys : List Bytes}
      (listed : k ∈ keys)
      (number : Int) :
      Acknowledged k none (str "DEL" :: keys, getIntergerMessage number)

/-- The latest command that names a key is an acknowledged write. -/
def LastWrite
    (k : Bytes)
    (value : Option Bytes)
    (answers : List (List Bytes × Bytes)) : Prop :=
  ∃ between command earlier, answers = between ++ command :: earlier ∧
    Acknowledged k value command ∧
    ∀ other ∈ between, ¬ Names k other.1

theorem Acknowledged.facts
    {k : Bytes}
    {value : Option Bytes}
    {task : List Bytes}
    {reply : Bytes}
    (acknowledged : Acknowledged k value (task, reply)) :
    isUpdate task = true ∧ Writes k value task ∧ reply ≠ getErrorMessage := by
  cases acknowledged with
  | set v =>
      exact ⟨rfl, Or.inl ⟨v, rfl, rfl⟩,
        Participant.getSuccessMessage_ne_error⟩
  | del listed number =>
      exact ⟨rfl, Or.inr ⟨_, rfl, listed, rfl⟩,
        Participant.getIntergerMessage_ne_error number⟩

theorem LastWrite.of_cons
    {k : Bytes}
    {value : Option Bytes}
    {command : List Bytes × Bytes}
    {answers : List (List Bytes × Bytes)}
    (last : LastWrite k value (command :: answers)) :
    Acknowledged k value command ∨
      (¬ Names k command.1 ∧ LastWrite k value answers) := by
  obtain ⟨between, found, earlier, split, acknowledged, unnamed⟩ := last
  cases between with
  | nil =>
      rw [List.nil_append, List.cons.injEq] at split
      exact Or.inl (split.1 ▸ acknowledged)
  | cons first between =>
      rw [List.cons_append, List.cons.injEq] at split
      refine Or.inr ⟨split.1 ▸ unnamed first (by simp), between, found,
        earlier, split.2, acknowledged, fun other member => ?_⟩
      exact unnamed other (List.mem_cons_of_mem first member)

/-- A command that does not name a key leaves its value. -/
theorem runComds_of_not_names
    (kvdb : KV)
    {task : List Bytes}
    (update : isUpdate task = true)
    {k : Bytes}
    (unnamed : ¬ Names k task) :
    (Participant.runComds kvdb task).2 k = kvdb k := by
  cases task with
  | nil => rfl
  | cons name args =>
      have named : name = str "SET" ∨ name = str "DEL" := by
        simpa [isUpdate] using update
      rcases named with rfl | rfl
      · have head : (str "SET").headD 0 = 83 := by rfl
        simp only [Participant.runComds, head]
        split
        · rename_i key v
          have different : k ≠ key := by
            intro same
            exact unnamed (Or.inl ⟨v, by rw [same]⟩)
          simp [KV.kvSET, different]
        · rfl
      · have head : (str "DEL").headD 0 = 68 := by rfl
        have unlisted : k ∉ args := fun member =>
          unnamed (Or.inr ⟨args, rfl, member⟩)
        simp only [Participant.runComds, head]
        rw [KV.kvDELArry_snd_apply, if_neg unlisted]

/-- A write gives its key its value. -/
theorem runComds_of_writes
    (kvdb : KV)
    {task : List Bytes}
    {k : Bytes}
    {value : Option Bytes}
    (writes : Writes k value task) :
    (Participant.runComds kvdb task).2 k = value := by
  rcases writes with ⟨v, rfl, rfl⟩ | ⟨keys, rfl, member, rfl⟩
  · have head : (str "SET").headD 0 = 83 := by rfl
    simp only [Participant.runComds, head, KV.kvSET, Function.update_self]
  · have head : (str "DEL").headD 0 = 68 := by rfl
    simp only [Participant.runComds, head]
    rw [KV.kvDELArry_snd_apply, if_pos member]

/-- One number of a history writes a key, and no later one names it. -/
structure WrittenAt
    (history : Nat → Option Log)
    (k : Bytes)
    (value : Option Bytes)
    (id : Nat) : Prop where
  lower : txidStart ≤ id
  written : ∃ record task, history id = some record ∧
    record.event = getRESPArry task ∧ Writes k value task
  unnamed : ∀ later record, id < later → history later = some record →
    ∃ task, record.event = getRESPArry task ∧ ¬ Names k task

/-- The last record of a history is a latest write. -/
theorem WrittenAt.of_last
    {history : Nat → Option Log}
    {k : Bytes}
    {value : Option Bytes}
    {id : Nat}
    (lower : txidStart ≤ id)
    {task : List Bytes}
    (stored : history id = some ⟨id, .commit, getRESPArry task⟩)
    (writes : Writes k value task)
    (last : ∀ later record, history later = some record → later ≤ id) :
    WrittenAt history k value id := by
  refine ⟨lower, ⟨_, task, stored, rfl, writes⟩, ?_⟩
  intro later record after isLater
  have := last later record isLater
  omega

/-- A write stays the latest one of its key when a command that does not name
the key follows. -/
theorem WrittenAt.update
    {history : Nat → Option Log}
    {k : Bytes}
    {value : Option Bytes}
    {id number : Nat}
    (writtenAt : WrittenAt history k value id)
    (below : id < number)
    {task : List Bytes}
    (unnamed : ¬ Names k task) :
    WrittenAt
      (Function.update history number
        (some ⟨number, .commit, getRESPArry task⟩)) k value id := by
  obtain ⟨lower, ⟨record, written, stored, rest⟩, unnamedLater⟩ := writtenAt
  refine ⟨lower, ⟨record, written, ?_, rest⟩, ?_⟩
  · rw [Function.update_of_ne (by omega)]
    exact stored
  · intro later other after isLater
    by_cases atNumber : later = number
    · rw [atNumber, Function.update_self, Option.some_inj] at isLater
      exact ⟨task, by rw [← isLater], unnamed⟩
    · rw [Function.update_of_ne atNumber] at isLater
      exact unnamedLater later other after isLater

/-- A replica of the history that has reached the write has its value. -/
theorem WrittenAt.store
    {history : Nat → Option Log}
    {k : Bytes}
    {value : Option Bytes}
    {id : Nat}
    (writtenAt : WrittenAt history k value id)
    {p : Participant}
    (replica : Replica (Follows history) p)
    (reached : id < p.txid) :
    p.kvdb k = value := by
  have step : ∀ number record, p.lg number = some record →
      ∀ kvdb task, record.event = getRESPArry task →
        applyEvent kvdb record = (Participant.runComds kvdb task).2 ∧
          isUpdate task = true := by
    intro number record stored kvdb task isEvent
    obtain ⟨_, _, well, _⟩ := replica.within number record stored
    have short := event_small_of_sendable well.sendable
    rw [isEvent] at short
    obtain ⟨other, same, update, _⟩ := well.event
    have equal : task = other :=
      getRESPArry_injective short (isEvent.symm.trans same)
    refine ⟨?_, equal ▸ update⟩
    obtain ⟨ID, state, event⟩ := record
    simp only at isEvent
    rw [isEvent, applyEvent_of_small kvdb short]
  rw [replica.store, Participant.history]
  have all : ∀ next, id + 1 ≤ next → next ≤ p.txid →
      (IndexedLog.entries p.lg txidStart next).foldl applyEvent KV.empty k =
        value := by
    have lower := writtenAt.lower
    intro next upper
    induction next, upper using Nat.le_induction with
    | base =>
        intro _
        obtain ⟨record, stored, _, follows⟩ := replica.record lower reached
        obtain ⟨written, task, isWritten, isEvent, writes⟩ :=
          writtenAt.written
        have same : written = record := by
          rw [Follows, isWritten, Option.some_inj] at follows
          exact follows
        rw [IndexedLog.foldl_entries_succ _ _ lower stored,
          (step id record stored _ task (same ▸ isEvent)).1]
        exact runComds_of_writes _ writes
    | succ next later inductionHypothesis =>
        intro bound
        obtain ⟨record, stored, _, follows⟩ :=
          replica.record (show txidStart ≤ next by omega)
            (show next < p.txid by omega)
        obtain ⟨task, isEvent, unnamed⟩ :=
          writtenAt.unnamed next record (by omega) follows
        obtain ⟨applied, update⟩ := step next record stored
          ((IndexedLog.entries p.lg txidStart next).foldl applyEvent KV.empty)
          task isEvent
        rw [IndexedLog.foldl_entries_succ _ _ (by omega) stored, applied,
          runComds_of_not_names _ update unnamed]
        exact inductionHypothesis (by omega)
  exact all p.txid reached le_rfl

/-! ## Answers of the system -/

namespace World

/-- An event answers no client, rejects a command, or serves one. -/
theorem step_answers
    {w w' : World}
    {event : Event}
    (taken : w.step event = some w') :
    (w'.answers = w.answers ∧ ∀ fates, event ≠ .serve fates) ∨
      (∃ task, w'.answers = (task, getErrorMessage) :: w.answers ∧
        w'.sys = w.sys ∧ ∀ fates, event ≠ .serve fates) ∨
      ∃ fates task reply, event = .serve fates ∧ w.pending = some task ∧
        Dispatched (w.sys.withFates fates) task reply w'.sys ∧
        w'.answers = (task, reply) :: w.answers := by
  have node : ∀ id change, w.onNode id change = some w' →
      w'.answers = w.answers := by
    intro id change done
    rw [onNode] at done
    split at done
    · cases done
      rfl
    · cases done
  cases event with
  | drop id =>
      exact Or.inl ⟨node id (fun node => { node with link := false }) taken,
        by simp⟩
  | crash id => exact Or.inl ⟨node _ _ taken, by simp⟩
  | drain id => exact Or.inl ⟨node _ _ taken, by simp⟩
  | lose id =>
      exact Or.inl ⟨node id (fun node => { node with late := none }) taken,
        by simp⟩
  | reconnect id =>
      simp only [step] at taken
      split at taken
      · cases taken
        exact Or.inl ⟨rfl, by simp⟩
      · cases taken
  | restart =>
      cases taken
      exact Or.inl ⟨rfl, by simp⟩
  | recoveryEnter =>
      simp only [step] at taken
      split at taken
      · cases taken
        exact Or.inl ⟨rfl, by simp⟩
      · cases taken
  | recoveryWake =>
      simp only [step] at taken
      split at taken
      · split at taken
        · cases taken
          exact Or.inl ⟨rfl, by simp⟩
        · cases taken
      · cases taken
  | recoveryRun fates =>
      simp only [step] at taken
      split at taken
      · rename_i minID isLocking
        cases executed : (recoveryBody minID).exec (w.sys.withFates fates) with
        | none =>
            rw [executed] at taken
            cases taken
        | some done =>
            rw [executed] at taken
            cases taken
            exact Or.inl ⟨rfl, by simp⟩
      · cases taken
  | recoveryLeave =>
      simp only [step] at taken
      split at taken
      · cases taken
        exact Or.inl ⟨rfl, by simp⟩
      · cases taken
  | request task =>
      simp only [step] at taken
      split at taken
      · cases taken
      · split at taken
        · cases taken
          exact Or.inr (Or.inl ⟨task, rfl, rfl, by simp⟩)
        · cases taken
          exact Or.inl ⟨rfl, by simp⟩
  | serve fates =>
      simp only [step] at taken
      split at taken
      · cases taken
      · rename_i task isPending
        obtain ⟨reply, sys, executed, dispatched⟩ :=
          exec_dispatch (w.sys.withFates fates) task
        rw [executed] at taken
        cases taken
        exact Or.inr (Or.inr ⟨fates, task, reply, rfl, isPending, dispatched,
          rfl⟩)

end World

/-- A positive answer to an update: its commit was delivered, its record is
well-formed and the coordinator has advanced. -/
theorem AtRest.of_positive
    {admissible : Nat → Log → Prop}
    {s s' : Sys}
    {task : List Bytes}
    {reply : Bytes}
    (rest : AtRest admissible s)
    (update : isUpdate task = true)
    (allowed : CommitDelivered s →
      LogRecord s.co.txid ⟨s.co.txid, .commit, getRESPArry task⟩ →
      admissible s.co.txid ⟨s.co.txid, .commit, getRESPArry task⟩)
    (dispatched : Dispatched s task reply s')
    (positive : reply ≠ getErrorMessage) :
    LogRecord s.co.txid ⟨s.co.txid, .commit, getRESPArry task⟩ ∧
      CommitDelivered s ∧ s'.co.txid = s.co.txid + 1 := by
  cases dispatched with
  | update _ updated =>
      cases updated with
      | refused noVote => exact absurd rfl positive
      | unanswered vote silent => exact absurd rfl positive
      | @committed vote id member answered =>
          have lower := rest.log.start
          obtain ⟨voter, insideVoter, hasVoted⟩ := vote
          have small :=
            ((rest.peers voter insideVoter).vote lower).2.2.1 hasVoted
          obtain ⟨kept, prompt, _⟩ := (rest.peers id member).vote lower
          obtain ⟨_, answers, _⟩ := kept.commit prompt lower small update
            fun working delivered => allowed ⟨id, member, working, delivered⟩
          obtain ⟨_, well, _, working, delivered, _⟩ := answers answered
          exact ⟨well, ⟨id, member, working, delivered⟩, rfl⟩
  | unread isRead silent => exact absurd rfl positive
  | read isRead order silent answered =>
      exact absurd isRead (not_isRequest_of_isUpdate update)
  | other notUpdate _ =>
      rw [update] at notUpdate
      cases notUpdate

/-- An answered read of a participant. -/
theorem AtRest.read_answer
    {admissible : Nat → Log → Prop}
    {s s' : Sys}
    {k reply : Bytes}
    (rest : AtRest admissible s)
    (dispatched : Dispatched s [str "GET", k] reply s')
    (positive : reply ≠ getErrorMessage) :
    ∃ p, Replica admissible p ∧ p.txid = s.co.txid ∧
      reply = getRESPArryOfString (p.kvdb.kvGET k) := by
  cases dispatched with
  | update update updated => cases update
  | unread isRead silent => exact absurd rfl positive
  | @read isRead before later id order silent answered =>
      have inside : id ∈ s.co.ids := by rw [order]; simp
      have state := rest.peers id inside
      simp only [Entry.answered, Bool.and_eq_true, decide_eq_true_eq]
        at answered
      obtain ⟨working, linked, sendable, _, replied⟩ :=
        (state.read isRead).2.2.1 answered.1
      have answer := (s.peer id).2.proc.pWorker_get
        (event_small_of_sendable sendable)
        (show (str "GET").headD 0 = 71 by rfl)
      rw [getReq, answer, Option.some_inj, Prod.mk.injEq] at replied
      refine ⟨(s.peer id).2.proc, state.sound.replica,
        state.aligned working (state.connected working linked), ?_⟩
      rw [getReq, ← replied.1]
      rfl
  | other notUpdate notRead => cases notRead

/-! ## The invariant -/

/-- The invariant of the reads: all logs follow a history up to the
coordinator's number, it contains the latest acknowledged write of every key,
and every read so far has returned it. -/
structure Tracked (history : Nat → Option Log) (w : World) : Prop where
  ok : w.Ok (Follows history)
  domain : ∀ id record, history id = some record → id ≤ w.sys.co.txid
  latest : ∀ k value, LastWrite k value w.answers →
    ∃ id, id < w.sys.co.txid ∧ WrittenAt history k value id
  reads : ∀ k reply later earlier value,
    w.answers = later ++ ([str "GET", k], reply) :: earlier →
    reply ≠ getErrorMessage → LastWrite k value earlier →
    reply = getRESPArryOfString (value.getD (str "nil"))

namespace Tracked

variable {history : Nat → Option Log} {w w' : World}

/-- Reads in a longer list of answers. -/
theorem reads_cons
    (tracked : Tracked history w)
    {task : List Bytes}
    {answer : Bytes}
    (first : ∀ k, task = [str "GET", k] → answer ≠ getErrorMessage →
      ∀ value, LastWrite k value w.answers →
        answer = getRESPArryOfString (value.getD (str "nil")))
    {k reply : Bytes}
    {later earlier : List (List Bytes × Bytes)}
    {value : Option Bytes}
    (split : (task, answer) :: w.answers =
      later ++ ([str "GET", k], reply) :: earlier)
    (positive : reply ≠ getErrorMessage)
    (last : LastWrite k value earlier) :
    reply = getRESPArryOfString (value.getD (str "nil")) := by
  cases later with
  | nil =>
      rw [List.nil_append, List.cons.injEq, Prod.mk.injEq] at split
      obtain ⟨⟨isTask, isReply⟩, rest⟩ := split
      rw [← isReply] at positive ⊢
      exact first k isTask positive value (rest ▸ last)
  | cons command later =>
      rw [List.cons_append, List.cons.injEq] at split
      exact tracked.reads k reply later earlier value split.2 positive last

/-- A read that is answered returns the latest acknowledged write. -/
theorem read_served
    (tracked : Tracked history w)
    {fates : Nat → List Fate}
    {k reply : Bytes}
    {s' : Sys}
    (dispatched : Dispatched (w.sys.withFates fates) [str "GET", k] reply s')
    (positive : reply ≠ getErrorMessage)
    {value : Option Bytes}
    (last : LastWrite k value w.answers) :
    reply = getRESPArryOfString (value.getD (str "nil")) := by
  obtain ⟨p, replica, aligned, isReply⟩ :=
    (tracked.ok.rest.withFates fates).read_answer dispatched positive
  have aligned' : p.txid = w.sys.co.txid := aligned
  obtain ⟨id, below, writtenAt⟩ := tracked.latest k value last
  have found := writtenAt.store replica (by omega)
  rw [isReply, KV.kvGET, found]
  cases value with
  | none => rfl
  | some v => rfl

/-- Every event other than a restart keeps the invariant, when no conflicting
record is around. -/
theorem step
    (tracked : Tracked history w)
    {event : Event}
    (agrees : w.Agrees event)
    (noRestart : event ≠ .restart)
    (taken : w.step event = some w') :
    ∃ history', Tracked history' w' := by
  obtain ⟨history', ok, admits, change⟩ := tracked.ok.extend agrees
  obtain ⟨ok', advanced⟩ := ok.step admits taken
  have forward := (advanced noRestart).forward
  refine ⟨history', ?_⟩
  have domain : ∀ id record, history' id = some record →
      id ≤ w.sys.co.txid := by
    intro id record stored
    rcases change with same | ⟨task, _, _, _, isUpdated⟩
    · exact tracked.domain id record (same ▸ stored)
    · by_cases last : id = w.sys.co.txid
      · omega
      · rw [isUpdated, Function.update_of_ne last] at stored
        exact tracked.domain id record stored
  have domain' : ∀ id record, history' id = some record →
      id ≤ w'.sys.co.txid := fun id record stored =>
    (domain id record stored).trans forward
  have sameOf : (∀ fates, event ≠ .serve fates) → history' = history := by
    intro noServe
    rcases change with same | ⟨_, _, _, ⟨fates, isServe⟩, _⟩
    · exact same
    · exact absurd isServe (noServe fates)
  rcases World.step_answers taken with ⟨answers, noServe⟩ |
    ⟨task, answers, sys, noServe⟩ |
    ⟨fates, task, reply, isServe, pending, dispatched, answers⟩
  · -- nobody is answered
    have same := sameOf noServe
    subst same
    refine ⟨ok', domain', fun k value last => ?_, ?_⟩
    · rw [answers] at last
      obtain ⟨id, below, writtenAt⟩ := tracked.latest k value last
      exact ⟨id, by omega, writtenAt⟩
    · rw [answers]
      exact tracked.reads
  · -- a command is rejected
    have same := sameOf noServe
    subst same
    refine ⟨ok', domain', fun k value last => ?_, ?_⟩
    · rw [answers] at last
      rcases last.of_cons with acknowledged | ⟨_, last⟩
      · exact absurd rfl acknowledged.facts.2.2
      · obtain ⟨id, below, writtenAt⟩ := tracked.latest k value last
        exact ⟨id, by omega, writtenAt⟩
    · intro k reply later earlier value split positive last
      rw [answers] at split
      exact tracked.reads_cons (fun _ _ notError => absurd rfl notError) split
        positive last
  · -- a command is served
    have rest := ok.rest.withFates fates
    refine ⟨ok', domain', fun k value last => ?_, ?_⟩
    · rw [answers] at last
      rcases last.of_cons with acknowledged | ⟨unnamed, last⟩
      · obtain ⟨update, writes, positive⟩ := acknowledged.facts
        obtain ⟨well, delivered, advanced'⟩ := rest.of_positive update
          (fun delivered well =>
            admits fates isServe task pending update delivered well)
          dispatched positive
        have stored : history' w.sys.co.txid =
            some ⟨w.sys.co.txid, .commit, getRESPArry task⟩ :=
          admits fates isServe task pending update delivered well
        have reached : w'.sys.co.txid = w.sys.co.txid + 1 := advanced'
        exact ⟨w.sys.co.txid, by omega,
          .of_last ok.rest.log.start stored writes domain⟩
      · obtain ⟨id, below, writtenAt⟩ := tracked.latest k value last
        refine ⟨id, by omega, ?_⟩
        rcases change with same | ⟨task', pending', _, _, isUpdated⟩
        · rw [same]
          exact writtenAt
        · rw [pending, Option.some_inj] at pending'
          rw [isUpdated, ← pending']
          exact writtenAt.update below unnamed
    · intro k answer later earlier value split positive last
      rw [answers] at split
      refine tracked.reads_cons ?_ split positive last
      intro key isGet notError value last
      subst isGet
      exact tracked.read_served dispatched notError last

end Tracked

/-- The condition under which reads return the latest write: the coordinator
does not restart, and no update is served against a conflicting record. -/
def World.Steady (w : World) (event : Event) : Prop :=
  w.Agrees event ∧ event ≠ .restart

/-- In a run without conflicting records and restarts of the coordinator: after
an acknowledged write of a key and no later command that names it, every read
of the key that is answered returns its value. -/
theorem read_latest
    {pnum : Nat}
    {w : World}
    {events : List Event}
    (run : Run World.step World.Steady (World.init pnum) events w)
    {k reply : Bytes}
    {value : Option Bytes}
    {command : List Bytes × Bytes}
    {later between earlier : List (List Bytes × Bytes)}
    (answers : w.answers =
      later ++ ([str "GET", k], reply) :: (between ++ command :: earlier))
    (answered : reply ≠ getErrorMessage)
    (write : Acknowledged k value command)
    (unnamed : ∀ other ∈ between, ¬ Names k other.1) :
    reply = getRESPArryOfString (value.getD (str "nil")) := by
  have keeps : ∀ (state : World) (event : Event) (next : World),
      (∃ history, Tracked history state) → state.Steady event →
        state.step event = some next → ∃ history, Tracked history next := by
    rintro state event next ⟨history, tracked⟩ ⟨agrees, noRestart⟩ taken
    exact tracked.step agrees noRestart taken
  have initially : Tracked (fun _ => none) (World.init pnum) := by
    refine ⟨.init _ pnum, by simp, ?_, ?_⟩
    · rintro k value ⟨between, command, earlier, split, _⟩
      simp [World.init] at split
    · intro k reply later earlier value split
      simp [World.init] at split
  obtain ⟨history, tracked⟩ := run.preserves keeps ⟨_, initially⟩
  exact tracked.reads k reply later _ value answers answered
    ⟨between, command, earlier, rfl, write, unnamed⟩

/-- A check for the condition on an event. -/
def World.checkSteady (w : World) : Event → Bool
  | .restart => false
  | event => w.checkAgrees event

theorem World.steady_of_check
    (w : World)
    (event : Event)
    (checked : w.checkSteady event = true) :
    w.Steady event := by
  cases event with
  | restart => cases checked
  | _ => exact ⟨w.agrees_of_check _ checked, by simp⟩

theorem read_latest_written :
    ∃ events w reply, Run World.step World.Steady (World.init 1) events w ∧
      w.answers.head? = some ([str "GET", str "k"], reply) ∧
      reply = getRESPArryOfString (str "v") := by
  obtain ⟨w, executed, seen⟩ := (Option.any_eq_true
    (fun w : World => decide (w.answers =
      [] ++ ([str "GET", str "k"], getRESPArryOfString (str "v")) ::
        ([] ++ ([str "SET", str "k", str "v"], getSuccessMessage) :: [])))
    (World.runChecked World.checkSteady
      (World.startEvents 1 ++
        [.request [str "SET", str "k", str "v"], .serve fun _ => [],
          .request [str "GET", str "k"], .serve fun _ => []])
      (World.init 1))).mp (by decide +kernel)
  rw [decide_eq_true_eq] at seen
  have run := Run.of_checked World.steady_of_check executed
  have value := read_latest run seen
    (Participant.getRESPArryOfString_ne_error _) (.set (str "v")) (by simp)
  rw [Option.getD_some] at value
  exact ⟨_, w, _, run, by rw [seen]; rfl, value⟩

/-- After the diverging run a client reads the key. -/
def staleReadEvents : List Event :=
  divergingEvents ++ [.request [str "GET", str "k"], .serve fun _ => []]

/-- Whether an event is something else than a restart of the coordinator. -/
def Event.noRestart : Event → Bool
  | .restart => false
  | _ => true

theorem read_stale :
    ∃ w, Run World.step (fun _ event => event ≠ .restart) (World.init 2)
        staleReadEvents w ∧
      w.answers =
        [([str "GET", str "k"], getRESPArryOfString (str "a")),
          ([str "SET", str "k", str "b"], getSuccessMessage),
          ([str "SET", str "k", str "a"], getErrorMessage)] := by
  obtain ⟨w, executed, seen⟩ := (Option.any_eq_true
    (fun w : World => decide (w.answers =
      [([str "GET", str "k"], getRESPArryOfString (str "a")),
        ([str "SET", str "k", str "b"], getSuccessMessage),
        ([str "SET", str "k", str "a"], getErrorMessage)]))
    (World.runChecked (fun _ event => event.noRestart) staleReadEvents
      (World.init 2))).mp (by decide +kernel)
  rw [decide_eq_true_eq] at seen
  refine ⟨w, Run.of_checked (fun _ event other isRestart => ?_) executed,
    seen⟩
  rw [isRestart] at other
  cases other

end Lab3
end CloudComputing
