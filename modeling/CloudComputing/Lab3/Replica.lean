import CloudComputing.Lab3.Messages
import CloudComputing.Lib.IndexedLog

/-!
# A participant's state is the replay of its log

`Replica admissible p` says that the log of `p` has a record for every number
below its own one, that all of them are admissible, and that the map results
from executing them in order.  Whatever messages of the coordinator arrive, in
whatever order, a participant stays a replica; a message changes it only by
appending one record.

The predicate on records is a parameter, because later arguments follow
particular records (those of one common history, those of other calls) through
the same messages.
-/

namespace CloudComputing
namespace Lab3

open Decimal CloudComputing.Lab3.Parser Network

/-- The map after an event, as `eventParser` computes it. -/
def applyEvent (kvdb : KV) (record : Log) : KV :=
  ((Participant.eventParser kvdb record.event).map Prod.snd).getD kvdb

/-- A committed record under its own number, with an update command that
`eventParser` accepts and whose message can be sent. -/
structure LogRecord (id : Nat) (record : Log) : Prop where
  number : record.ID = id
  committed : record.state = .commit
  lower : txidStart ≤ id
  small : id < 2 ^ 63
  event : ∃ task, record.event = getRESPArry task ∧ isUpdate task = true ∧
    Participant.Accepted task = true
  sendable : Sendable record.logToStr

namespace LogRecord

variable {id : Nat} {record : Log}

/-- The text of a record is a commit request for its number. -/
theorem text
    (well : LogRecord id record) :
    ∃ task, record = ⟨id, .commit, getRESPArry task⟩ ∧
      isUpdate task = true ∧ Participant.Accepted task = true := by
  obtain ⟨task, event, update, accepted⟩ := well.event
  refine ⟨task, ?_, update, accepted⟩
  rw [← well.number, ← well.committed, ← event]

/-- A record is read back from its text. -/
theorem decoded
    (well : LogRecord id record) :
    Log.strToLog record.logToStr = some record := by
  obtain ⟨task, rfl, _, _⟩ := well.text
  rw [Log.strToLog_logToStr id _ (by simp), Log.readTxid_of_lt well.small]

end LogRecord

/-- An event that can be decoded is executed as a command. -/
theorem applyEvent_of_small
    (kvdb : KV)
    {task : List Bytes}
    (small : (getRESPArry task).length < 2 ^ 31)
    {id : Nat}
    {state : LogState} :
    applyEvent kvdb ⟨id, state, getRESPArry task⟩ =
      (Participant.runComds kvdb task).2 := by
  rw [applyEvent, Participant.eventParser_getRESPArry kvdb small,
    Option.map_some, Option.getD_some]

namespace Participant

/-- The records of a participant in the order of their numbers. -/
def history (p : Participant) : List Log :=
  IndexedLog.entries p.lg txidStart p.txid

/-- The participant after executing and logging a command under its own
number. -/
def append (p : Participant) (task : List Bytes) : Participant :=
  { txid := p.txid + 1
    lg := p.lg.writeLog ⟨p.txid, .commit, getRESPArry task⟩
    kvdb := (runComds p.kvdb task).2 }

/-- The record that `append` adds. -/
def nextRecord (p : Participant) (task : List Bytes) : Log :=
  ⟨p.txid, .commit, getRESPArry task⟩

end Participant

/-- A participant whose log is gap-free, holds only admissible records, and
whose map is the replay of its log. -/
structure Replica
    (admissible : Nat → Log → Prop)
    (p : Participant) : Prop where
  start : txidStart ≤ p.txid
  bound : p.txid ≤ 2 ^ 63
  covers : IndexedLog.Covers p.lg txidStart p.txid
  within : IndexedLog.Within
    (fun id record => LogRecord id record ∧ admissible id record)
    p.lg txidStart p.txid
  store : p.kvdb = p.history.foldl applyEvent KV.empty

namespace Replica

variable {admissible : Nat → Log → Prop} {p : Participant}

/-- A new participant has nothing to replay. -/
theorem init : Replica admissible Participant.init where
  start := le_rfl
  bound := by simp [Participant.init, txidStart]
  covers := by
    intro id lower upper
    simp only [Participant.init] at upper
    omega
  within := by
    intro id record stored
    simp [Participant.init] at stored
  store := by simp [Participant.init, Participant.history]

/-- Replicas for a predicate are replicas for a weaker one, as far as their
own records go. -/
theorem weaken
    (replica : Replica admissible p)
    {admissible' : Nat → Log → Prop}
    (weaker : ∀ id record, p.lg id = some record →
      admissible id record → admissible' id record) :
    Replica admissible' p where
  start := replica.start
  bound := replica.bound
  covers := replica.covers
  within := by
    intro id record stored
    obtain ⟨lower, upper, well, allowed⟩ := replica.within id record stored
    exact ⟨lower, upper, well, weaker id record stored allowed⟩
  store := replica.store

/-- The record stored under a covered number. -/
theorem record
    (replica : Replica admissible p)
    {id : Nat}
    (lower : txidStart ≤ id)
    (upper : id < p.txid) :
    ∃ record, p.lg id = some record ∧ LogRecord id record ∧
      admissible id record := by
  obtain ⟨record, stored⟩ := replica.covers id lower upper
  exact ⟨record, stored, (replica.within id record stored).2.2⟩

/-- Numbers that are not covered have no record. -/
theorem none_of_le
    (replica : Replica admissible p)
    {id : Nat}
    (outside : p.txid ≤ id) :
    p.lg id = none := by
  cases stored : p.lg id with
  | none => rfl
  | some record =>
      have := (replica.within id record stored).2.1
      omega

/-- Executing and logging an accepted command keeps the replica. -/
theorem append
    (replica : Replica admissible p)
    {task : List Bytes}
    (well : LogRecord p.txid (p.nextRecord task))
    (allowed : admissible p.txid (p.nextRecord task)) :
    Replica admissible (p.append task) where
  start := by
    have := replica.start
    simp only [Participant.append]
    omega
  bound := by
    have := well.small
    simp only [Participant.append]
    omega
  covers := by
    intro id lower upper
    simp only [Participant.append] at upper ⊢
    by_cases last : id = p.txid
    · exact ⟨p.nextRecord task, by simp [Logger.writeLog, last,
        Participant.nextRecord]⟩
    · rw [Logger.writeLog_of_ne _ _ last]
      exact replica.covers id lower (by omega)
  within := by
    intro id record stored
    simp only [Participant.append] at stored ⊢
    by_cases last : id = p.txid
    · have written : record = p.nextRecord task := by
        simpa [Logger.writeLog, last, Participant.nextRecord, eq_comm]
          using stored
      rw [written, last]
      exact ⟨replica.start, by omega, well, allowed⟩
    · rw [Logger.writeLog_of_ne _ _ last] at stored
      obtain ⟨lower, upper, rest⟩ := replica.within id record stored
      exact ⟨lower, by omega, rest⟩
  store := by
    have small : (getRESPArry task).length < 2 ^ 31 :=
      event_small_of_sendable well.sendable
    have history :
        (p.append task).history = p.history ++ [p.nextRecord task] := by
      have written :
          (p.append task).lg p.txid = some (p.nextRecord task) := by
        simp [Participant.append, Logger.writeLog, Participant.nextRecord]
      rw [Participant.history, show (p.append task).txid = p.txid + 1 from rfl,
        IndexedLog.entries_succ replica.start written, Participant.history]
      congr 1
      apply IndexedLog.entries_congr
      intro id _ upper
      exact Logger.writeLog_of_ne _ _ (by simp only; omega)
    rw [history, List.foldl_append, ← replica.store, List.foldl_cons,
      List.foldl_nil, Participant.nextRecord,
      applyEvent_of_small p.kvdb small]
    rfl

end Replica

/-! ## What a message does to a replica -/

namespace Participant

/-- The number of the transaction that a message makes the participant
execute: the third branch of `pWorker` with an accepted command. -/
def executedBy (p : Participant) (task : Bytes) : List Nat :=
  match Log.strToLog task with
  | none => []
  | some l =>
      if l.ID ≠ superTxid ∧ l.ID ≠ recoveryTxid ∧ l.ID ≠ askDataTxid ∧
          l.ID = p.txid ∧ l.state = .commit ∧
          (eventParser p.kvdb l.event).any (·.1 ≠ getErrorMessage) then
        [l.ID]
      else []

/-- The participant after a sequence of messages, with the numbers of the
transactions it executed. -/
def serve : Participant → List Bytes → Option (List Nat × Participant)
  | p, [] => some ([], p)
  | p, task :: tasks => do
      let (_, next) ← p.pWorker task
      let (executed, last) ← next.serve tasks
      some (p.executedBy task ++ executed, last)

/-- Serving two sequences of messages one after the other. -/
theorem serve_append
    (p : Participant)
    (tasks tasks' : List Bytes) :
    p.serve (tasks ++ tasks') =
      (p.serve tasks).bind fun served =>
        (served.2.serve tasks').map fun served' =>
          (served.1 ++ served'.1, served'.2) := by
  induction tasks generalizing p with
  | nil => simp [serve]
  | cons task tasks inductionHypothesis =>
      rw [List.cons_append, serve, serve]
      cases p.pWorker task with
      | none => rfl
      | some answer =>
          simp only [Option.bind_eq_bind, Option.bind_some,
            inductionHypothesis]
          cases answer.2.serve tasks with
          | none => rfl
          | some served =>
              simp only [Option.bind_some]
              cases served.2.serve tasks' with
              | none => rfl
              | some served' => simp [List.append_assoc]

/-- A message that asks for no commit executes nothing. -/
theorem executedBy_of_not_commit
    (p : Participant)
    (id : Nat)
    {state : LogState}
    (named : ∀ code, state ≠ .unnamed code)
    (event : Bytes)
    (other : state ≠ .commit ∨ Log.readTxid id = superTxid ∨
      Log.readTxid id = askDataTxid) :
    p.executedBy (Log.logToStr ⟨id, state, event⟩) = [] := by
  rw [executedBy, Log.strToLog_logToStr id event named]
  apply if_neg
  rintro ⟨notSuper, _, notAsk, _, commit, _⟩
  rcases other with other | other | other
  · exact other commit
  · exact notSuper other
  · exact notAsk other

/-- A commit request executes its command exactly when it is for the own
number and the command is accepted. -/
theorem executedBy_commit
    (p : Participant)
    {id : Nat}
    (lower : txidStart ≤ id)
    {task : List Bytes}
    (small : (getRESPArry task).length < 2 ^ 31) :
    p.executedBy (commitReq id (getRESPArry task)) =
      if Log.readTxid id = p.txid ∧ Accepted task = true then [p.txid]
      else [] := by
  have ordinary : txidStart ≤ Log.readTxid id := by
    simp only [Log.readTxid, txidStart] at lower ⊢
    omega
  have answer :
      (eventParser p.kvdb (getRESPArry task)).any
          (·.1 ≠ getErrorMessage) = Accepted task := by
    rw [eventParser_getRESPArry p.kvdb small, Option.any_some]
    cases accepted : Accepted task with
    | false => simp [(runComds_error_iff p.kvdb task).mpr accepted]
    | true =>
        have answered : (runComds p.kvdb task).1 ≠ getErrorMessage := by
          rw [ne_eq, runComds_error_iff, accepted]
          exact Bool.noConfusion
        simpa using answered
  simp only [txidStart] at ordinary
  rw [commitReq, executedBy, Log.strToLog_logToStr id _ (by simp)]
  simp only [answer, superTxid, recoveryTxid, askDataTxid, true_and]
  by_cases own : Log.readTxid id = p.txid
  · simp only [own, true_and]
    rw [own] at ordinary
    have distinct : p.txid ≠ 0 ∧ p.txid ≠ 1 ∧ p.txid ≠ 2 := by omega
    simp only [distinct, ne_eq, not_false_eq_true, true_and]
  · simp only [own, false_and, and_false, if_false]

/-- The answer to a commit request of the coordinator. -/
theorem pWorker_commitReq
    (p : Participant)
    {id : Nat}
    (lower : txidStart ≤ id)
    {task : List Bytes}
    (small : (getRESPArry task).length < 2 ^ 31) :
    p.pWorker (commitReq id (getRESPArry task)) =
      some
        (if Log.readTxid id = p.txid ∧ Accepted task = true then
          ((runComds p.kvdb task).1, p.append task)
        else (getErrorMessage, p)) := by
  rw [commitReq, p.pWorker_commit lower small]
  by_cases own : Log.readTxid id = p.txid ∧ Accepted task = true
  · rw [if_pos own, if_pos own, own.1]
    rfl
  · rw [if_neg own, if_neg own]

end Participant

namespace Replica

variable {admissible : Nat → Log → Prop} {p : Participant}

/-- The record of an accepted command that arrived under the own number. -/
theorem logRecord
    (replica : Replica admissible p)
    {id : Nat}
    (own : Log.readTxid id = p.txid)
    {task : List Bytes}
    (update : isUpdate task = true)
    (accepted : Participant.Accepted task = true)
    (sendable : Sendable (commitReq id (getRESPArry task))) :
    LogRecord p.txid (p.nextRecord task) where
  number := rfl
  committed := rfl
  lower := replica.start
  small := by
    rw [← own]
    exact Log.readTxid_lt id
  event := ⟨task, rfl, update, accepted⟩
  sendable := by
    have shorter := length_commitReq_mono
      (show p.txid ≤ id by rw [← own]; exact min_le_right _ _)
      (getRESPArry task)
    have : Sendable (commitReq p.txid (getRESPArry task)) := by
      simp only [Sendable] at sendable ⊢
      omega
    exact this

/-- A message either leaves a replica as it is or makes it append the record
of an accepted command. -/
theorem pWorker_message
    (replica : Replica admissible p)
    {task : Bytes}
    (message : Message task) :
    (∃ reply, p.pWorker task = some (reply, p) ∧ p.executedBy task = []) ∨
      ∃ id command,
        task = commitReq id (getRESPArry command) ∧
        Log.readTxid id = p.txid ∧
        LogRecord p.txid (p.nextRecord command) ∧
        p.pWorker task =
          some ((Participant.runComds p.kvdb command).1, p.append command) ∧
        p.executedBy task = [p.txid] := by
  cases message with
  | vote lower =>
      exact Or.inl ⟨_, p.pWorker_vote lower [],
        p.executedBy_of_not_commit _ (by simp) [] (by simp)⟩
  | @request task read sendable =>
      obtain ⟨name, args, rfl, isGet⟩ := request_head read
      exact Or.inl ⟨_, p.pWorker_get (event_small_of_sendable sendable) isGet,
        p.executedBy_of_not_commit _ (by simp) _
          (Or.inr (Or.inl (Log.readTxid_of_lt (by decide))))⟩
  | txid =>
      exact Or.inl ⟨_, p.pWorker_recovery [],
        p.executedBy_of_not_commit _ (by simp) [] (by simp)⟩
  | @ask minID lower =>
      have nothing := p.executedBy_of_not_commit askDataTxid
        (show ∀ code, LogState.commit ≠ .unnamed code by simp)
        (toDecimal minID)
        (Or.inr (Or.inr (Log.readTxid_of_lt (by decide))))
      left
      rw [askReq, p.pWorker_askData minID]
      by_cases ahead : p.txid ≤ Log.readTxid minID
      · exact ⟨[], by rw [if_pos ahead], nothing⟩
      · have ordinary : txidStart ≤ Log.readTxid minID := by
          simp only [Log.readTxid, txidStart] at lower ⊢
          omega
        obtain ⟨record, stored⟩ :=
          replica.covers (Log.readTxid minID) ordinary (by omega)
        exact ⟨record.logToStr, by rw [if_neg ahead, stored]; rfl, nothing⟩
  | @commit id lower command update sendable =>
      have small : (getRESPArry command).length < 2 ^ 31 :=
        event_small_of_sendable sendable
      have answer := p.pWorker_commitReq lower small
      have executed := p.executedBy_commit lower small
      by_cases own : Log.readTxid id = p.txid ∧
          Participant.Accepted command = true
      · right
        refine ⟨id, command, rfl, own.1,
          replica.logRecord own.1 update own.2 sendable, ?_, ?_⟩
        · rw [answer, if_pos own]
        · rw [executed, if_pos own]
      · left
        refine ⟨getErrorMessage, ?_, ?_⟩
        · rw [answer, if_neg own]
        · rw [executed, if_neg own]

/-- A message of the coordinator keeps a replica and never fails an
assertion. -/
theorem pWorker
    (replica : Replica admissible p)
    {task : Bytes}
    (message : Message task)
    (allowed : ∀ id command, task = commitReq id (getRESPArry command) →
      Log.readTxid id = p.txid → LogRecord p.txid (p.nextRecord command) →
      admissible p.txid (p.nextRecord command)) :
    ∃ reply next, p.pWorker task = some (reply, next) ∧
      Replica admissible next := by
  rcases replica.pWorker_message message with
    ⟨reply, answer, _⟩ | ⟨id, command, isCommit, own, well, answer, _⟩
  · exact ⟨reply, p, answer, replica⟩
  · exact ⟨_, _, answer,
      replica.append well (allowed id command isCommit own well)⟩

/-- A sequence of messages keeps a replica; the executed transactions are
those between its first and its last number, each once. -/
theorem serve
    (replica : Replica (fun _ _ => True) p)
    (tasks : List Bytes)
    (messages : ∀ task ∈ tasks, Message task) :
    ∃ executed last, p.serve tasks = some (executed, last) ∧
      Replica (fun _ _ => True) last ∧ p.txid ≤ last.txid ∧
      executed = List.range' p.txid (last.txid - p.txid) := by
  induction tasks generalizing p with
  | nil => exact ⟨[], p, rfl, replica, le_rfl, by simp⟩
  | cons task tasks inductionHypothesis =>
      have others : ∀ other ∈ tasks, Message other :=
        fun other member => messages other (List.mem_cons_of_mem task member)
      rcases replica.pWorker_message (messages task (by simp)) with
        ⟨reply, answer, nothing⟩ | ⟨id, command, _, _, well, answer, one⟩
      · obtain ⟨executed, last, served, rest⟩ :=
          inductionHypothesis replica others
        refine ⟨executed, last, ?_, rest⟩
        rw [Participant.serve, answer, nothing]
        simp [served]
      · obtain ⟨executed, last, served, kept, ordered, numbers⟩ :=
          inductionHypothesis (replica.append well trivial) others
        have next : (p.append command).txid = p.txid + 1 := rfl
        rw [next] at ordered numbers
        refine ⟨p.txid :: executed, last, ?_, kept, by omega, ?_⟩
        · rw [Participant.serve, answer, one]
          simp [served]
        · rw [numbers, show last.txid - p.txid = last.txid - (p.txid + 1) + 1
            by omega, List.range'_succ]

end Replica
end Lab3
end CloudComputing
