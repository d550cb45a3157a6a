import CloudComputing.Lab3.Delivery

/-!
# One participant during recovery

`Recovering` is what holds of one participant throughout `Recovery`, from the
collected transaction numbers on: a participant in recovery has its last number
in the table, the participant chosen as leader is in the working state with no
number in the table, and all others wait.  The three exchanges of a recovery
(the query for the number, a pushed record, a request for a record) keep it.
-/

namespace CloudComputing
namespace Lab3

open Decimal CloudComputing.Lab3.Parser Network

namespace LogRecord

variable
  {admissible : Nat → Log → Prop}
  {id : Nat}
  {record : Log}

/-- The command of a record fits a message. -/
theorem task_small
    (well : LogRecord id record)
    {task : List Bytes}
    (isRecord : record = ⟨id, .commit, getRESPArry task⟩) :
    (getRESPArry task).length < 2 ^ 31 := by
  have := event_small_of_sendable well.sendable
  rwa [isRecord] at this

/-- An admissible record is safe for every process with an admissible log. -/
theorem safe
    (well : LogRecord id record)
    (allowed : admissible id record)
    {p : Participant}
    (replica : Replica admissible p) :
    Safe admissible p record.logToStr := by
  obtain ⟨task, isRecord, update, _⟩ := well.text
  rw [show record.logToStr = commitReq id (getRESPArry task) by
    rw [isRecord]
    rfl]
  refine replica.safe_commitReq well.lower update ?_
  intro isOwn _
  rw [Log.readTxid_of_lt well.small] at isOwn
  rw [Participant.nextRecord, ← isOwn, ← isRecord]
  exact allowed

/-- A process that is due for a record executes it and does not answer
`-ERROR`. -/
theorem answer_due
    (well : LogRecord id record)
    {p : Participant}
    (due : id = p.txid) :
    ∃ reply next, p.pWorker record.logToStr = some (reply, next) ∧
      reply ≠ getErrorMessage ∧ next.txid = p.txid + 1 := by
  obtain ⟨task, isRecord, _, accepted⟩ := well.text
  have answer := p.pWorker_commitReq well.lower (well.task_small isRecord)
  rw [if_pos ⟨(Log.readTxid_of_lt well.small).trans due, accepted⟩] at answer
  refine ⟨_, _, by rw [isRecord]; exact answer, ?_, rfl⟩
  rw [ne_eq, Participant.runComds_error_iff, accepted]
  exact Bool.noConfusion

/-- Every process answers a record, with a message that can be sent. -/
theorem answer_sendable
    (well : LogRecord id record)
    (p : Participant) :
    ∃ reply next, p.pWorker record.logToStr = some (reply, next) ∧
      Sendable reply := by
  obtain ⟨task, isRecord, update, _⟩ := well.text
  have small := well.task_small isRecord
  have answer := p.pWorker_commitReq well.lower small
  rw [show record.logToStr = commitReq id (getRESPArry task) by
    rw [isRecord]
    rfl, answer]
  by_cases due : Log.readTxid id = p.txid ∧ Participant.Accepted task = true
  · rw [if_pos due]
    exact ⟨_, _, rfl, sendable_runComds_update _ update small⟩
  · rw [if_neg due]
    exact ⟨_, _, rfl, (by decide : Sendable getErrorMessage)⟩

end LogRecord

/-- What a recovery is to show of a participant: `known` when its log is among
the comparable ones, `traced` when its process has come to its state by
messages of the coordinator, `keep` when it will not fail, and then its number
does not fall below `least`. -/
structure Duty where
  /-- The participant's log is known to be admissible. -/
  known : Prop
  /-- The process has only handled messages of the coordinator. -/
  traced : Prop
  /-- The participant is connected and does not fail. -/
  keep : Prop
  /-- A number that the participant has reached. -/
  least : Nat

/-- A participant before `Recovery` asks for its number. -/
structure Joining
    (admissible : Nat → Log → Prop)
    (duty : Duty)
    (peer : Entry × Node) : Prop where
  valid : peer.1.pstate ≠ .invalid
  reached : peer.1.pstate ≠ .waiting → duty.known
  sound : duty.known → NodeOk admissible duty.traced peer.2
  kept : duty.keep → peer.2.Faultless ∧ peer.1.pstate ≠ .waiting ∧
    duty.least ≤ peer.2.proc.txid
  table : peer.1.maxTxid = none

/-- A participant during `Recovery`. -/
structure Recovering
    (admissible : Nat → Log → Prop)
    (duty : Duty)
    (peer : Entry × Node) : Prop where
  reached : peer.1.pstate ≠ .waiting → duty.known
  sound : duty.known → NodeOk admissible duty.traced peer.2
  kept : duty.keep → peer.2.Faultless ∧ peer.1.pstate ≠ .waiting ∧
    duty.least ≤ peer.2.proc.txid
  recovery : peer.1.pstate = .recovery → peer.2.link = true ∧
    peer.2.restarted = false ∧
    peer.1.maxTxid = some (peer.2.proc.txid - 1)
  working : peer.1.pstate = .working → peer.2.link = true ∧
    peer.2.restarted = false ∧ peer.1.maxTxid = none
  others : peer.1.pstate ≠ .recovery → peer.1.pstate ≠ .working →
    peer.1.pstate = .waiting ∧ peer.1.maxTxid = none

namespace Recovering

variable
  {admissible : Nat → Log → Prop}
  {duty : Duty}
  {peer : Entry × Node}

/-- A participant with a number in the table is in recovery. -/
theorem of_table
    (state : Recovering admissible duty peer)
    {max : Nat}
    (entry : peer.1.maxTxid = some max) :
    peer.1.pstate = .recovery ∧ max = peer.2.proc.txid - 1 ∧
      duty.known := by
  by_cases recovering : peer.1.pstate = .recovery
  · have number := (state.recovery recovering).2.2
    rw [entry, Option.some_inj] at number
    exact ⟨recovering, number, state.reached (by rw [recovering]; simp)⟩
  · by_cases working : peer.1.pstate = .working
    · rw [(state.working working).2.2] at entry
      cases entry
    · rw [(state.others recovering working).2] at entry
      cases entry

/-- A participant that waits, after an exchange that failed. -/
theorem of_lost
    (reached : duty.known)
    {smsg : Bytes}
    {node node' : Node}
    (ok : NodeOk admissible duty.traced node)
    (lost : node.Lost smsg node')
    (safe : Safe admissible node.proc smsg)
    {entry : Entry}
    (waiting : entry.pstate = .waiting)
    (table : entry.maxTxid = none)
    (faulty : ¬ duty.keep) :
    Recovering admissible duty (entry, node') where
  reached := fun _ => reached
  sound := fun _ => (ok.lost lost fun _ => safe).1
  kept := fun keep => absurd keep faulty
  recovery := fun recovering => by
    rw [waiting] at recovering
    cases recovering
  working := fun working => by
    rw [waiting] at working
    cases working
  others := fun _ _ => ⟨waiting, table⟩

/-- What a participant becomes when it is given the record of a number: one
that worked before is left alone, and in the table the number follows. -/
structure Pushed
    (admissible : Nat → Log → Prop)
    (duty : Duty)
    (id : Nat)
    (peer peer' : Entry × Node) : Prop where
  state : Recovering admissible duty peer'
  worker : peer'.1.pstate = .working →
    peer.1.pstate = .working ∧ peer'.2 = peer.2
  table : ∀ max, peer'.1.maxTxid = some max →
    ∃ before, peer.1.maxTxid = some before ∧
      max = if before + 1 = id then id else before

section Push

variable
  {id : Nat}
  {record : Log}

/-- A participant that is not in recovery skips the record. -/
theorem pushed_idle
    (state : Recovering admissible duty peer)
    (idle : peer.1.pstate ≠ .recovery)
    (id : Nat)
    (task : Bytes) :
    Pushed admissible duty id peer
      ({ peer.1 with pRtask := task, precoveryRet := retSkip }, peer.2) where
  state := ⟨state.reached, state.sound, state.kept, state.recovery,
    state.working, state.others⟩
  worker := fun working => ⟨working, rfl⟩
  table := by
    intro max entry
    exact absurd (state.of_table entry).1 idle

/-- A participant in recovery skips a record that is not its next one. -/
theorem pushed_skipped
    (state : Recovering admissible duty peer)
    (recovering : peer.1.pstate = .recovery)
    (other : id ≠ peer.1.maxTxid.getD 0 + 1)
    (task : Bytes) :
    Pushed admissible duty id peer
      ({ peer.1 with
          pRtask := task
          precoveryRet := retSkip
          maxTxid := some (peer.1.maxTxid.getD 0) },
        peer.2) := by
  have table := (state.recovery recovering).2.2
  have same : some (peer.1.maxTxid.getD 0) = peer.1.maxTxid := by
    rw [table]
    rfl
  refine ⟨⟨state.reached, state.sound, state.kept, ?_, ?_, ?_⟩,
    fun working => ⟨working, rfl⟩, ?_⟩
  · intro _
    rw [same]
    exact state.recovery recovering
  · intro working
    simp only [recovering, reduceCtorEq] at working
  · intro notRecovering
    exact absurd recovering notRecovering
  · intro max entry
    simp only [same] at entry
    refine ⟨max, entry, ?_⟩
    rw [entry, Option.getD_some] at other
    rw [if_neg fun due => other due.symm]

/-- A participant in recovery that is due executes and logs the record, and
its number in the table follows. -/
theorem pushed_answered
    (state : Recovering admissible duty peer)
    (well : LogRecord id record)
    (allowed : admissible id record)
    (recovering : peer.1.pstate = .recovery)
    (due : id = peer.1.maxTxid.getD 0 + 1)
    (delivered : peer.2.delivers = true)
    {reply : Bytes}
    {next : Participant}
    (replied : peer.2.proc.pWorker record.logToStr = some (reply, next))
    {maxTxid : Option Nat}
    (counted : reply ≠ getErrorMessage →
      maxTxid = some (peer.1.maxTxid.getD 0 + 1))
    (faultless : duty.keep → Node.Faultless { peer.2 with
      proc := next
      restarted := false
      received := peer.2.received ++ [record.logToStr]
      fates := peer.2.fates.tail }) :
    Pushed admissible duty id peer
      ({ peer.1 with
          pRtask := record.logToStr
          precoveryRet := kvOk
          preoveryDataRet := reply
          maxTxid := maxTxid },
        { peer.2 with
          proc := next
          restarted := false
          received := peer.2.received ++ [record.logToStr]
          fates := peer.2.fates.tail }) := by
  obtain ⟨linked, current, table⟩ := state.recovery recovering
  have connected : peer.1.pstate ≠ .waiting := by
    rw [recovering]
    simp
  have known := state.reached connected
  have ok := state.sound known
  have positive := ok.replica.start
  simp only [txidStart] at positive
  rw [table, Option.getD_some] at due counted
  obtain ⟨reply', next', answer, positiveReply, advanced⟩ :=
    well.answer_due (show id = peer.2.proc.txid by omega)
  rw [answer, Option.some_inj, Prod.mk.injEq] at replied
  obtain ⟨rfl, rfl⟩ := replied
  have counted := counted positiveReply
  refine ⟨⟨fun _ => known, fun _ =>
    ok.answered delivered well.sendable answer (well.safe allowed ok.replica),
    ?_, ?_, ?_, ?_⟩, ?_, ?_⟩
  · intro keep
    have notBelow := (state.kept keep).2.2
    refine ⟨faultless keep, connected, ?_⟩
    simp only [advanced]
    omega
  · intro _
    refine ⟨linked, rfl, ?_⟩
    simp only [counted, advanced]
    congr 1
    omega
  · intro working
    simp only [recovering, reduceCtorEq] at working
  · intro notRecovering
    exact absurd recovering notRecovering
  · intro working
    simp only [recovering, reduceCtorEq] at working
  · intro max entry
    refine ⟨_, table, ?_⟩
    simp only [counted, Option.some_inj] at entry
    rw [← entry, if_pos due.symm, due]

/-- A participant that keeps its connection also keeps its state when it is
given a record. -/
theorem push_faultless
    (state : Recovering admissible duty peer)
    (well : LogRecord id record)
    (keep : duty.keep) :
    (recovPeer record record.logToStr peer).2.Faultless ∧
      (recovPeer record record.logToStr peer).1.pstate = peer.1.pstate :=
  recovPeer_faultless (state.kept keep).1 fun _ =>
    ⟨well.sendable, well.answer_sendable peer.2.proc⟩

/-- Giving a participant a record of the log. -/
theorem push
    (state : Recovering admissible duty peer)
    (well : LogRecord id record)
    (allowed : admissible id record) :
    Pushed admissible duty id peer
      (recovPeer record record.logToStr peer) := by
  have safe : peer.1.pstate = .recovery →
      duty.known ∧ Safe admissible peer.2.proc record.logToStr := by
    intro recovering
    have known := state.reached (by rw [recovering]; simp)
    exact ⟨known, well.safe allowed (state.sound known).replica⟩
  have replayed := recovPeer_replayed record record.logToStr peer
    fun recovering => (safe recovering).2.answerable
  have faultless := state.push_faultless well
  have number : record.ID = id := well.number
  generalize recovPeer record record.logToStr peer = peer'
    at replayed faultless ⊢
  cases replayed with
  | idle idle => exact state.pushed_idle idle id _
  | skipped recovering _ other =>
      exact state.pushed_skipped recovering (number ▸ other) _
  | answered recovering due delivered _ replied counted =>
      exact state.pushed_answered well allowed recovering
        (number ▸ due (by rw [number]; exact well.lower)) delivered replied
        counted fun keep => (faultless keep).1
  | lost recovering error part lost =>
      obtain ⟨known, safe⟩ := safe recovering
      have faulty : ¬ duty.keep := by
        intro keep
        have same := (faultless keep).2
        simp only [recovering, reduceCtorEq] at same
      refine ⟨of_lost known (state.sound known) lost safe rfl rfl faulty,
        fun working => ?_, fun max entry => ?_⟩
      · cases working
      · cases entry

end Push

/-- Asking the leader for a record that it has: the answer is the record's
text, or the leader waits. -/
theorem ask
    (state : Recovering admissible duty peer)
    (working : peer.1.pstate = .working)
    {minID : Nat}
    (lower : txidStart ≤ minID)
    (upper : minID < peer.2.proc.txid) :
    Recovering admissible duty (workPeer (askReq minID) peer) ∧
      (workPeer (askReq minID) peer).1.maxTxid = none ∧
      (((workPeer (askReq minID) peer).1.pworkingRet = kvOk ∧
          (workPeer (askReq minID) peer).1.pstate = .working ∧
          (workPeer (askReq minID) peer).2.proc = peer.2.proc ∧
          ∃ record, LogRecord minID record ∧ admissible minID record ∧
            (workPeer (askReq minID) peer).1.pworkingDataRet =
              record.logToStr) ∨
        ((workPeer (askReq minID) peer).1.pworkingRet ≠ kvOk ∧
          (workPeer (askReq minID) peer).1.pstate = .waiting)) := by
  have connected : peer.1.pstate ≠ .waiting := by
    rw [working]
    simp
  have known := state.reached connected
  have ok := state.sound known
  obtain ⟨linked, current, table⟩ := state.working working
  obtain ⟨record, stored, well, allowed⟩ := ok.replica.record lower upper
  have small : minID < 2 ^ 63 := well.small
  have answer : peer.2.proc.pWorker (askReq minID) =
      some (record.logToStr, peer.2.proc) := by
    rw [askReq, Participant.pWorker_askData, Log.readTxid_of_lt small,
      if_neg (by omega), stored]
    rfl
  have safe := ok.replica.safe_of_same (.ask lower) answer
  have worked := workPeer_worked (askReq minID) peer
    fun _ _ => ⟨_, _, answer⟩
  have digits := length_toDecimal_le (show minID < 2 ^ 64 by omega)
  have faultless : duty.keep →
      (workPeer (askReq minID) peer).2.Faultless ∧
        (workPeer (askReq minID) peer).1.pstate = peer.1.pstate := by
    intro keep
    refine workPeer_faultless (state.kept keep).1 fun _ =>
      ⟨sendable_logToStr (show askDataTxid < 2 ^ 64 by decide)
        (show LogState.commit.code < 2 ^ 64 by decide) ?_, _, _, answer,
        well.sendable⟩
    simp only
    omega
  generalize workPeer (askReq minID) peer = peer' at worked faultless ⊢
  cases worked with
  | skipped idle => exact absurd working idle
  | @answered _ delivered sendable reply next replied =>
      rw [answer, Option.some_inj, Prod.mk.injEq] at replied
      obtain ⟨rfl, rfl⟩ := replied
      refine ⟨⟨fun _ => known, fun _ =>
        ok.answered delivered sendable answer safe, ?_, ?_, ?_, ?_⟩, table,
        Or.inl ⟨rfl, working, rfl, record, well, allowed, rfl⟩⟩
      · intro keep
        exact ⟨(faultless keep).1, connected, (state.kept keep).2.2⟩
      · intro recovering
        simp only [working, reduceCtorEq] at recovering
      · intro _
        exact ⟨linked, rfl, table⟩
      · intro _ notWorking
        exact absurd working notWorking
  | @lost _ code error part node' lost =>
      have faulty : ¬ duty.keep := by
        intro keep
        have same := (faultless keep).2
        simp only [working, reduceCtorEq] at same
      exact ⟨of_lost known ok lost safe rfl table faulty, table,
        Or.inr ⟨error, rfl⟩⟩

end Recovering

/-! ## The query for the last transaction number -/

/-- The number that a participant's answer to the query reports. -/
def Entry.reported (entry : Entry) : Option Nat :=
  if entry.precoveryRet = kvOk ∧ entry.preoveryDataRet ≠ [] then
    some (toUInt64 (strtol entry.preoveryDataRet))
  else none

/-- Enter the reported number into the table. -/
def noteTxid (peer : Entry × Node) : Entry × Node :=
  match peer.1.reported with
  | some max => ({ peer.1 with maxTxid := some max }, peer.2)
  | none => peer

/-- Put a connected participant into recovery mode. -/
def joinPeer (peer : Entry × Node) : Entry × Node :=
  (if peer.1.pstate = .temp ∨ peer.1.pstate = .working then
      { peer.1 with pstate := .recovery }
    else peer.1, peer.2)

/-- The decoded `txidReq`. -/
def txidLog : Log := ⟨recoveryTxid, .pre, []⟩

theorem strToLog_txidReq : Log.strToLog txidReq = some txidLog := by
  rw [txidReq, Log.strToLog_logToStr recoveryTxid [] (by simp),
    Log.readTxid_of_lt (by decide)]
  rfl

/-- What the beginning of `Recovery` does to one participant. -/
def queryPeer (peer : Entry × Node) : Entry × Node :=
  noteTxid (recovPeer txidLog txidReq (joinPeer peer))

/-- Recovery mode is for the participants that do not wait. -/
theorem joinPeer_connected
    {peer : Entry × Node}
    (recovering : (joinPeer peer).1.pstate = .recovery) :
    peer.1.pstate ≠ .waiting := by
  intro waiting
  simp only [joinPeer, waiting, reduceCtorEq, or_self, if_false]
    at recovering

/-- The answer to the query is the number before the participant's next
one. -/
theorem answer_txidReq
    {p : Participant}
    (start : txidStart ≤ p.txid)
    (bound : p.txid ≤ 2 ^ 63)
    {reply : Bytes}
    {next : Participant}
    (replied : p.pWorker txidReq = some (reply, next)) :
    next = p ∧ reply ≠ [] ∧ toUInt64 (strtol reply) = p.txid - 1 := by
  simp only [txidStart] at start
  rw [show txidReq = Log.logToStr ⟨recoveryTxid, .pre, []⟩ from rfl,
    p.pWorker_recovery [], Option.some_inj, Prod.mk.injEq] at replied
  obtain ⟨isReply, isSame⟩ := replied
  refine ⟨isSame.symm, ?_, ?_⟩
  · rw [← isReply]
    exact toDecimal_ne_nil _
  · rw [← isReply, Log.toUInt64_strtol_toDecimal]
    simp only [Log.readTxid]
    omega

namespace Joining

variable
  {admissible : Nat → Log → Prop}
  {duty : Duty}
  {peer : Entry × Node}

/-- Who does not wait enters recovery mode. -/
theorem joined (state : Joining admissible duty peer) :
    (joinPeer peer).1.pstate = .recovery ∨
      ((joinPeer peer).1.pstate = .waiting ∧ peer.1.pstate = .waiting) := by
  simp only [joinPeer]
  split
  · exact Or.inl rfl
  · rename_i others
    cases pstate : peer.1.pstate with
    | waiting => exact Or.inr ⟨rfl, rfl⟩
    | recovery => exact Or.inl rfl
    | working => exact absurd (Or.inr pstate) others
    | temp => exact absurd (Or.inl pstate) others
    | invalid => exact absurd pstate state.valid

theorem table_joinPeer (state : Joining admissible duty peer) :
    (joinPeer peer).1.maxTxid = none := by
  simp only [joinPeer]
  split
  · exact state.table
  · exact state.table

/-- A participant that keeps its connection answers the query. -/
theorem query_faultless
    (state : Joining admissible duty peer)
    (keep : duty.keep) :
    (recovPeer txidLog txidReq (joinPeer peer)).2.Faultless ∧
      (recovPeer txidLog txidReq (joinPeer peer)).1.pstate =
        (joinPeer peer).1.pstate := by
  refine recovPeer_faultless (state.kept keep).1 fun recovering =>
    ⟨by decide, _, _, (joinPeer peer).2.proc.pWorker_recovery [], ?_⟩
  have known := state.reached (joinPeer_connected recovering)
  have bound := (state.sound known).replica.bound
  exact sendable_toDecimal (by simp only [joinPeer]; omega)

/-- After the query, a participant that answered is in recovery with its last
number in the table. -/
theorem query (state : Joining admissible duty peer) :
    Recovering admissible duty (queryPeer peer) ∧
      (queryPeer peer).1.pstate ≠ .working ∧
      (queryPeer peer).1.maxTxid =
        (recovPeer txidLog txidReq (joinPeer peer)).1.reported := by
  have answer := fun p : Participant => p.pWorker_recovery []
  have replayed := recovPeer_replayed txidLog txidReq (joinPeer peer)
    fun _ _ => ⟨_, _, answer (joinPeer peer).2.proc⟩
  have faultless := state.query_faultless
  have table := state.table_joinPeer
  rw [queryPeer, noteTxid]
  generalize recovPeer txidLog txidReq (joinPeer peer) = peer'
    at replayed faultless ⊢
  cases replayed with
  | idle idle =>
      have waiting : (joinPeer peer).1.pstate = .waiting ∧
          peer.1.pstate = .waiting := by
        rcases state.joined with recovering | waiting
        · exact absurd recovering idle
        · exact waiting
      simp only [Entry.reported, retSkip, kvOk, one_ne_zero, false_and,
        if_false, waiting.1, ne_eq, reduceCtorEq, not_false_eq_true, table,
        and_self, and_true]
      refine ⟨fun absurdity => absurd rfl absurdity, state.sound, ?_, ?_, ?_,
        fun _ _ => ⟨rfl, rfl⟩⟩
      · intro keep
        exact absurd waiting.2 (state.kept keep).2.1
      · intro recovering
        simp at recovering
      · intro working
        simp at working
  | skipped recovering lower other =>
      simp only [txidLog, recoveryTxid, txidStart] at lower
      omega
  | @answered recovering due delivered sendable reply next replied maxTxid
      counted =>
      have known := state.reached (joinPeer_connected recovering)
      have ok := state.sound known
      obtain ⟨process, nonempty, value⟩ :=
        answer_txidReq ok.replica.start ok.replica.bound replied
      have safe : Safe admissible peer.2.proc txidReq :=
        ok.replica.safe_of_same .txid (answer peer.2.proc)
      simp only [Entry.reported, nonempty, ne_eq, not_false_eq_true,
        and_self, if_true, value]
      refine ⟨⟨fun _ => known, fun _ => ?_, ?_, ?_, ?_, ?_⟩, ?_⟩
      · exact ok.answered delivered sendable replied safe
      · intro keep
        obtain ⟨_, _, notBelow⟩ := state.kept keep
        refine ⟨(faultless keep).1, ?_, ?_⟩
        · rw [recovering]
          simp
        · rw [process]
          exact notBelow
      · intro _
        have linked := Node.link_of_delivers delivered
        refine ⟨linked, rfl, ?_⟩
        rw [process]
      · intro working
        simp only [recovering, reduceCtorEq] at working
      · intro notRecovering
        exact absurd recovering notRecovering
      · rw [recovering]
        simp
  | @lost recovering code error part node' lost =>
      have known := state.reached (joinPeer_connected recovering)
      have ok := state.sound known
      have faulty : ¬ duty.keep := by
        intro keep
        have same := (faultless keep).2
        simp only [recovering, reduceCtorEq] at same
      simp only [Entry.reported, error, false_and, if_false, ne_eq,
        reduceCtorEq, not_false_eq_true, and_true]
      exact Recovering.of_lost known ok lost
        (ok.replica.safe_of_same .txid (answer peer.2.proc)) rfl rfl faulty

end Joining

end Lab3
end CloudComputing
