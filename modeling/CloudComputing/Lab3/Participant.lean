import CloudComputing.Lab3.Kv
import CloudComputing.Lab3.Logger
import CloudComputing.Lab3.Parser

/-!
# The participant

`participant.cc`: how a participant answers one message of the coordinator.
`pWorker` dispatches on the transaction number, `eventParser` on the first
byte of the command.  A result `none` stands for a failed assertion, which
ends the process.

The theorems give the answer to each kind of message the coordinator sends, so
that later proofs need not unfold the two dispatchers.
-/

namespace CloudComputing
namespace Lab3

open Decimal CloudComputing.Lab3.Parser

/-- The state of a participant process. -/
structure Participant where
  /-- `_TXID`, the next transaction number. -/
  txid : Nat
  /-- `_lg` -/
  lg : Logger
  /-- `_kvdb` -/
  kvdb : KV

namespace Participant

/-- `Init`, with the empty log and map of a new process. -/
def init : Participant :=
  { txid := txidStart, lg := .empty, kvdb := .empty }

/-- The `switch` of `eventParser` on the first byte of the command name; an
empty name has the terminating NUL there. -/
def runComds (kvdb : KV) : List Bytes → Bytes × KV
  | [] => (getErrorMessage, kvdb)
  | name :: args =>
      match name.headD 0 with
      -- 'D'
      | 68 =>
          let (delnumber, kvdb) := kvdb.kvDELArry args
          (getIntergerMessage delnumber, kvdb)
      -- 'S'
      | 83 =>
          match args with
          | [key, value] => (getSuccessMessage, kvdb.kvSET key value)
          | _ => (getErrorMessage, kvdb)
      -- 'G'
      | 71 =>
          match args with
          | [key] => (getRESPArryOfString (kvdb.kvGET key), kvdb)
          | _ => (getErrorMessage, kvdb)
      -- 'P'
      | 80 => (str "PRE", kvdb)
      | _ => (getErrorMessage, kvdb)

/-- `eventParser`: the answer and the map afterwards. -/
def eventParser (kvdb : KV) (event : Bytes) : Option (Bytes × KV) :=
  (parserRESPArry event).map fun (comds, _) => runComds kvdb comds

/-- `pWorker`: the answer and the participant afterwards. -/
def pWorker (p : Participant) (task : Bytes) : Option (Bytes × Participant) := do
  let l ← Log.strToLog task
  if l.ID = superTxid then
    let (rstr, kvdb) ← eventParser p.kvdb l.event
    some (rstr, { p with kvdb := kvdb })
  else if l.ID = recoveryTxid then
    some (toDecimal (p.txid - 1), p)
  else if l.ID = askDataTxid then
    let tid := toUInt64 (strtol l.event)
    if p.txid ≤ tid then some ([], p)
    else
      let entry ← p.lg.getLogByTXID tid
      some (entry.logToStr, p)
  else if l.ID = p.txid ∧ l.state = .pre then
    some (str "PRE", p)
  else if l.ID = p.txid ∧ l.state = .commit then
    let (rc, kvdb) ← eventParser p.kvdb l.event
    if rc ≠ getErrorMessage then
      some (rc, { txid := p.txid + 1, lg := p.lg.writeLog l, kvdb := kvdb })
    else some (rc, { p with kvdb := kvdb })
  else some (getErrorMessage, p)

/-! ## Acceptance of a command does not depend on the map -/

/-- The commands that `eventParser` answers with something else than the error
message. -/
def Accepted : List Bytes → Bool
  | [] => false
  | name :: args =>
      match name.headD 0 with
      | 68 => true
      | 83 => args.length = 2
      | 71 => args.length = 1
      | 80 => true
      | _ => false

theorem getIntergerMessage_ne_error (number : Int) :
    getIntergerMessage number ≠ getErrorMessage := by
  intro equal
  have := congrArg List.head? equal
  simp [getIntergerMessage, getErrorMessage, show str ":" = [58] by rfl,
    show str "-ERROR\r\n" = [45, 69, 82, 82, 79, 82, 13, 10] by rfl] at this

theorem getSuccessMessage_ne_error :
    getSuccessMessage ≠ getErrorMessage := by
  decide

theorem getRESPArryOfString_ne_error (raw : Bytes) :
    getRESPArryOfString raw ≠ getErrorMessage := by
  intro equal
  have := congrArg List.head? equal
  simp [getRESPArryOfString, getErrorMessage, show str "*" = [42] by rfl,
    show str "-ERROR\r\n" = [45, 69, 82, 82, 79, 82, 13, 10] by rfl] at this

/-- A command is answered with the error message exactly when it is not
accepted. -/
theorem runComds_error_iff
    (kvdb : KV)
    (comds : List Bytes) :
    (runComds kvdb comds).1 = getErrorMessage ↔ Accepted comds = false := by
  cases comds with
  | nil => simp [runComds, Accepted]
  | cons name args =>
      simp only [runComds, Accepted]
      split
      · simp [getIntergerMessage_ne_error]
      · match args with
        | [] => simp
        | [_] => simp
        | [_, _] => simp [getSuccessMessage_ne_error]
        | _ :: _ :: _ :: _ => simp
      · match args with
        | [] => simp
        | [_] => simp [getRESPArryOfString_ne_error]
        | _ :: _ :: _ => simp
      · simp only [reduceCtorEq, iff_false]
        decide
      · simp

/-- A rejected command leaves the map unchanged. -/
theorem runComds_of_not_accepted
    (kvdb : KV)
    {comds : List Bytes}
    (rejected : Accepted comds = false) :
    runComds kvdb comds = (getErrorMessage, kvdb) := by
  cases comds with
  | nil => rfl
  | cons name args =>
      simp only [Accepted] at rejected
      simp only [runComds]
      split at rejected
      · exact absurd rejected (by simp)
      · match args with
        | [] => rfl
        | [_] => rfl
        | [_, _] => simp at rejected
        | _ :: _ :: _ :: _ => rfl
      · match args with
        | [] => rfl
        | [_] => simp at rejected
        | _ :: _ :: _ => rfl
      · exact absurd rejected (by simp)
      · rfl

/-- A command whose name starts with `G` leaves the map unchanged. -/
theorem runComds_get_snd
    (kvdb : KV)
    {name : Bytes}
    (args : List Bytes)
    (isGet : name.headD 0 = 71) :
    (runComds kvdb (name :: args)).2 = kvdb := by
  simp only [runComds, isGet]
  split <;> rfl

/-- An encoded vector of strings is decoded before it is run. -/
theorem eventParser_getRESPArry
    (kvdb : KV)
    {comds : List Bytes}
    (small : (getRESPArry comds).length < 2 ^ 31) :
    eventParser kvdb (getRESPArry comds) = some (runComds kvdb comds) := by
  have decoded := parserRESPArry_getRESPArry small []
  rw [List.append_nil] at decoded
  rw [eventParser, decoded]
  rfl

/-! ## Answers to the messages of the coordinator -/

/-- A vote request is granted exactly for the participant's own number; the
state does not change. -/
theorem pWorker_vote
    (p : Participant)
    {id : Nat}
    (lower : txidStart ≤ id)
    (event : Bytes) :
    p.pWorker (Log.logToStr ⟨id, .pre, event⟩) =
      some
        (if Log.readTxid id = p.txid then str "PRE" else getErrorMessage, p) := by
  have ordinary : txidStart ≤ Log.readTxid id := by
    simp only [Log.readTxid, txidStart] at lower ⊢
    omega
  simp only [txidStart] at ordinary
  rw [pWorker, Log.strToLog_logToStr id event (by simp)]
  simp only [Option.bind_eq_bind, Option.bind_some, superTxid, recoveryTxid,
    askDataTxid, reduceCtorEq, and_false, and_true, if_false]
  rw [if_neg (by omega), if_neg (by omega), if_neg (by omega)]
  split <;> rfl

/-- A commit request for the participant's own number runs the command and, if
it is accepted, logs it and advances the number; every other commit request is
refused. -/
theorem pWorker_commit
    (p : Participant)
    {id : Nat}
    (lower : txidStart ≤ id)
    {comds : List Bytes}
    (small : (getRESPArry comds).length < 2 ^ 31) :
    p.pWorker (Log.logToStr ⟨id, .commit, getRESPArry comds⟩) =
      some
        (if Log.readTxid id = p.txid ∧ Accepted comds = true then
          ((runComds p.kvdb comds).1,
            { txid := p.txid + 1
              lg := p.lg.writeLog
                ⟨Log.readTxid id, .commit, getRESPArry comds⟩
              kvdb := (runComds p.kvdb comds).2 })
        else (getErrorMessage, p)) := by
  have ordinary : txidStart ≤ Log.readTxid id := by
    simp only [Log.readTxid, txidStart] at lower ⊢
    omega
  simp only [txidStart] at ordinary
  rw [pWorker, Log.strToLog_logToStr id _ (by simp)]
  simp only [Option.bind_eq_bind, Option.bind_some, superTxid, recoveryTxid,
    askDataTxid, reduceCtorEq, and_false, and_true, if_false]
  rw [if_neg (by omega), if_neg (by omega), if_neg (by omega)]
  by_cases own : Log.readTxid id = p.txid
  · rw [if_pos own, eventParser_getRESPArry p.kvdb small]
    simp only [Option.bind_some]
    by_cases accepted : Accepted comds = true
    · have answered : (runComds p.kvdb comds).1 ≠ getErrorMessage := by
        rw [ne_eq, runComds_error_iff, accepted]
        exact Bool.noConfusion
      rw [if_pos answered, if_pos ⟨own, accepted⟩]
    · have rejected : Accepted comds = false := by simpa using accepted
      rw [runComds_of_not_accepted p.kvdb rejected, if_neg (by simp),
        if_neg (by simp [rejected])]
  · rw [if_neg own, if_neg (by simp [own])]

/-- A read request answers and does not change the state. -/
theorem pWorker_get
    (p : Participant)
    {name : Bytes}
    {args : List Bytes}
    (small : (getRESPArry (name :: args)).length < 2 ^ 31)
    (isGet : name.headD 0 = 71) :
    p.pWorker (Log.logToStr ⟨superTxid, .commit, getRESPArry (name :: args)⟩) =
      some ((runComds p.kvdb (name :: args)).1, p) := by
  have same := runComds_get_snd p.kvdb args isGet
  have number : Log.readTxid superTxid = superTxid :=
    Log.readTxid_of_lt (by decide)
  rw [pWorker, Log.strToLog_logToStr superTxid _ (by simp), number,
    Option.bind_eq_bind, Option.bind_some, if_pos rfl]
  dsimp only
  rw [eventParser_getRESPArry p.kvdb small, Option.bind_eq_bind,
    Option.bind_some, same]

/-- A request for the transaction number is answered with the last one. -/
theorem pWorker_recovery
    (p : Participant)
    (event : Bytes) :
    p.pWorker (Log.logToStr ⟨recoveryTxid, .pre, event⟩) =
      some (toDecimal (p.txid - 1), p) := by
  rw [pWorker, Log.strToLog_logToStr recoveryTxid event (by simp)]
  simp only [Option.bind_eq_bind, Option.bind_some,
    Log.readTxid_of_lt (show recoveryTxid < 2 ^ 63 by decide),
    show ¬ recoveryTxid = superTxid by decide, if_true, if_false]

/-- A request for a record is answered with its text, or with nothing when the
participant has not reached it. -/
theorem pWorker_askData
    (p : Participant)
    (id : Nat) :
    p.pWorker (Log.logToStr ⟨askDataTxid, .commit, toDecimal id⟩) =
      if p.txid ≤ Log.readTxid id then some ([], p)
      else (p.lg (Log.readTxid id)).map fun entry => (entry.logToStr, p) := by
  rw [pWorker, Log.strToLog_logToStr askDataTxid _ (by simp)]
  simp only [Option.bind_eq_bind, Option.bind_some,
    Log.readTxid_of_lt (show askDataTxid < 2 ^ 63 by decide),
    show ¬ askDataTxid = superTxid by decide,
    show ¬ askDataTxid = recoveryTxid by decide, if_true, if_false,
    Log.toUInt64_strtol_toDecimal, Logger.getLogByTXID]
  split
  · rfl
  · cases p.lg (Log.readTxid id) <;> rfl

end Participant
end Lab3
end CloudComputing
