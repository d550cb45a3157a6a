import CloudComputing.Lab3.Framing
import CloudComputing.Lab3.Participant

/-!
# The messages of the coordinator

The texts that the functions of `coordinator.cc` send to a participant, and
`Message`, the set of all of them.  A recovery replay is the text of a log
record, which is a commit request once more.
-/

namespace CloudComputing
namespace Lab3

open Decimal CloudComputing.Lab3.Parser Network

/-- The command names for which `Working` calls `UpdateDB`. -/
def isUpdate : List Bytes → Bool
  | [] => false
  | name :: _ => name = str "SET" || name = str "DEL"

/-- The command name for which `Working` calls `Request`. -/
def isRequest : List Bytes → Bool
  | [] => false
  | name :: _ => name = str "GET"

/-- `voteReq` of `UpdateDB` -/
def voteReq (txid : Nat) : Bytes := Log.logToStr ⟨txid, .pre, []⟩

/-- `commitReq` of `UpdateDB` -/
def commitReq (txid : Nat) (resp : Bytes) : Bytes :=
  Log.logToStr ⟨txid, .commit, resp⟩

/-- `getReq` of `Request` -/
def getReq (resp : Bytes) : Bytes := Log.logToStr ⟨superTxid, .commit, resp⟩

/-- `txidReq` of `Recovery` -/
def txidReq : Bytes := Log.logToStr ⟨recoveryTxid, .pre, []⟩

/-- The ask task of `recoveryFromP` -/
def askReq (minID : Nat) : Bytes :=
  Log.logToStr ⟨askDataTxid, .commit, toDecimal minID⟩

/-- The messages that the coordinator sends, with any number of its own or a
log record's. -/
inductive Message : Bytes → Prop
  | vote
      {txid : Nat}
      (lower : txidStart ≤ txid) :
      Message (voteReq txid)
  | commit
      {txid : Nat}
      (lower : txidStart ≤ txid)
      {task : List Bytes}
      (update : isUpdate task = true)
      (sendable : Sendable (commitReq txid (getRESPArry task))) :
      Message (commitReq txid (getRESPArry task))
  | request
      {task : List Bytes}
      (read : isRequest task = true)
      (sendable : Sendable (getReq (getRESPArry task))) :
      Message (getReq (getRESPArry task))
  | txid : Message txidReq
  | ask
      {minID : Nat}
      (lower : txidStart ≤ minID) :
      Message (askReq minID)

/-- A message is longer than the command it carries. -/
theorem length_event_le (log : Log) :
    log.event.length ≤ log.logToStr.length := by
  simp only [Log.logToStr, List.length_append]
  omega

/-- The command of a message that fits is short enough to be decoded. -/
theorem event_small_of_sendable
    {log : Log}
    (sendable : Sendable log.logToStr) :
    log.event.length < 2 ^ 31 := by
  have := length_event_le log
  simp only [Sendable] at sendable
  omega

/-- Lowering the number of a record does not lengthen its text. -/
theorem length_commitReq_mono
    {txid other : Nat}
    (ordered : txid ≤ other)
    (resp : Bytes) :
    (commitReq txid resp).length ≤ (commitReq other resp).length := by
  have := length_toDecimal_mono ordered
  simp only [commitReq, Log.logToStr, List.length_append]
  omega

/-! ## Lengths of texts and answers -/

theorem length_toDecimal_le
    {number : Nat}
    (small : number < 2 ^ 64) :
    (toDecimal number).length ≤ 20 := by
  simp only [toDecimal, List.length_map]
  rw [Nat.length_toDigits_le_iff (by omega) (by omega)]
  omega

theorem sendable_toDecimal
    {number : Nat}
    (small : number < 2 ^ 64) :
    Sendable (toDecimal number) := by
  have := length_toDecimal_le small
  simp only [Sendable, headerLen]
  omega

theorem length_logToStr (log : Log) :
    log.logToStr.length =
      15 + (toDecimal log.ID).length + (toDecimal log.state.code).length +
        log.event.length := by
  simp only [Log.logToStr, List.length_append,
    show (str "TXID: ").length = 6 by rfl, show (str "S: ").length = 3 by rfl,
    show (str "\r\n").length = 2 by rfl,
    show (str "\r\n\r\n").length = 4 by rfl]
  omega

/-- A record fits when its command is not too long. -/
theorem sendable_logToStr
    {log : Log}
    (number : log.ID < 2 ^ 64)
    (state : log.state.code < 2 ^ 64)
    (event : log.event.length < 2 ^ 31 - 64) :
    Sendable log.logToStr := by
  have idDigits := length_toDecimal_le number
  have stateDigits := length_toDecimal_le state
  have := length_logToStr log
  simp only [Sendable, headerLen]
  omega

/-- The answer to an update is short. -/
theorem sendable_runComds_update
    (kvdb : KV)
    {task : List Bytes}
    (update : isUpdate task = true)
    (small : (getRESPArry task).length < 2 ^ 31) :
    Sendable (Participant.runComds kvdb task).1 := by
  cases task with
  | nil => simp [isUpdate] at update
  | cons name args =>
      have named : name = str "SET" ∨ name = str "DEL" := by
        simpa [isUpdate] using update
      rcases named with rfl | rfl
      · have head : (str "SET").headD 0 = 83 := by rfl
        simp only [Participant.runComds, head]
        split
        · exact (by decide : Sendable getSuccessMessage)
        · exact (by decide : Sendable getErrorMessage)
      · have head : (str "DEL").headD 0 = 68 := by rfl
        simp only [Participant.runComds, head]
        obtain ⟨number, bound, counted⟩ := kvdb.kvDELArry_fst_le args
        have listed := length_flatMap_getStringMessage (str "DEL" :: args)
        have encoded : ((str "DEL" :: args).flatMap getStringMessage).length ≤
            (getRESPArry (str "DEL" :: args)).length := by
          rw [getRESPArry]
          simp only [List.length_append]
          omega
        simp only [List.length_cons] at listed
        have digits := length_toDecimal_le (show number < 2 ^ 64 by omega)
        rw [counted, Sendable, getIntergerMessage, intToDecimal_natCast]
        simp only [List.length_append, headerLen,
          show (str ":").length = 1 by rfl,
          show (str "\r\n").length = 2 by rfl]
        omega

/-- A command for `UpdateDB` is none for `Request`. -/
theorem not_isRequest_of_isUpdate
    {task : List Bytes}
    (update : isUpdate task = true) :
    ¬ isRequest task = true := by
  intro read
  cases task with
  | nil => cases update
  | cons name args =>
      have named : name = str "GET" := by simpa [isRequest] using read
      rw [named] at update
      cases update

theorem request_head
    {task : List Bytes}
    (read : isRequest task = true) :
    ∃ name args, task = name :: args ∧ name.headD 0 = 71 := by
  cases task with
  | nil => simp [isRequest] at read
  | cons name args =>
      have named : name = str "GET" := by simpa [isRequest] using read
      exact ⟨name, args, rfl, by rw [named]; rfl⟩

/-- A participant answers a read of the coordinator from its map. -/
theorem Participant.pWorker_getReq
    (p : Participant)
    {task : List Bytes}
    (isRead : isRequest task = true)
    (sendable : Sendable (getReq (getRESPArry task))) :
    p.pWorker (getReq (getRESPArry task)) =
      some ((runComds p.kvdb task).1, p) := by
  obtain ⟨name, args, rfl, isGet⟩ := request_head isRead
  exact p.pWorker_get (event_small_of_sendable sendable) isGet

/-- A participant's answer to a read is not much longer than the value. -/
theorem sendable_runComds_read
    {kvdb : KV}
    (short : ∀ key value, kvdb key = some value → value.length < 2 ^ 30)
    {task : List Bytes}
    (read : isRequest task = true) :
    Sendable (Participant.runComds kvdb task).1 := by
  obtain ⟨name, args, rfl, isGet⟩ := request_head read
  have error : Sendable getErrorMessage := by decide
  simp only [Participant.runComds, isGet]
  rcases args with _ | ⟨key, _ | ⟨other, rest⟩⟩
  · exact error
  · have bound : (kvdb.kvGET key).length < 2 ^ 30 := by
      unfold KV.kvGET
      split
      · decide
      · rename_i value found
        exact short key value found
    have digits := length_toDecimal_le
      (show (kvdb.kvGET key).length < 2 ^ 64 by omega)
    have one : (intToDecimal 1).length = 1 := by rfl
    simp only [Sendable, getRESPArryOfString, List.length_append, headerLen,
      length_getStringMessage_of_lt
        (show (kvdb.kvGET key).length < 2 ^ 31 by omega), one,
      show (str "*").length = 1 by rfl, show (str "\r\n").length = 2 by rfl]
    omega
  · exact error

/-- No command is answered with nothing. -/
theorem Participant.runComds_ne_nil
    (kvdb : KV)
    (comds : List Bytes) :
    (runComds kvdb comds).1 ≠ [] := by
  have error : getErrorMessage ≠ [] := by decide
  unfold runComds
  split
  · exact error
  · split
    · simp [getIntergerMessage, show str ":" = [58] by rfl]
    · split
      · exact (by decide : getSuccessMessage ≠ [])
      · exact error
    · split
      · simp [getRESPArryOfString, show str "*" = [42] by rfl]
      · exact error
    · exact (by decide : str "PRE" ≠ [])
    · exact error

end Lab3
end CloudComputing
