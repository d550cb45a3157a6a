import CloudComputing.Lab3.Rejected

/-!
# What a client receives

On every path through `Working` the reply is one message of the parser:
a status, a number of deletions, or the array with a value.  `sendResult` sends
it with the byte that ends the string, so what the client receives is one byte
longer than the message, and no message.
-/

namespace CloudComputing
namespace Lab3

open Decimal CloudComputing.Lab3.Parser Network

/-- `sendResult`: the bytes that are sent, of which there are
`content.length() + 1` in `content.c_str()`. -/
def Network.sendResult (content : Bytes) : Bytes :=
  content ++ [0]

/-- The bytes are one message, and its decoder consumes all of them. -/
def Whole (bytes : Bytes) : Prop :=
  ∃ message : Resp, bytes = message.encode ∧
    Resp.decodeLike bytes message = some (message, bytes.length)

/-- The reply is a message whose lengths and numbers fit. -/
def IsMessage (reply : Bytes) : Prop :=
  ∃ message : Resp, message.Fits ∧ reply = message.encode

theorem isMessage_error : IsMessage getErrorMessage :=
  ⟨.status false, trivial, rfl⟩

/-- Without the byte that ends the string a message is whole. -/
theorem IsMessage.whole {reply : Bytes} (isMessage : IsMessage reply) :
    Whole reply := by
  obtain ⟨message, fits, rfl⟩ := isMessage
  have decoded := Resp.decodeLike_encode fits []
  rw [List.append_nil] at decoded
  exact ⟨message, rfl, decoded⟩

/-! ## The byte behind a message -/

/-- Every message ends with a line feed. -/
theorem Resp.getLast?_encode (message : Resp) :
    message.encode.getLast? = some 10 := by
  have lineFeed : (str "\r\n").getLast? = some 10 := rfl
  have ends : ∀ text : Bytes, (text ++ str "\r\n").getLast? = some 10 := by
    intro text
    rw [List.getLast?_append, lineFeed, Option.some_or]
  cases message with
  | string raw => exact ends _
  | integer raw => exact ends _
  | status success =>
      cases success with
      | true => rfl
      | false => rfl
  | array raw =>
      change (getRESPArry raw).getLast? = some 10
      unfold getRESPArry
      induction raw using List.reverseRecOn with
      | nil =>
          rw [List.flatMap_nil, List.append_nil]
          exact ends _
      | append_singleton raw last =>
          rw [List.flatMap_append, List.flatMap_singleton]
          unfold getStringMessage
          rw [← List.append_assoc, ← List.append_assoc]
          exact ends _

/-- What `sendResult` sends is never a message. -/
theorem not_whole_sendResult (content : Bytes) :
    ¬ Whole (sendResult content) := by
  rintro ⟨message, isMessage, _⟩
  have last := Resp.getLast?_encode message
  rw [← isMessage, sendResult, List.getLast?_concat] at last
  revert last
  decide

/-- The decoder of the reply leaves the last byte. -/
theorem decodeLike_sendResult
    {message : Resp}
    (fits : message.Fits) :
    Resp.decodeLike (sendResult message.encode) message =
      some (message, (sendResult message.encode).length - 1) := by
  rw [sendResult, Resp.decodeLike_encode fits, List.length_append,
    List.length_singleton, Nat.add_sub_cancel]

/-! ## The replies of `Working` -/

/-- What a participant answers to a command of a client. -/
theorem Participant.isMessage_runComds
    (kvdb : KV)
    {task : List Bytes}
    (known : isUpdate task = true ∨ isRequest task = true)
    (small : task.length < 2 ^ 31)
    (short : (runComds kvdb task).1.length < 2 ^ 31) :
    IsMessage (runComds kvdb task).1 := by
  cases task with
  | nil => exact isMessage_error
  | cons name args =>
      have named : name = str "SET" ∨ name = str "DEL" ∨ name = str "GET" := by
        simpa [isUpdate, isRequest, or_assoc] using known
      rcases named with rfl | rfl | rfl
      · have head : (str "SET").headD 0 = 83 := rfl
        simp only [runComds, head]
        split
        · exact ⟨.status true, trivial, rfl⟩
        · exact isMessage_error
      · have head : (str "DEL").headD 0 = 68 := rfl
        obtain ⟨number, bound, counted⟩ := kvdb.kvDELArry_fst_le args
        rw [List.length_cons] at small
        simp only [runComds, head]
        rw [counted]
        exact ⟨.integer number, ⟨by omega, by omega⟩, rfl⟩
      · have head : (str "GET").headD 0 = 71 := rfl
        simp only [runComds, head] at short ⊢
        split at short
        · rename_i key
          have single : getRESPArryOfString (kvdb.kvGET key) =
              getRESPArry [kvdb.kvGET key] := by
            unfold getRESPArryOfString getRESPArry
            rw [List.flatMap_singleton, List.length_singleton,
              toInt32_of_lt (by omega)]
            rfl
          rw [single] at short ⊢
          refine ⟨.array [kvdb.kvGET key], ?_, rfl⟩
          unfold Resp.Fits
          omega
        · exact isMessage_error

/-- The answer to a read. -/
theorem isMessage_of_answered
    {task : List Bytes}
    {peer : Entry × Node}
    (isRead : isRequest task = true)
    (answered : (workPeer (getReq (getRESPArry task)) peer).1.answered = true) :
    IsMessage (workPeer (getReq (getRESPArry task)) peer).1.pworkingDataRet := by
  obtain ⟨name, args, rfl, isGet⟩ := request_head isRead
  have answer := fun sendable : Sendable (getReq (getRESPArry (name :: args))) =>
    peer.2.proc.pWorker_get (event_small_of_sendable sendable) isGet
  rw [Entry.answered, Bool.and_eq_true, decide_eq_true_eq] at answered
  obtain ⟨_, _, sendable, fits⟩ := (answered_workPeer answer).mp answered.1
  have small := length_lt_of_getRESPArry_lt (event_small_of_sendable sendable)
  rw [data_workPeer answer answered.1]
  unfold Sendable at fits
  exact Participant.isMessage_runComds _ (.inr isRead) small (by omega)

/-- The answer to a commit. -/
theorem isMessage_of_acknowledged
    {txid : Nat}
    {task : List Bytes}
    {peer : Entry × Node}
    (lower : txidStart ≤ txid)
    (update : isUpdate task = true)
    (acknowledged :
      (workPeer (commitReq txid (getRESPArry task)) peer).1.acknowledged =
        true) :
    IsMessage
      (workPeer (commitReq txid (getRESPArry task)) peer).1.pworkingDataRet := by
  rw [Entry.acknowledged, Bool.and_eq_true, decide_eq_true_eq] at acknowledged
  by_cases own : Log.readTxid txid = peer.2.proc.txid ∧
      Participant.Accepted task = true
  · have answer : Sendable (commitReq txid (getRESPArry task)) →
        peer.2.proc.pWorker (commitReq txid (getRESPArry task)) =
          some ((Participant.runComds peer.2.proc.kvdb task).1,
            peer.2.proc.append task) := by
      intro sendable
      rw [peer.2.proc.pWorker_commitReq lower
        (event_small_of_sendable sendable), if_pos own]
    obtain ⟨_, _, sendable, fits⟩ :=
      (answered_workPeer answer).mp acknowledged.1
    have small :=
      length_lt_of_getRESPArry_lt (event_small_of_sendable sendable)
    rw [data_workPeer answer acknowledged.1]
    unfold Sendable at fits
    exact Participant.isMessage_runComds _ (.inl update) small (by omega)
  · have answer : Sendable (commitReq txid (getRESPArry task)) →
        peer.2.proc.pWorker (commitReq txid (getRESPArry task)) =
          some (getErrorMessage, peer.2.proc) := by
      intro sendable
      rw [peer.2.proc.pWorker_commitReq lower
        (event_small_of_sendable sendable), if_neg own]
    rw [data_workPeer answer acknowledged.1]
    exact isMessage_error

/-- The reply to a command. -/
theorem Dispatched.isMessage
    {s s' : Sys}
    {task : List Bytes}
    {reply : Bytes}
    (dispatched : Dispatched s task reply s')
    (lower : txidStart ≤ s.co.txid) :
    IsMessage reply := by
  cases dispatched with
  | update update updated =>
      cases updated with
      | refused noVote => exact isMessage_error
      | unanswered vote silent => exact isMessage_error
      | committed vote member answered =>
          exact isMessage_of_acknowledged lower update answered
  | unread isRead silent => exact isMessage_error
  | read isRead order silent answered =>
      exact isMessage_of_answered isRead answered
  | other notUpdate notRead => exact isMessage_error

/-- `Working` makes a reply that is a message, for whatever the client has sent
and in any state that the system reaches, and the client receives none. -/
theorem working_sends_no_message
    {pnum : Nat}
    {w : World}
    (reachable : World.Reachable pnum w)
    (fates : Nat → List Fate)
    (heap : Nat → Nat → Option Bytes)
    {script : List Inbound}
    {rc : Int}
    {task : List Bytes}
    (received : recvCommand heap script = some (rc, task)) :
    ∃ reply s', working heap script (w.sys.withFates fates) =
        some (reply, s') ∧
      Whole reply ∧ ¬ Whole (sendResult reply) ∧
      ∃ message : Resp, reply = message.encode ∧
        Resp.decodeLike (sendResult reply) message =
          some (message, (sendResult reply).length - 1) := by
  have replies : ∃ reply s', working heap script (w.sys.withFates fates) =
      some (reply, s') ∧ IsMessage reply := by
    rw [working, received, Option.bind_eq_bind, Option.bind_some]
    dsimp only
    split
    · exact ⟨_, _, rfl, isMessage_error⟩
    · split
      · exact ⟨_, _, rfl, isMessage_error⟩
      · obtain ⟨reply, s', executed, dispatched⟩ :=
          exec_dispatch (w.sys.withFates fates) task
        have rest := reachable.ok.rest.withFates fates
        exact ⟨reply, s', executed, dispatched.isMessage rest.log.start⟩
  obtain ⟨reply, s', executed, isMessage⟩ := replies
  have whole := isMessage.whole
  obtain ⟨message, fits, rfl⟩ := isMessage
  exact ⟨_, s', executed, whole, not_whole_sendResult _, message, rfl,
    decodeLike_sendResult fits⟩

/-- A client that stores a value receives one byte behind `+OK`. -/
theorem setReply_not_whole :
    ¬ ∀ (w : World) (fates : Nat → List Fate)
      (heap : Nat → Nat → Option Bytes) (task : List Bytes) (reply : Bytes)
      (s' : Sys), World.Reachable 1 w →
        working heap (sent (getRESPArry task)) (w.sys.withFates fates) =
          some (reply, s') → Whole (sendResult reply) := by
  intro always
  obtain ⟨w, executed, seen⟩ := (Option.any_eq_true
    (fun w : World =>
      (working (fun _ _ => none)
        (sent (getRESPArry [str "SET", str "a", str "v"]))
        (w.sys.withFates fun _ => [])).any
          fun outcome : Bytes × Sys => decide (outcome.1 = str "+OK\r\n"))
    (World.runChecked (fun _ _ => true) (World.startEvents 1)
      (World.init 1))).mp (by decide +kernel)
  obtain ⟨⟨reply, s'⟩, returned, isOk⟩ := (Option.any_eq_true _ _).mp seen
  have isOk : reply = str "+OK\r\n" := of_decide_eq_true isOk
  have reachable : World.Reachable 1 w :=
    ⟨_, Run.of_checked (fun _ _ _ => trivial) executed⟩
  obtain ⟨message, isMessage, _⟩ :=
    always w (fun _ => []) (fun _ _ => none) _ reply s' reachable returned
  have last := Resp.getLast?_encode message
  rw [← isMessage, isOk] at last
  revert last
  decide

/-- The same client. -/
theorem working_sends_no_message_set :
    ∃ w, World.Reachable 1 w ∧
      ∃ reply s', working (fun _ _ => none)
          (sent (getRESPArry [str "SET", str "a", str "v"]))
          (w.sys.withFates fun _ => []) = some (reply, s') ∧
        Whole reply ∧ ¬ Whole (sendResult reply) := by
  obtain ⟨w, executed, _⟩ := (Option.any_eq_true
    (fun w : World => decide (w.sys.co.ids = [1]))
    (World.runChecked (fun _ _ => true) (World.startEvents 1)
      (World.init 1))).mp (by decide +kernel)
  have reachable : World.Reachable 1 w :=
    ⟨_, Run.of_checked (fun _ _ _ => trivial) executed⟩
  have received : recvCommand (fun _ _ => none)
      (sent (getRESPArry [str "SET", str "a", str "v"])) =
        some (kvOk, [str "SET", str "a", str "v"]) := by
    decide +kernel
  obtain ⟨reply, s', returned, whole, notWhole, _⟩ :=
    working_sends_no_message reachable (fun _ => []) (fun _ _ => none) received
  exact ⟨w, reachable, reply, s', returned, whole, notWhole⟩

end Lab3
end CloudComputing
