import CloudComputing.Lab3.Messages

/-!
# One exchange with a participant

What the coordinator keeps about one participant (`Entry`), the participant at
the other end of the connection (`Node`), and one pass through the bodies of
the worker threads `pWorking` and `pRecovery`: read the task, skip or call
`sendAndRecv`, store the result.

What the network and the participant do to an exchange is an input, its
`Fate`.  The coordinator sees an answer, or an error; with an error the request
may never arrive, may stay in the closed connection and be executed late, may
have been executed, or the participant may have crashed.  A participant
connects again only after it has read its old connection to the end.
-/

namespace CloudComputing
namespace Lab3

open CloudComputing.Lab3.Parser Network

/-- The errors `sendAndRecv` returns. -/
inductive NetError
  | timeout
  | network
  | networkClose
  deriving DecidableEq, Repr

/-- The code of a network error. -/
def NetError.code : NetError → Int
  | .timeout => kvTimeout
  | .network => kvNetwork
  | .networkClose => kvNetworkClose

theorem NetError.code_ne_kvOk (error : NetError) : error.code ≠ kvOk := by
  cases error <;> decide

/-- What becomes of a request whose exchange fails for the coordinator. -/
inductive Arrival
  | never
  | late
  | executed
  | crash
  deriving DecidableEq, Repr

/-- What becomes of an exchange.  An answered exchange has the sizes of the
partial reads at both ends; a failed one has its error code and the part of
the answer that `rmsg` holds by then. -/
inductive Fate
  | answered (reads replyReads : List Nat)
  | failed (arrival : Arrival) (error : NetError) (part : Bytes)
  deriving DecidableEq, Repr

/-- A participant and its connection to the coordinator. -/
structure Node where
  /-- The process. -/
  proc : Participant
  /-- The coordinator's socket is connected to this process. -/
  link : Bool
  /-- A request left in a connection that the coordinator has closed. -/
  late : Option Bytes
  /-- The process has restarted since it last answered. -/
  restarted : Bool
  /-- The messages that the process has handled. -/
  received : List Bytes
  /-- The fates of the coming exchanges; further ones are answered. -/
  fates : List Fate

/-- What a participant does with the bytes of a connection. -/
inductive Handled
  | waiting
  | aborted
  | replied (reply : Bytes) (proc : Participant)

namespace Node

/-- One round of `Participant::Working`: receive a message and run `pWorker`. -/
def handle (proc : Participant) (reads : List Nat) (smsg : Bytes) : Handled :=
  match recv reads (wire (pack smsg)) with
  | none => .waiting
  | some (content, _, _) =>
      match proc.pWorker content with
      | none => .aborted
      | some (reply, proc) => .replied reply proc

/-- The process ends and a new one starts in its place. -/
def crash (node : Node) : Node :=
  { node with
    proc := .init
    link := false
    late := none
    restarted := true
    received := [] }

/-- The participant executes a request without its answer arriving. -/
def runUnanswered (node : Node) (smsg : Bytes) : Node :=
  match handle node.proc [] smsg with
  | .waiting => { node with link := false }
  | .aborted => node.crash
  | .replied _ proc =>
      { node with
        proc := proc, link := false, received := node.received ++ [smsg] }

/-- `sendAndRecv`: return code, `rmsg`, and the participant afterwards.  An
error is always followed by closing the socket. -/
def sendAndRecv (node : Node) (smsg : Bytes) : Int × Bytes × Node :=
  let fate := node.fates.headD (.answered [] [])
  let node := { node with fates := node.fates.tail }
  match node.link, fate with
  | false, .answered _ _ => (kvNetwork, [], node)
  | false, .failed _ error part => (error.code, part, node)
  | true, .failed arrival error part =>
      (error.code, part,
        match arrival with
        | .never => { node with link := false }
        | .late => { node with link := false, late := some smsg }
        | .executed => node.runUnanswered smsg
        | .crash => node.crash)
  | true, .answered reads replyReads =>
      match handle node.proc reads smsg with
      | .waiting => (kvTimeout, [], { node with link := false })
      | .aborted => (kvNetworkClose, [], node.crash)
      | .replied reply proc =>
          let node := { node with
            proc := proc, received := node.received ++ [smsg] }
          match recvReply replyReads (wire (pack reply)) with
          | none => (kvTimeout, [], { node with link := false })
          | some (rmsg, _, _) => (kvOk, rmsg, { node with restarted := false })

/-- A late request is executed. -/
def drain (node : Node) : Node :=
  match node.late with
  | none => node
  | some smsg => { node.runUnanswered smsg with late := none }

end Node

/-- What the coordinator stores about one participant.  The source has one
`std::map` for each of these fields, with the participant's number as the key.
Several threads use `operator[]` on them at once, which inserts the nodes; here
it is an atomic access to an entry that is there from the beginning. -/
structure Entry where
  /-- `_pstate` -/
  pstate : PState
  /-- `_ptask` -/
  ptask : Bytes
  /-- `_pworkingRet` -/
  pworkingRet : Int
  /-- `_pworkingDataRet` -/
  pworkingDataRet : Bytes
  /-- `_pRtask` -/
  pRtask : Bytes
  /-- `_precoveryRet` -/
  precoveryRet : Int
  /-- `_preoveryDataRet` -/
  preoveryDataRet : Bytes
  /-- `maxTxidTB` -/
  maxTxid : Option Nat

namespace Entry

/-- The entry of a waiting participant in a new coordinator. -/
def init : Entry :=
  { pstate := .waiting
    ptask := []
    pworkingRet := 0
    pworkingDataRet := []
    pRtask := []
    precoveryRet := 0
    preoveryDataRet := []
    maxTxid := none }

end Entry

/-- The body of `pWorking` between taking the task and releasing the locks. -/
def pWorking (entry : Entry) (node : Node) : Entry × Node :=
  if entry.pstate ≠ .working then
    ({ entry with pworkingRet := retSkip }, node)
  else
    let (rc, rmsg, node) := node.sendAndRecv entry.ptask
    let entry := { entry with pworkingRet := rc, pworkingDataRet := rmsg }
    (if rc ≠ kvOk then { entry with pstate := .waiting } else entry, node)

/-- The exchange of `pRecovery` after its two skip tests. -/
def pRecoverySend (entry : Entry) (node : Node) : Entry × Node :=
  let (rc, rmsg, node) := node.sendAndRecv entry.pRtask
  let entry := { entry with precoveryRet := rc, preoveryDataRet := rmsg }
  if rc ≠ kvOk then
    ({ entry with pstate := .waiting, maxTxid := none }, node)
  else if rmsg ≠ getErrorMessage then
    ({ entry with maxTxid := some (entry.maxTxid.getD 0 + 1) }, node)
  else (entry, node)

/-- The body of `pRecovery` between taking the task and releasing the locks.
Indexing `maxTxidTB` creates a missing entry. -/
def pRecovery (entry : Entry) (node : Node) : Option (Entry × Node) :=
  if entry.pstate ≠ .recovery then
    some ({ entry with precoveryRet := retSkip }, node)
  else do
    let l ← Log.strToLog entry.pRtask
    if txidStart ≤ l.ID then
      let entry := { entry with maxTxid := some (entry.maxTxid.getD 0) }
      if l.ID ≠ entry.maxTxid.getD 0 + 1 then
        some ({ entry with precoveryRet := retSkip }, node)
      else some (pRecoverySend entry node)
    else some (pRecoverySend entry node)

end Lab3
end CloudComputing
