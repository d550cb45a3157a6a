import CloudComputing.Lab3.Exchange

/-!
# The coordinator

The functions of `coordinator.cc` that run under `_workingMutex`, as programs
over the coordinator's variables and its producer-consumer locks.  A program
(`Prog`) is the text of the coordinating thread; the instructions `pGet`,
`pRelease`, `cGet` and `cRelease` stand where the source has them.

A program is executed here (`Prog.exec`) with the worker threads answering at
once: releasing a task makes the worker of that participant run its body.  The
thread-level meaning of the same programs is given separately.
-/

namespace CloudComputing
namespace Lab3

open CloudComputing.Lab3.Parser

/-- The variables of `Coordinator`. -/
structure Coordinator where
  /-- `_TXID` -/
  txid : Nat
  /-- `_cstate` -/
  cstate : CState
  /-- `_pnum` -/
  pnum : Nat
  /-- `_lg` -/
  lg : Logger
  /-- `_tmpNum` -/
  tmpNum : Nat
  /-- The maps with participants as keys; each access to one of them is
  atomic. -/
  entry : Nat → Entry

namespace Coordinator

/-- `Init` with `pnum` participants.  The arrays of locks and threads have
`MAX_THREAD_NUMBER` elements, and the numbers of the participants begin at 1, so
`pnum` is to be below 1024. -/
def init (pnum : Nat) : Coordinator :=
  { txid := txidStart
    cstate := .recovery
    pnum := pnum
    lg := .empty
    tmpNum := 0
    entry := fun _ => .init }

/-- The participants' numbers, in the order of every loop over them. -/
def ids (co : Coordinator) : List Nat := List.range' 1 co.pnum

/-- Change the entry of one participant. -/
def setEntry (co : Coordinator) (id : Nat) (entry : Entry) : Coordinator :=
  { co with entry := Function.update co.entry id entry }

/-- `getRecoveryLeader`: the largest number in the table above `_TXID - 1`
with its first holder, or `_TXID - 1` and `0`. -/
def getRecoveryLeader (co : Coordinator) : Nat × Nat :=
  co.ids.foldl
    (fun (best : Nat × Nat) id =>
      match (co.entry id).maxTxid with
      | some max => if best.1 < max then (max, id) else best
      | none => best)
    (co.txid - 1, 0)

end Coordinator

/-- A pair of task and result locks: `_ptaskSem`, `_pRetSem` of `pWorking`, or
`_pRtaskSem`, `_pRRetSem` of `pRecovery`. -/
inductive Port
  | work (id : Nat)
  | recov (id : Nat)
  deriving DecidableEq, Repr

/-- The coordinator's side of the locks of a port: `pGet` and `pRelease` of
the task lock, `cGet` and `cRelease` of the result lock. -/
inductive LockOp
  | pGet
  | pRelease
  | cGet
  | cRelease
  deriving DecidableEq, Repr

/-- The text of a function of the coordinating thread. -/
inductive Prog (α : Type)
  | ret (value : α)
  /-- A failed assertion, or a loop that exceeds its modelled bound. -/
  | fail
  | get (next : Coordinator → Prog α)
  | modify (change : Coordinator → Coordinator) (next : Prog α)
  | lock (op : LockOp) (port : Port) (next : Prog α)

namespace Prog

variable {α β : Type}

/-- Sequential composition. -/
def bind : Prog α → (α → Prog β) → Prog β
  | .ret value, next => next value
  | .fail, _ => .fail
  | .get rest, next => .get fun co => (rest co).bind next
  | .modify change rest, next => .modify change (rest.bind next)
  | .lock op port rest, next => .lock op port (rest.bind next)

instance : Monad Prog where
  pure := .ret
  bind := .bind

/-- Read the coordinator's variables. -/
def read : Prog Coordinator := .get .ret

/-- Assign to the coordinator's variables. -/
def write (change : Coordinator → Coordinator) : Prog Unit :=
  .modify change (.ret ())

/-- One operation on a lock. -/
def lockOp (op : LockOp) (port : Port) : Prog Unit := .lock op port (.ret ())

end Prog

/-- Store the task of a port: `_ptask[id]` or `_pRtask[id]`. -/
def setTask (port : Port) (task : Bytes) (co : Coordinator) : Coordinator :=
  match port with
  | .work id => co.setEntry id { co.entry id with ptask := task }
  | .recov id => co.setEntry id { co.entry id with pRtask := task }

/-- The result of a port: return code and data. -/
def result (port : Port) (co : Coordinator) : Int × Bytes :=
  match port with
  | .work id => ((co.entry id).pworkingRet, (co.entry id).pworkingDataRet)
  | .recov id => ((co.entry id).precoveryRet, (co.entry id).preoveryDataRet)

/-- `pGet`, store the task, `pRelease`. -/
def post (port : Port) (task : Bytes) : Prog Unit := do
  Prog.lockOp .pGet port
  Prog.write (setTask port task)
  Prog.lockOp .pRelease port

/-- `cGet`, read the result, `cRelease`. -/
def collect (port : Port) : Prog (Int × Bytes) := do
  Prog.lockOp .cGet port
  let co ← Prog.read
  Prog.lockOp .cRelease port
  return result port co

/-- The loop that gives every participant a task. -/
def postAll (port : Nat → Port) (task : Bytes) : List Nat → Prog Unit
  | [] => return ()
  | id :: ids => do
      post (port id) task
      postAll port task ids

/-- The vote loop of `UpdateDB`. -/
def collectVotes : List Nat → Bool → Prog Bool
  | [], vote => return vote
  | id :: ids, vote => do
      let (ret, data) ← collect (.work id)
      collectVotes ids (vote || (ret = kvOk && data = str "PRE"))

/-- The commit loop of `UpdateDB`: `commit` and `rc`. -/
def collectCommits : List Nat → Bool × Bytes → Prog (Bool × Bytes)
  | [], done => return done
  | id :: ids, done => do
      let (ret, data) ← collect (.work id)
      collectCommits ids
        (if ret = kvOk ∧ data ≠ getErrorMessage then (true, data) else done)

/-- `UpdateDB` -/
def updateDB (resp : Bytes) : Prog Bytes := do
  let co ← Prog.read
  Prog.write fun co => { co with lg := co.lg.writeLog ⟨co.txid, .pre, resp⟩ }
  -- push the work into all the p
  postAll .work (voteReq co.txid) co.ids
  -- get and check the result
  let vote ← collectVotes co.ids false
  if vote then
    -- give the commit
    postAll .work (commitReq co.txid resp) co.ids
    let (commit, rc) ← collectCommits co.ids (false, getErrorMessage)
    if commit then
      -- push the log into the logger
      let co ← Prog.read
      match co.lg.chageLogState co.txid .commit with
      | none => Prog.fail
      | some lg =>
          Prog.write fun co => { co with lg := lg, txid := co.txid + 1 }
          return rc
    else return getErrorMessage
  else return getErrorMessage

/-- The loop of `Request`, with its early return. -/
def requestFrom (resp : Bytes) : List Nat → Prog Bytes
  | [] => return getErrorMessage
  | id :: ids => do
      post (.work id) (getReq resp)
      let (ret, data) ← collect (.work id)
      if ret = kvOk ∧ data ≠ [] then return data
      else requestFrom resp ids

/-- `Request` -/
def request (resp : Bytes) : Prog Bytes := do
  let co ← Prog.read
  requestFrom resp co.ids

/-- The part of `Working` between locking and unlocking `_workingMutex`. -/
def dispatch (task : List Bytes) : Prog Bytes :=
  if isUpdate task then updateDB (getRESPArry task)
  else if isRequest task then request (getRESPArry task)
  else return getErrorMessage

/-- Give every participant a record, one after the other. -/
def pushAll (text : Bytes) : List Nat → Prog Unit
  | [] => return ()
  | id :: ids => do
      post (.recov id) text
      let _ ← collect (.recov id)
      pushAll text ids

/-- The inner loop of `recoveryFromC`, which fetches the record from the log
for each participant. -/
def pushRecord (tid : Nat) : List Nat → Prog Unit
  | [] => return ()
  | id :: ids => do
      let co ← Prog.read
      match co.lg.getLogByTXID tid with
      | none => Prog.fail
      | some entry =>
          post (.recov id) entry.logToStr
          let _ ← collect (.recov id)
          pushRecord tid ids

/-- The loop of `recoveryFromC` from `tid` on, with `count` rounds to go.  No
round changes `_TXID`. -/
def recoveryFromCLoop (ids : List Nat) : Nat → Nat → Prog Unit
  | 0, _ => return ()
  | count + 1, tid => do
      pushRecord tid ids
      recoveryFromCLoop ids count (tid + 1)

/-- `recoveryFromC` -/
def recoveryFromC : Prog Unit := do
  let co ← Prog.read
  recoveryFromCLoop co.ids (co.txid - txidStart) txidStart

/-- The fetch loop of `recoveryFromP` from `minID` on, with `count` rounds to
go: it returns `minID` after the last round, or where a fetch failed (the
`goto next`). -/
def fetchLoop (leader : Nat) (ids : List Nat) : Nat → Nat → Prog Nat
  | 0, minID => return minID
  | count + 1, minID => do
      -- send the ask task
      post (.work leader) (askReq minID)
      -- get the log
      let (ret, data) ← collect (.work leader)
      if ret = kvOk ∧ data ≠ [] then
        -- for c's log
        match Log.strToLog data with
        | none => Prog.fail
        | some tempLog =>
            Prog.write fun co =>
              if tempLog.ID = co.txid then
                { co with lg := co.lg.writeLog tempLog, txid := co.txid + 1 }
              else co
            pushAll data ids
            fetchLoop leader ids count (minID + 1)
      else return minID

/-- The `while` loop of `recoveryFromP`, with a bound on its rounds. -/
def recoveryFromPLoop (ids : List Nat) : Nat → Nat → Prog Unit
  | 0, _ => .fail
  | rounds + 1, minID => do
      let co ← Prog.read
      let (maxID, leader) := co.getRecoveryLeader
      if leader = 0 then recoveryFromC
      else
        -- put leader into the working state
        Prog.write fun co => co.setEntry leader
          { co.entry leader with pstate := .working, maxTxid := none }
        -- try to get data and send the data to other p
        let minID ← fetchLoop leader ids (maxID + 1 - minID) minID
        recoveryFromPLoop ids rounds minID

/-- `recoveryFromP`.  A round of its loop takes its leader out of the table,
so one round for each participant and a last one are enough. -/
def recoveryFromP (min : Nat) : Prog Unit := do
  let co ← Prog.read
  recoveryFromPLoop co.ids (co.pnum + 1) min

/-- The loop of `Recovery` that fills `maxTxidTB` and compares with
`_TXID - 1`. -/
def collectTxids : List Nat → Bool → Prog Bool
  | [], consistance => return consistance
  | id :: ids, consistance => do
      let (ret, data) ← collect (.recov id)
      let co ← Prog.read
      if ret = kvOk ∧ data ≠ [] then
        let max := Decimal.toUInt64 (Decimal.strtol data)
        Prog.write fun co => co.setEntry id
          { co.entry id with maxTxid := some max }
        collectTxids ids (consistance && max = co.txid - 1)
      else collectTxids ids consistance

/-- Put every participant that is connected into recovery mode. -/
def enterRecovery (co : Coordinator) : Coordinator :=
  { co with
    entry := fun id =>
      let entry := co.entry id
      if entry.pstate = .temp ∨ entry.pstate = .working then
        { entry with pstate := .recovery }
      else entry }

/-- Put every participant whose number reached `_TXID - 1` back to work. -/
def leaveRecovery (co : Coordinator) : Coordinator :=
  { co with
    tmpNum := 0
    entry := fun id =>
      let entry := co.entry id
      if entry.maxTxid = some (co.txid - 1) then
        { entry with pstate := .working }
      else entry }

/-- The least number in the table, starting from `minID`. -/
def leastTxid (co : Coordinator) (minID : Nat) : Nat :=
  co.ids.foldl
    (fun least id =>
      match (co.entry id).maxTxid with
      | some max => if max < least then max else least
      | none => least)
    minID

/-- The part of `Recovery` under both mutexes.  `minID` was computed, and the
table cleared, when the call began to wait. -/
def recoveryBody (minID : Nat) : Prog Unit := do
  Prog.write enterRecovery
  let co ← Prog.read
  -- ask for the max tixd of each p
  postAll .recov txidReq co.ids
  -- get max txid of each p
  let consistance ← collectTxids co.ids true
  if consistance then Prog.write leaveRecovery
  else
    let co ← Prog.read
    -- the next trasaction that I need to broadcast
    recoveryFromP (leastTxid co minID + 1)
    Prog.write leaveRecovery

/-! ## Execution with prompt workers -/

/-- The coordinator and its participants. -/
structure Sys where
  /-- The coordinator process. -/
  co : Coordinator
  /-- The participants. -/
  node : Nat → Node

namespace Sys

/-- Change what belongs to one participant. -/
def setPeer (s : Sys) (id : Nat) (peer : Entry × Node) : Sys :=
  { co := s.co.setEntry id peer.1
    node := Function.update s.node id peer.2 }

/-- The worker of a port runs its body. -/
def serve (s : Sys) : Port → Option Sys
  | .work id => some (s.setPeer id (pWorking (s.co.entry id) (s.node id)))
  | .recov id =>
      (pRecovery (s.co.entry id) (s.node id)).map fun peer =>
        s.setPeer id peer

end Sys

/-- Execute a program; `none` when it fails. -/
def Prog.exec {α : Type} : Prog α → Sys → Option (α × Sys)
  | .ret value, s => some (value, s)
  | .fail, _ => none
  | .get next, s => (next s.co).exec s
  | .modify change next, s => next.exec { s with co := change s.co }
  | .lock .pRelease port next, s => (s.serve port).bind next.exec
  | .lock _ _ next, s => next.exec s

end Lab3
end CloudComputing
