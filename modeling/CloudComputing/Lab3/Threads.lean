import CloudComputing.Lab3.Discipline
import CloudComputing.Lib.Runs
import CloudComputing.Lib.Semaphore

/-!
# The threads of the coordinator

The coordinating thread, which executes the programs of `coordinator.cc`, and
the threads `pWorking` and `pRecovery` of every participant, interleaved at
every semaphore operation.  A connection is a pair of byte streams; a worker
sends its request, the participant receives and answers it at any later time,
and the worker receives the answer or gives up at any time.  After an error it
closes the connection; what the participant finds in it then, it executes
without an answer.

The last four variables of the state are history: no step depends on them.
-/

namespace CloudComputing
namespace Lab3

open CloudComputing.Lab3.Parser Network

/-! ## Participants at the end of a connection -/

/-- A task of the coordinator: its port, and how many tasks there have been for
this port. -/
structure Ticket where
  port : Port
  number : Nat
  deriving DecidableEq, Repr

/-- A message that a participant has handled, and what `pWorker` has made of
it. -/
structure Execution where
  ticket : Ticket
  message : Bytes
  reply : Bytes
  before : Participant
  after : Participant
  computed : before.pWorker message = some (reply, after)

/-- A participant and its connection to the coordinator. -/
structure Line where
  /-- The process. -/
  proc : Participant
  /-- The coordinator's socket is connected. -/
  link : Bool
  /-- The process has the other end of this connection. -/
  peer : Bool
  /-- The bytes on their way to the participant. -/
  up : Bytes
  /-- The tasks that these bytes belong to. -/
  tickets : List Ticket
  /-- The bytes on their way to the coordinator. -/
  down : Bytes
  /-- What the process has still to read from a connection that the
  coordinator has closed. -/
  old : Option (Bytes × List Ticket)
  /-- The messages that the participant has handled, the latest first. -/
  handled : List Execution

namespace Line

/-- A participant that is not connected, and what it has still to read from an
old connection. -/
def closed (proc : Participant) (old : Option (Bytes × List Ticket)) : Line where
  proc := proc
  link := false
  peer := false
  up := []
  tickets := []
  down := []
  old := old
  handled := []

/-- The coordinator sends a message. -/
def send (line : Line) (ticket : Ticket) (smsg : Bytes) : Line :=
  if line.peer then
    { line with
      up := line.up ++ wire (pack smsg), tickets := line.tickets ++ [ticket] }
  else line

/-- The coordinator closes its socket.  Of the bytes on their way `arrives`
still reach the participant. -/
def close (line : Line) (arrives : Nat) : Line :=
  { line with
    link := false
    peer := false
    up := []
    tickets := []
    down := []
    old :=
      if line.peer then some (line.up.take arrives, line.tickets)
      else line.old }

/-- The process ends and a new one starts in its place. -/
def crash (line : Line) : Line :=
  { line with
    proc := .init, peer := false, up := [], tickets := [], old := none }

/-- The participant loses the connection. -/
def hangUp (line : Line) : Line :=
  { line with peer := false, up := [], tickets := [] }

/-- One round of `Participant::Working`. -/
def serve (line : Line) (reads : List Nat) : Option Line :=
  match recv reads line.up, line.tickets with
  | some (content, _, rest), ticket :: tickets =>
      match computed : line.proc.pWorker content with
      | none => some line.crash
      | some (reply, next) =>
          some { line with
            proc := next
            up := rest
            tickets := tickets
            down := line.down ++ wire (pack reply)
            handled :=
              { ticket := ticket
                message := content
                reply := reply
                before := line.proc
                after := next
                computed := computed } :: line.handled }
  | _, _ => none

/-- One round of `Participant::Working` on a connection that the coordinator
has closed. -/
def drain (line : Line) (reads : List Nat) : Option Line :=
  match line.old with
  | none => none
  | some (bytes, tickets) =>
      match recv reads bytes, tickets with
      | some (content, _, rest), ticket :: tickets =>
          match computed : line.proc.pWorker content with
          | none => some line.crash
          | some (reply, next) =>
              some { line with
                proc := next
                old := some (rest, tickets)
                handled :=
                  { ticket := ticket
                    message := content
                    reply := reply
                    before := line.proc
                    after := next
                    computed := computed } :: line.handled }
      | _, _ => some { line with old := none }

/-- The coordinator connects again, to a participant that has read its old
connection to the end. -/
def reconnect (line : Line) : Option Line :=
  if line.link = false ∧ line.old = none then
    some { line with
      link := true, peer := true, up := [], tickets := [], down := [] }
  else none

end Line

/-! ## Threads -/

/-- The two locks of a port. -/
inductive Side
  | task
  | ret
  deriving DecidableEq, Repr

/-- The operations of an access of the coordinating thread. -/
def LockOp.ops (port : Port) :
    LockOp → Semaphore.Op (Port × Side) × Semaphore.Op (Port × Side)
  | .pGet => Semaphore.pGet (port, .task)
  | .pRelease => Semaphore.pRelease (port, .task)
  | .cGet => Semaphore.cGet (port, .ret)
  | .cRelease => Semaphore.cRelease (port, .ret)

namespace Port

/-- The operations of a worker before its task. -/
def acquires (port : Port) : List (Semaphore.Op (Port × Side)) :=
  [(Semaphore.cGet (port, .task)).1, (Semaphore.cGet (port, .task)).2,
    (Semaphore.pGet (port, .ret)).1, (Semaphore.pGet (port, .ret)).2]

/-- The operations of a worker after its task.  The two workers release their
locks in different order. -/
def releases (port : Port) : List (Semaphore.Op (Port × Side)) :=
  match port with
  | .work _ =>
      [(Semaphore.cRelease (port, .task)).1,
        (Semaphore.cRelease (port, .task)).2,
        (Semaphore.pRelease (port, .ret)).1,
        (Semaphore.pRelease (port, .ret)).2]
  | .recov _ =>
      [(Semaphore.pRelease (port, .ret)).1,
        (Semaphore.pRelease (port, .ret)).2,
        (Semaphore.cRelease (port, .task)).1,
        (Semaphore.cRelease (port, .task)).2]

end Port

/-- Where a worker stands. -/
inductive WorkerPc
  /-- Before its task, with these operations to go. -/
  | locking (rest : List (Semaphore.Op (Port × Side)))
  /-- In `sendAndRecv`, with the task that it has read. -/
  | exchange (number : Nat) (task : Bytes)
  /-- After its task, with these operations to go. -/
  | releasing (rest : List (Semaphore.Op (Port × Side)))
  deriving DecidableEq, Repr

/-- What a worker has made of a task. -/
inductive Outcome
  | skipped
  | failed (error : NetError)
  | replied (reply : Bytes)
  deriving DecidableEq, Repr

namespace Entry

/-- The test of a worker at the start of its task: whether it goes on, and the
entry after the lookups.  `none` is a failed assertion. -/
def admits (port : Port) (entry : Entry) : Option (Bool × Entry) :=
  match port with
  | .work _ => some (entry.pstate = .working, entry)
  | .recov _ =>
      if entry.pstate ≠ .recovery then some (false, entry)
      else do
        let l ← Log.strToLog entry.pRtask
        if txidStart ≤ l.ID then
          let entry := { entry with maxTxid := some (entry.maxTxid.getD 0) }
          some (l.ID = entry.maxTxid.getD 0 + 1, entry)
        else some (true, entry)

/-- Store the code of a task that is skipped. -/
def skip (port : Port) (entry : Entry) : Entry :=
  match port with
  | .work _ => { entry with pworkingRet := retSkip }
  | .recov _ => { entry with precoveryRet := retSkip }

/-- Store what `sendAndRecv` has returned. -/
def store (port : Port) (rc : Int) (rmsg : Bytes) (entry : Entry) : Entry :=
  match port with
  | .work _ =>
      let entry := { entry with pworkingRet := rc, pworkingDataRet := rmsg }
      if rc ≠ kvOk then { entry with pstate := .waiting } else entry
  | .recov _ =>
      let entry := { entry with precoveryRet := rc, preoveryDataRet := rmsg }
      if rc ≠ kvOk then { entry with pstate := .waiting, maxTxid := none }
      else if rmsg ≠ getErrorMessage then
        { entry with maxTxid := some (entry.maxTxid.getD 0 + 1) }
      else entry

end Entry

/-- The state of the threads. -/
structure Threads where
  /-- The coordinator's variables. -/
  co : Coordinator
  /-- The participants and their connections. -/
  line : Nat → Line
  /-- The semaphores of `_ptaskSem`, `_pRetSem`, `_pRtaskSem` and
  `_pRRetSem`. -/
  sems : Semaphore.Values (Port × Side)
  /-- The workers. -/
  worker : Port → WorkerPc
  /-- The rest of the program of the coordinating thread. -/
  prog : Prog Unit
  /-- The thread is between the two operations of its next access. -/
  half : Bool
  /-- How far the coordinating thread is with each port. -/
  phase : Port → Phase
  /-- How many tasks there have been for each port. -/
  number : Port → Nat
  /-- The latest task for each port. -/
  asked : Port → Bytes
  /-- The latest task that the worker of each port has done, and what it has
  made of it. -/
  outcome : Port → Option (Nat × Outcome)

/-- The functions that the coordinating thread calls. -/
inductive Call
  | update (resp : Bytes)
  | request (resp : Bytes)
  | recovery (minID : Nat)
  deriving DecidableEq, Repr

/-- The text of a call. -/
def Call.prog : Call → Prog Unit
  | .update resp => do
      let _ ← updateDB resp
      return ()
  | .request resp => do
      let _ ← Lab3.request resp
      return ()
  | .recovery minID => recoveryBody minID

namespace Threads

/-- A new coordinator, with participants that are still running. -/
def init
    (pnum : Nat)
    (proc : Nat → Participant)
    (old : Nat → Option (Bytes × List Ticket)) : Threads where
  co := .init pnum
  line := fun id => .closed (proc id) (old id)
  sems := fun _ => Semaphore.fresh 1
  worker := fun port => .locking port.acquires
  prog := .ret ()
  half := false
  phase := fun _ => .idle
  number := fun _ => 0
  asked := fun _ => []
  outcome := fun _ => none

/-- The coordinating thread completes an access. -/
def complete (t : Threads) (op : LockOp) (port : Port) : Threads :=
  let t := { t with
    half := false, phase := Function.update t.phase port op.after }
  match op with
  | .pRelease =>
      { t with
        number := Function.update t.number port (t.number port + 1)
        asked := Function.update t.asked port (task port t.co) }
  | _ => t

/-- One step of the coordinating thread. -/
def coordinate (t : Threads) : Option Threads :=
  match t.prog with
  | .ret _ => none
  | .fail => none
  | .get next => some { t with prog := next t.co }
  | .modify change next => some { t with co := change t.co, prog := next }
  | .lock op port next =>
      if t.half = false then do
        let sems ← (op.ops port).1.apply t.sems
        some { t with sems := sems, half := true }
      else do
        let sems ← (op.ops port).2.apply t.sems
        some (complete { t with sems := sems, prog := next } op port)

/-- A worker leaves its task with an outcome. -/
def finish
    (t : Threads)
    (port : Port)
    (number : Nat)
    (outcome : Outcome)
    (entry : Entry)
    (line : Line) : Threads :=
  { t with
    co := t.co.setEntry port.id entry
    line := Function.update t.line port.id line
    worker := Function.update t.worker port (.releasing port.releases)
    outcome := Function.update t.outcome port (some (number, outcome)) }

/-- A worker starts its task. -/
def begin (t : Threads) (port : Port) : Option Threads := do
  let (goesOn, entry) ← (t.co.entry port.id).admits port
  let line := t.line port.id
  if goesOn = false then
    some (t.finish port (t.number port) .skipped (entry.skip port) line)
  else if line.link = false then
    some (t.finish port (t.number port) (.failed .network)
      (entry.store port kvNetwork []) (line.close 0))
  else
    some { t with
      co := t.co.setEntry port.id entry
      line := Function.update t.line port.id
        (line.send ⟨port, t.number port⟩ (task port t.co))
      worker := Function.update t.worker port
        (.exchange (t.number port) (task port t.co)) }

/-- One step of a worker outside `sendAndRecv`. -/
def work (t : Threads) (port : Port) : Option Threads :=
  match t.worker port with
  | .locking [] => t.begin port
  | .locking (op :: rest) => do
      let sems ← op.apply t.sems
      some { t with
        sems := sems
        worker := Function.update t.worker port (.locking rest) }
  | .exchange _ _ => none
  | .releasing [] =>
      some { t with
        worker := Function.update t.worker port (.locking port.acquires) }
  | .releasing (op :: rest) => do
      let sems ← op.apply t.sems
      some { t with
        sems := sems
        worker := Function.update t.worker port (.releasing rest) }

/-- `sendAndRecv` of a worker fails, with a part of an answer in `rmsg`. -/
def fail
    (t : Threads)
    (port : Port)
    (error : NetError)
    (part : Bytes)
    (arrives : Nat) : Option Threads :=
  match t.worker port with
  | .exchange number _ =>
      some (t.finish port number (.failed error)
        ((t.co.entry port.id).store port error.code part)
        ((t.line port.id).close arrives))
  | _ => none

/-- `sendAndRecv` of a worker succeeds. -/
def receive (t : Threads) (port : Port) (reads : List Nat) : Option Threads :=
  match t.worker port with
  | .exchange number _ => do
      let (rmsg, _, rest) ← recvReply reads (t.line port.id).down
      some (t.finish port number (.replied rmsg)
        ((t.co.entry port.id).store port kvOk rmsg)
        { t.line port.id with down := rest })
  | _ => none

/-- Change a participant that exists. -/
def onLine (t : Threads) (id : Nat) (change : Line → Option Line) :
    Option Threads :=
  if id ∈ t.co.ids then do
    let line ← change (t.line id)
    some { t with line := Function.update t.line id line }
  else none

end Threads

/-- The steps of the threads and of what is around them. -/
inductive Act
  /-- The coordinating thread enters a function. -/
  | call (call : Call)
  /-- The coordinating thread executes an instruction. -/
  | coordinate
  /-- A worker executes an operation or starts its task. -/
  | work (port : Port)
  /-- `sendAndRecv` of a worker fails. -/
  | fail (port : Port) (error : NetError) (part : Bytes) (arrives : Nat)
  /-- `sendAndRecv` of a worker succeeds. -/
  | receive (port : Port) (reads : List Nat)
  /-- A participant handles a message. -/
  | serve (id : Nat) (reads : List Nat)
  /-- A participant handles a message from its old connection. -/
  | drain (id : Nat) (reads : List Nat)
  /-- A participant's process ends and starts again. -/
  | crash (id : Nat)
  /-- A participant loses its connection. -/
  | hangUp (id : Nat)
  /-- `keepAlive` connects to a participant again. -/
  | reconnect (id : Nat)
  /-- `Recovery` clears the table. -/
  | clearTable
  /-- `_cstate` is assigned. -/
  | setCState (cstate : CState)

/-- A step of a worker. -/
def Act.isWorker : Act → Bool
  | .work _ => true
  | .fail _ _ _ _ => true
  | .receive _ _ => true
  | _ => false

/-- Something that happens outside the coordinator. -/
def Act.isOutside : Act → Bool
  | .serve _ _ => true
  | .drain _ _ => true
  | .crash _ => true
  | .hangUp _ => true
  | _ => false

namespace Threads

/-- One step; `none` when it is not possible. -/
def step (t : Threads) : Act → Option Threads
  | .call call =>
      match t.prog with
      | .ret _ => some { t with prog := call.prog }
      | _ => none
  | .coordinate => t.coordinate
  | .work port => if port.id ∈ t.co.ids then t.work port else none
  | .fail port error part arrives => t.fail port error part arrives
  | .receive port reads => t.receive port reads
  | .serve id reads => t.onLine id fun line => line.serve reads
  | .drain id reads => t.onLine id fun line => line.drain reads
  | .crash id => t.onLine id fun line => some line.crash
  | .hangUp id => t.onLine id fun line => some line.hangUp
  | .reconnect id =>
      if (t.co.entry id).pstate = .waiting then do
        let t ← t.onLine id Line.reconnect
        some { t with
          co := { t.co.setEntry id { t.co.entry id with pstate := .temp } with
            tmpNum := t.co.tmpNum + 1 } }
      else none
  | .clearTable =>
      some { t with
        co := { t.co with
          entry := fun id => { t.co.entry id with maxTxid := none } } }
  | .setCState cstate => some { t with co := { t.co with cstate := cstate } }

end Threads

end Lab3
end CloudComputing
