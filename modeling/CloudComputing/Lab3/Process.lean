import CloudComputing.Lab3.Effects

/-!
# The coordinator process

All threads of the coordinator: `_workThread` in `Working`, `_recoveryThread`
in `Recovery`, and for every participant `keepAlive`, `pWorking` and
`pRecovery`, with `_workingMutex` and `_recoveryMutex` between them.  Each step
is one access to a shared variable, a lock or a socket; what happens outside
the coordinator happens at any time.

Only what a worker does with its participant's entry in front of `sendAndRecv`
(`Threads.begin`) and behind it (`Threads.finish`) is one step.  The task lock
and the result lock keep the coordinating thread away from the entry
meanwhile, and the other worker of the participant has no task.  The only other
thread is `keepAlive`.  It writes `_pstate` only when it is `P_WAITING`: both
`P_WAITING` and `P_TEMP` make the worker skip its task, and a worker that sets
`P_WAITING` has only its `maxTxidTB` left to write, which `keepAlive` does not
use.

Only a thread that has `_workingMutex` runs a program over the locks of the
participants, so `Threads.prog` is the rest of the program of that thread.
-/

namespace CloudComputing
namespace Lab3

open CloudComputing.Lab3.Parser Network

/-! ## The threads -/

/-- A thread that has a mutex. -/
inductive Holder
  | work
  | recovery
  | keepAlive (id : Nat)
  deriving DecidableEq, Repr

/-- Where `_workThread` stands in `Working`. -/
inductive WorkingPc
  /-- In `acceptWithoutCloseBind` and `recvCommand`. -/
  | accepting
  /-- Behind them, with a command. -/
  | received (task : List Bytes)
  /-- At `_workingMutex.get()`. -/
  | locking (task : List Bytes)
  /-- Behind it. -/
  | locked (task : List Bytes)
  /-- In `UpdateDB` or `Request`. -/
  | running
  /-- At `_workingMutex.release()`. -/
  | unlocking
  /-- At `done`. -/
  | replying
  deriving DecidableEq, Repr

/-- Where `_recoveryThread` stands in `Recovery`. -/
inductive RecoveryPc
  /-- Before `minID` is computed. -/
  | entering
  /-- At `maxTxidTB.clear()`. -/
  | clearing (minID : Nat)
  /-- In the loop that waits for `_tmpNum`. -/
  | waiting (minID : Nat)
  /-- At the assignment to `_cstate` behind the loop. -/
  | waking (minID : Nat)
  /-- At `_recoveryMutex.get()`. -/
  | lockingRecovery (minID : Nat)
  /-- At `_workingMutex.get()`. -/
  | lockingWorking (minID : Nat)
  /-- Behind both. -/
  | locked (minID : Nat)
  /-- Under both mutexes. -/
  | running
  /-- At `_workingMutex.release()`. -/
  | unlockingWorking
  /-- At `_recoveryMutex.release()`. -/
  | unlockingRecovery
  /-- At the last assignment to `_cstate`. -/
  | leaving
  deriving DecidableEq, Repr

/-- Where a thread stands in `keepAlive`. -/
inductive KeepAlivePc
  /-- At the test of `_pstate`. -/
  | polling
  /-- In the loop around `reconnect`. -/
  | connecting
  /-- At `_recoveryMutex.get()`. -/
  | locking
  /-- At the assignment to `_pstate`. -/
  | assigning
  /-- At `_tmpNum++`. -/
  | counting
  /-- At `_recoveryMutex.release()`. -/
  | releasing
  deriving DecidableEq, Repr

/-- The coordinator process and its participants. -/
structure Process where
  /-- The variables, the participants, the workers, and the program under
  `_workingMutex`. -/
  threads : Threads
  /-- Who has `_workingMutex`. -/
  workingMutex : Option Holder
  /-- Who has `_recoveryMutex`. -/
  recoveryMutex : Option Holder
  working : WorkingPc
  recovery : RecoveryPc
  keepAlive : Nat → KeepAlivePc

namespace Process

/-- Start all threads. -/
def init (threads : Threads) : Process where
  threads := threads
  workingMutex := none
  recoveryMutex := none
  working := .accepting
  recovery := .entering
  keepAlive := fun _ => .polling

/-- Assign to the coordinator's variables. -/
def assign (p : Process) (change : Coordinator → Coordinator) : Process :=
  { p with threads := { p.threads with co := change p.threads.co } }

/-- A thread that has `_workingMutex` calls a function. -/
def call (p : Process) (call : Call) : Process :=
  { p with threads := { p.threads with prog := call.prog } }

/-- The thread that has `_workingMutex` goes on in the function that it has
called, or else returns. -/
def run (p : Process) (return' : Process → Process) : Option Process :=
  match p.threads.prog with
  | .ret _ => some (return' p)
  | _ => p.threads.coordinate.map fun t => { p with threads := t }

/-- A step of `_workThread`, behind `recvCommand`. -/
def stepWorking (p : Process) : Option Process :=
  match p.working with
  | .accepting => none
  | .received task =>
      if task.length < 1 ∨ p.threads.co.cstate ≠ .working then
        some { p with working := .replying }
      else some { p with working := .locking task }
  | .locking task =>
      if p.workingMutex = none then
        some { p with workingMutex := some .work, working := .locked task }
      else none
  | .locked task =>
      if isUpdate task then
        some { p.call (.update (getRESPArry task)) with working := .running }
      else if isRequest task then
        some { p.call (.request (getRESPArry task)) with working := .running }
      else some { p with working := .unlocking }
  | .running => p.run fun p => { p with working := .unlocking }
  | .unlocking => some { p with workingMutex := none, working := .replying }
  | .replying => some { p with working := .accepting }

/-- A step of `_recoveryThread`. -/
def stepRecovery (p : Process) : Option Process :=
  match p.recovery with
  | .entering => some { p with recovery := .clearing (p.threads.co.txid - 1) }
  | .clearing minID =>
      let p := p.assign fun co =>
        { co with entry := fun id => { co.entry id with maxTxid := none } }
      some { p with recovery := .waiting minID }
  | .waiting minID =>
      if p.threads.co.tmpNum = 0 then some p
      else some { p with recovery := .waking minID }
  | .waking minID =>
      let p := p.assign fun co => { co with cstate := .recovery }
      some { p with recovery := .lockingRecovery minID }
  | .lockingRecovery minID =>
      if p.recoveryMutex = none then
        some { p with
          recoveryMutex := some .recovery, recovery := .lockingWorking minID }
      else none
  | .lockingWorking minID =>
      if p.workingMutex = none then
        some { p with
          workingMutex := some .recovery, recovery := .locked minID }
      else none
  | .locked minID =>
      some { p.call (.recovery minID) with recovery := .running }
  | .running => p.run fun p => { p with recovery := .unlockingWorking }
  | .unlockingWorking =>
      some { p with workingMutex := none, recovery := .unlockingRecovery }
  | .unlockingRecovery =>
      some { p with recoveryMutex := none, recovery := .leaving }
  | .leaving =>
      let p := p.assign fun co => { co with cstate := .working }
      some { p with recovery := .entering }

/-- A thread goes on in `keepAlive`. -/
def setKeepAlive (p : Process) (id : Nat) (pc : KeepAlivePc) : Process :=
  { p with keepAlive := Function.update p.keepAlive id pc }

/-- A step of `keepAlive` for a participant. -/
def stepKeepAlive (p : Process) (id : Nat) : Option Process :=
  match p.keepAlive id with
  | .polling =>
      if (p.threads.co.entry id).pstate = .waiting then
        some (p.setKeepAlive id .connecting)
      else some p
  | .connecting =>
      match p.threads.onLine id Line.reconnect with
      | none => some p
      | some t => some ({ p with threads := t }.setKeepAlive id .locking)
  | .locking =>
      if p.recoveryMutex = none then
        let p := { p with recoveryMutex := some (.keepAlive id) }
        some (p.setKeepAlive id .assigning)
      else none
  | .assigning =>
      let p := p.assign fun co =>
        co.setEntry id { co.entry id with pstate := .temp }
      some (p.setKeepAlive id .counting)
  | .counting =>
      let p := p.assign fun co => { co with tmpNum := co.tmpNum + 1 }
      some (p.setKeepAlive id .releasing)
  | .releasing =>
      let p := { p with recoveryMutex := none }
      some (p.setKeepAlive id .polling)

end Process

/-! ## Steps -/

/-- The steps of the process and of what is around it. -/
inductive Move
  /-- `_workThread` receives a command. -/
  | accept (task : List Bytes)
  /-- Another step of `_workThread`. -/
  | working
  /-- A step of `_recoveryThread`. -/
  | recovery
  /-- A step of `keepAlive`. -/
  | keepAlive (id : Nat)
  /-- A step of `pWorking` or `pRecovery`. -/
  | worker (act : Act)
  /-- A step of a participant or of the network. -/
  | outside (act : Act)

namespace Process

/-- One step; `none` when it is not possible. -/
def step (p : Process) : Move → Option Process
  | .accept task =>
      match p.working with
      | .accepting => some { p with working := .received task }
      | _ => none
  | .working => p.stepWorking
  | .recovery => p.stepRecovery
  | .keepAlive id =>
      if id ∈ p.threads.co.ids then p.stepKeepAlive id else none
  | .worker act =>
      if act.isWorker then
        (p.threads.step act).map fun t => { p with threads := t }
      else none
  | .outside act =>
      if act.isOutside then
        (p.threads.step act).map fun t => { p with threads := t }
      else none

/-- A process that has just been started, over participants that an earlier
process has left behind. -/
inductive Starts (pnum : Nat) : Process → Prop
  | init
      {w : World}
      (reachable : World.Reachable pnum w)
      {old : Nat → Option (Bytes × List Ticket)}
      (left : ∀ id, Left (old id) (w.sys.node id).late) :
      Starts pnum
        (.init (.init pnum (fun id => (w.sys.node id).proc) old))

/-- The states of the process after any steps. -/
def Reachable (pnum : Nat) (p : Process) : Prop :=
  ∃ start, Starts pnum start ∧ ∃ moves, Run step Run.free start moves p

end Process
end Lab3
end CloudComputing
