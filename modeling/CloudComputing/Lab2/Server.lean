import CloudComputing.Lab2.Pipelining

/-!
# The threads of the server

The accepting thread, the threads of the pool and the output thread, with the
two queues between them.  They share the descriptors of the process: `accept`
and `open` return the lowest free one, a thread of the pool closes the one of
its connection, and nobody closes those of files.  What a client sends and when
it closes its end is part of the events, and so is what the file system
contains.

The connection of a descriptor and what has been written are history: no step
depends on them.
-/

namespace CloudComputing
namespace Lab2

open RingBuffer Dealer

/-! ## Descriptors -/

/-- What a descriptor stands for.  Connections are numbered as they are
accepted. -/
inductive Object
  | other
  | connection (number : Nat)
  | file
  deriving DecidableEq, Repr

/-- The open descriptors of the process. -/
abbrev Table := List (Option Object)

namespace Table

/-- What is open under this number. -/
def lookup (table : Table) (number : Nat) : Option Object :=
  (table[number]?).join

/-- The lowest free number. -/
def lowest (table : Table) : Nat := table.findIdx Option.isNone

/-- Open an object under the lowest free number. -/
def install (table : Table) (object : Object) : Table :=
  if table.lowest < table.length then table.set table.lowest (some object)
  else table ++ [some object]

/-- `close`. -/
def close (table : Table) (number : Nat) : Table := table.set number none

theorem lookup_lowest (table : Table) : table.lookup table.lowest = none := by
  unfold lookup lowest
  by_cases inside : table.findIdx Option.isNone < table.length
  · have free := List.findIdx_getElem (p := Option.isNone) (w := inside)
    rw [List.getElem?_eq_getElem inside, Option.join_some]
    exact Option.isNone_iff_eq_none.mp free
  · rw [List.getElem?_eq_none (Nat.le_of_not_lt inside)]
    rfl

theorem lookup_install_lowest (table : Table) (object : Object) :
    (table.install object).lookup table.lowest = some object := by
  unfold install
  split
  · rename_i inside
    unfold lookup
    rw [List.getElem?_set_self inside]
    rfl
  · rename_i outside
    have length : table.lowest = table.length :=
      le_antisymm List.findIdx_le_length (Nat.le_of_not_lt outside)
    unfold lookup
    rw [length, List.getElem?_concat_length]
    rfl

/-- The other numbers keep their objects. -/
theorem lookup_install_of_ne
    {table : Table}
    (object : Object)
    {number : Nat}
    (differs : number ≠ table.lowest) :
    (table.install object).lookup number = table.lookup number := by
  unfold install
  split
  · unfold lookup
    rw [List.getElem?_set_ne (Ne.symm differs)]
  · rename_i outside
    have length : table.lowest = table.length :=
      le_antisymm List.findIdx_le_length (Nat.le_of_not_lt outside)
    unfold lookup
    by_cases inside : number < table.length
    · rw [List.getElem?_append_left inside]
    · rw [List.getElem?_eq_none (Nat.le_of_not_lt inside),
        List.getElem?_eq_none]
      rw [List.length_append, List.length_singleton]
      omega

/-- An open descriptor stays open when another one is opened. -/
theorem lookup_install
    {table : Table}
    {number : Nat}
    {found : Object}
    (opened : table.lookup number = some found)
    (object : Object) :
    (table.install object).lookup number = some found := by
  rw [lookup_install_of_ne object, opened]
  rintro rfl
  rw [lookup_lowest] at opened
  cases opened

theorem lookup_close_of_ne
    (table : Table)
    {number closed : Nat}
    (differs : number ≠ closed) :
    (table.close closed).lookup number = table.lookup number := by
  unfold lookup close
  rw [List.getElem?_set_ne (Ne.symm differs)]

end Table

/-! ## Threads -/

/-- The threads of a server with `n` threads in its pool. -/
inductive Thread (n : Nat)
  | accepting
  | worker (id : Fin n)
  | output
  deriving DecidableEq, Fintype, Repr

/-- Where a thread of the pool is in `client_process`: in front of `getTask`,
at it, in front of `recv`, and in `Dealer`. -/
inductive Worker
  | ready
  | fetching
  | receiving (connfd : Descriptor)
  | dealing (connfd : Descriptor) (s_buf : Bytes)
  deriving DecidableEq, Repr

/-- Where the output thread is: in front of `getTaskOut`, at it, and in front of
`write`, `open` and `sendfile`. -/
inductive Output
  | ready
  | fetching
  | writing (task : OutPutTask)
  | opening (task : OutPutTask)
  | sending (task : OutPutTask)
  deriving DecidableEq, Repr

/-- A call of `write` or `sendfile`: for what message, and to what. -/
structure Delivery where
  task : OutPutTask
  target : Option Object
  deriving DecidableEq, Repr

/-- The process. -/
structure Server (n : Nat) where
  connections : State (Thread n) Descriptor
  opt : State (Thread n) OutPutTask
  table : Table
  worker : Fin n → Worker
  recv_buf : Fin n → Bytes
  output : Output
  /-- How many connections have been accepted. -/
  accepted : Nat
  /-- The calls of `write`. -/
  written : List Delivery
  /-- The calls of `sendfile`. -/
  sent : List Delivery

/-- What happens next. -/
inductive ServerEvent (n : Nat)
  | accept
  | useConnections (thread : Thread n)
  | useOpt (thread : Thread n)
  | getTask (id : Fin n)
  | gotTask (id : Fin n)
  /-- `recv` delivers bytes; `beyond` stands behind `recv_buf` in memory. -/
  | recv (id : Fin n) (bytes beyond : Bytes)
  /-- `recv` delivers nothing more. -/
  | hangUp (id : Fin n)
  /-- A round of the loop of `Dealer`. -/
  | deal (id : Fin n) (files : Files)
  | getTaskOut
  | gotTaskOut
  | write
  | openFile (found : Bool)
  | sendfile

namespace Server

variable {n : Nat}

/-- The descriptors that are no connections: the standard streams and the
listening socket. -/
def initialTable : Table := List.replicate 4 (some .other)

/-- The server before the first connection. -/
def init
    (n : Nat)
    (connections : Nat → Descriptor)
    (opt : Nat → OutPutTask) : Server n where
  connections := .init (Thread n) size connections
  opt := .init (Thread n) size opt
  table := initialTable
  worker := fun _ => .ready
  recv_buf := fun _ => List.replicate 3000 0
  output := .ready
  accepted := 0
  written := []
  sent := []

/-- A thread of the pool gets somewhere else. -/
def setWorker (s : Server n) (id : Fin n) (worker : Worker) : Server n :=
  { s with worker := Function.update s.worker id worker }

/-- The accepting thread: `accept`, and the beginning of the handover. -/
def accept (s : Server n) : Option (Server n) :=
  let connfd : Descriptor := ⟨s.table.lowest, s.accepted⟩
  (s.connections.start .accepting .put connfd).map fun connections =>
    { s with
      connections := connections
      table := s.table.install (.connection s.accepted)
      accepted := s.accepted + 1 }

/-- A round of the loop of `Dealer`.  `Get_dealer` opens the file, and leaves it
open. -/
def deal (s : Server n) (id : Fin n) (files : Files) : Option (Server n) :=
  match s.worker id, s.opt.phase (.worker id) with
  | .dealing connfd s_buf, .idle _ =>
      match Dealer.round files connfd s_buf with
      | .finished => some (s.setWorker id (.receiving connfd))
      | .again => some s
      | .undefined => none
      | .answered task s_buf =>
          (s.opt.start (.worker id) .put task).map fun opt =>
            { s.setWorker id (.dealing connfd s_buf) with
              opt := opt
              table := if task.type = 0 then s.table.install .file
                else s.table }
  | _, _ => none

/-- `write`, when it returns.  A message that does not fit into `send_buf` is
written beyond its end. -/
def write (s : Server n) : Option (Server n) :=
  match s.output with
  | .writing task =>
      if task.message.length < 1024 then
        some { s with
          written := s.written ++ [⟨task, s.table.lookup task.sockfd.number⟩]
          output := if task.type = 0 then .opening task else .ready }
      else none
  | _ => none

/-- One step. -/
def step (s : Server n) : ServerEvent n → Option (Server n)
  | .accept => s.accept
  | .useConnections thread =>
      (s.connections.next connectionsLayout size thread).map fun connections =>
        { s with connections := connections }
  | .useOpt thread =>
      (s.opt.next optLayout size thread).map fun opt => { s with opt := opt }
  | .getTask id =>
      match s.worker id with
      | .ready =>
          (s.connections.start (.worker id) .get ⟨0, 0⟩).map fun connections =>
            { s.setWorker id .fetching with connections := connections }
      | _ => none
  | .gotTask id =>
      match s.worker id, s.connections.phase (.worker id) with
      | .fetching, .idle (some connfd) =>
          some (s.setWorker id (.receiving connfd))
      | _, _ => none
  | .recv id bytes beyond =>
      match s.worker id with
      | .receiving connfd =>
          if bytes = [] ∨ 3000 < bytes.length then none
          else
            some { s.setWorker id
                (.dealing connfd (dealt (s.recv_buf id) beyond bytes)) with
              recv_buf := Function.update s.recv_buf id
                (received (s.recv_buf id) bytes) }
      | _ => none
  | .hangUp id =>
      match s.worker id with
      | .receiving connfd =>
          some { s.setWorker id .ready with
            table := s.table.close connfd.number }
      | _ => none
  | .deal id files => s.deal id files
  | .getTaskOut =>
      match s.output with
      | .ready =>
          (s.opt.start .output .get ⟨0, [], ⟨0, 0⟩, []⟩).map fun opt =>
            { s with opt := opt, output := .fetching }
      | _ => none
  | .gotTaskOut =>
      match s.output, s.opt.phase .output with
      | .fetching, .idle (some task) =>
          some { s with output := .writing task }
      | _, _ => none
  | .write => s.write
  | .openFile found =>
      match s.output with
      | .opening task =>
          if found then
            some { s with
              table := s.table.install .file, output := .sending task }
          else some { s with output := .ready }
      | _ => none
  | .sendfile =>
      match s.output with
      | .sending task =>
          some { s with
            sent := s.sent ++ [⟨task, s.table.lookup task.sockfd.number⟩]
            output := .ready }
      | _ => none

/-! ## Messages on their way -/

/-- The connection that a thread of the pool has got. -/
def connfd (s : Server n) (id : Fin n) : Option Descriptor :=
  match s.worker id with
  | .ready => none
  | .fetching => (s.connections.phase (.worker id)).acquired
  | .receiving connfd => some connfd
  | .dealing connfd _ => some connfd

/-- The message that the output thread has still to write. -/
def unwritten (s : Server n) : Option OutPutTask :=
  match s.output with
  | .fetching => (s.opt.phase .output).acquired
  | .writing task => some task
  | _ => none

/-- The message whose file the output thread has still to send. -/
def unsent (s : Server n) : Option OutPutTask :=
  match s.output with
  | .opening task => some task
  | .sending task => some task
  | _ => none

/-- The messages that are in `opt`. -/
def queued (s : Server n) : List OutPutTask :=
  s.opt.put.drop s.opt.taken.length

/-- The descriptor is that of its connection. -/
def Alive (table : Table) (connfd : Descriptor) : Prop :=
  table.lookup connfd.number = some (.connection connfd.connection)

/-- No thread closes a connection for which there is still a message in `opt`,
or with the output thread. -/
def Settled (s : Server n) : ServerEvent n → Prop
  | .hangUp id =>
      ∀ connfd, s.connfd id = some connfd →
        (∀ task ∈ s.queued, task.sockfd ≠ connfd) ∧
        (∀ task ∈ s.unwritten, task.sockfd ≠ connfd) ∧
        ∀ task ∈ s.unsent, task.sockfd ≠ connfd
  | _ => True

end Server
end Lab2
end CloudComputing
