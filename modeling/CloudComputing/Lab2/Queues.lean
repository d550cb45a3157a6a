import CloudComputing.Lib.Bytes
import CloudComputing.Lib.RingBuffer

/-!
# The queues of the server

The ring `Connections` between the accepting thread and the threads of the
pool, and the ring `opt` between these and the output thread, each with three
semaphores of its own.
-/

namespace CloudComputing
namespace Lab2

open RingBuffer

/-- `Size`. -/
def size : Nat := 1000

/-- A descriptor.  The connection for which `accept` has returned it is
history. -/
structure Descriptor where
  number : Nat
  connection : Nat
  deriving DecidableEq, Repr

/-- `outPutTask`: a message, of type 0 if a file is to be sent behind it. -/
structure OutPutTask where
  type : Int
  filePath : Bytes
  sockfd : Descriptor
  message : Bytes
  deriving DecidableEq, Repr

/-- `putTask` and `getTask` copy a number. -/
def connectionsLayout : Layout Descriptor where
  moves := [fun source _ => source]
  complete := by
    intro source target
    rfl

/-- `putTaskOut` and `getTaskOut` copy field by field. -/
def optLayout : Layout OutPutTask where
  moves :=
    [fun source target => { target with type := source.type },
      fun source target => { target with filePath := source.filePath },
      fun source target => { target with sockfd := source.sockfd },
      fun source target => { target with message := source.message }]
  complete := by
    intro source target
    rfl

/-- Both queues, and where their threads are. -/
structure Queues (T : Type*) where
  connections : State T Descriptor
  opt : State T OutPutTask

namespace Queues

variable {T : Type*}

/-- What `create_consumer_thread_pool` and `create_output_thread` set up. -/
def init
    (connections : Nat → Descriptor)
    (opt : Nat → OutPutTask) : Queues T where
  connections := .init T size connections
  opt := .init T size opt

variable [DecidableEq T]

/-- A step of a thread with one of the queues. -/
def step (queues : Queues T) :
    Event T Descriptor ⊕ Event T OutPutTask → Option (Queues T)
  | .inl event =>
      (queues.connections.step connectionsLayout size event).map fun state =>
        { queues with connections := state }
  | .inr event =>
      (queues.opt.step optLayout size event).map fun state =>
        { queues with opt := state }

variable [Fintype T]

/-- The invariants of both queues. -/
structure Inv (queues : Queues T) : Prop where
  connections : RingBuffer.Inv connectionsLayout size queues.connections
  opt : RingBuffer.Inv optLayout size queues.opt

omit [DecidableEq T] in
theorem Inv.init
    (connections : Nat → Descriptor)
    (opt : Nat → OutPutTask) :
    Inv (Queues.init (T := T) connections opt) where
  connections := RingBuffer.Inv.init connectionsLayout size connections
  opt := RingBuffer.Inv.init optLayout size opt

theorem Inv.step
    {queues next : Queues T}
    (inv : Inv queues)
    {event : Event T Descriptor ⊕ Event T OutPutTask}
    (taken : queues.step event = some next) :
    Inv next := by
  cases event with
  | inl event =>
      obtain ⟨state, moved, rfl⟩ := Option.map_eq_some_iff.mp taken
      exact ⟨inv.connections.step moved, inv.opt⟩
  | inr event =>
      obtain ⟨state, moved, rfl⟩ := Option.map_eq_some_iff.mp taken
      exact ⟨inv.connections, inv.opt.step moved⟩

/-- The queues lose and duplicate nothing, whatever threads use them: what has
been taken out is what was put in first, and every field of every slot is
written and read in turn, a write first. -/
theorem lossless
    {slots : Nat → Descriptor}
    {optSlots : Nat → OutPutTask}
    {events : List (Event T Descriptor ⊕ Event T OutPutTask)}
    {queues : Queues T}
    (run : Run step Run.free (init slots optSlots) events queues) :
    (queues.connections.taken <+: queues.connections.put ∧
      ∀ slot, Alternates
        (accessesAt slot 0 queues.connections.accesses)) ∧
    (queues.opt.taken <+: queues.opt.put ∧
      ∀ slot field, field < 4 →
        Alternates (accessesAt slot field queues.opt.accesses)) := by
  have inv : Inv queues := by
    apply run.preserves _ (Inv.init slots optSlots)
    intro state event next inv _ taken
    exact inv.step taken
  refine ⟨⟨inv.connections.inOrder, ?_⟩, inv.opt.inOrder, ?_⟩
  · intro slot
    exact inv.connections.alternates Nat.zero_lt_one slot
  · intro slot field below
    exact inv.opt.alternates below slot

/-- Two threads and one descriptor. -/
theorem lossless_handed :
    ∃ queues : Queues Bool,
      queues.connections.taken = [⟨4, 0⟩] ∧
      queues.connections.taken <+: queues.connections.put ∧
      ∀ slot, Alternates
        (accessesAt slot 0 queues.connections.accesses) := by
  let slots : Nat → Descriptor := fun _ => ⟨0, 0⟩
  let events : List (Event Bool Descriptor ⊕ Event Bool OutPutTask) :=
    [.inl (.start true .put ⟨4, 0⟩), .inl (.start false .get ⟨0, 0⟩)] ++
      List.replicate 6 (.inl (.next true)) ++
      List.replicate 4 (.inl (.next false))
  have executed : (events.foldlM step
      (init slots fun _ => ⟨0, [], ⟨0, 0⟩, []⟩)).map
        (fun queues => queues.connections.taken) = some [⟨4, 0⟩] := by
    decide
  obtain ⟨queues, executed, taken⟩ := Option.map_eq_some_iff.mp executed
  have run := Run.of_executed executed
  exact ⟨queues, taken, (lossless run).1⟩

end Queues
end Lab2
end CloudComputing
