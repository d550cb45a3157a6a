import CloudComputing.Lab3.Connections

/-!
# The token of a port

For each port there is one token, which is always in one of four places: with
the coordinating thread, in the `full` semaphore of the task lock, with the
worker, or in the `full` semaphore of the result lock.  So a worker runs only
between the release of its task and the collection of its result, never
together with the other worker of the same participant, and it finds the
connection empty.
-/

namespace CloudComputing
namespace Lab3

open CloudComputing.Lab3.Parser Network

/-! ## The two ports of a participant -/

theorem Port.sibling_ne (port : Port) : port.sibling ≠ port := by
  cases port with
  | work id => exact Port.noConfusion
  | recov id => exact Port.noConfusion

theorem Port.sibling_sibling (port : Port) : port.sibling.sibling = port := by
  cases port with
  | work id => rfl
  | recov id => rfl

/-- A participant has two ports. -/
theorem Port.eq_or_sibling
    {port other : Port}
    (same : other.id = port.id) :
    other = port ∨ other = port.sibling := by
  cases port with
  | work id =>
      cases other with
      | work id' => exact .inl (congrArg Port.work same)
      | recov id' => exact .inr (congrArg Port.recov same)
  | recov id =>
      cases other with
      | work id' => exact .inr (congrArg Port.work same)
      | recov id' => exact .inl (congrArg Port.recov same)

/-! ## The token of a port -/

/-- The first operation of collecting a result. -/
def Prog.entering {α : Type} (port : Port) : Prog α → Bool
  | .lock .cGet port' _ => port' = port
  | _ => false

instance : LawfulBEq (Semaphore.Op (Port × Side)) := inferInstance

/-- Whether a worker has the token: from the `full` of its task to the `full`
of its result. -/
def WorkerPc.token (port : Port) : WorkerPc → Nat
  | .locking rest => if .wait (port, .task) .full ∈ rest then 0 else 1
  | .exchange _ _ => 1
  | .releasing rest => if .post (port, .ret) .full ∈ rest then 1 else 0

/-- A worker is not in `sendAndRecv`. -/
def WorkerPc.Outside (pc : WorkerPc) : Prop :=
  ∀ number text, pc ≠ .exchange number text

theorem WorkerPc.outside_locking (rest : List (Semaphore.Op (Port × Side))) :
    (locking rest).Outside := by
  intro number text same
  cases same

theorem WorkerPc.outside_releasing (rest : List (Semaphore.Op (Port × Side))) :
    (releasing rest).Outside := by
  intro number text same
  cases same

/-- A worker is in the midst of its loop, and has its task right. -/
inductive WorkerPc.Placed (t : Threads) (port : Port) : WorkerPc → Prop
  | locking
      {rest : List (Semaphore.Op (Port × Side))}
      (suffix : rest <:+ port.acquires) :
      Placed t port (.locking rest)
  | exchange : Placed t port (.exchange (t.number port) (t.asked port))
  | releasing
      {rest : List (Semaphore.Op (Port × Side))}
      (suffix : rest <:+ port.releases) :
      Placed t port (.releasing rest)

namespace Port

variable {port : Port} {op : Semaphore.Op (Port × Side)}
  {rest : List (Semaphore.Op (Port × Side))}

/-- An operation before the task takes the token, if any, from the task
lock. -/
theorem acquire_token
    (suffix : op :: rest <:+ port.acquires) :
    (WorkerPc.locking rest).token port =
        (WorkerPc.locking (op :: rest)).token port +
          op.takes (port, .task) .full ∧
      op.gives (port, .task) .full = 0 ∧
      op.takes (port, .ret) .full = 0 ∧ op.gives (port, .ret) .full = 0 := by
  simp only [acquires, Semaphore.cGet, Semaphore.pGet, List.suffix_cons_iff,
    List.cons.injEq, List.suffix_nil, reduceCtorEq, or_false] at suffix
  rcases suffix with ⟨rfl, rfl⟩ | ⟨rfl, rfl⟩ | ⟨rfl, rfl⟩ | ⟨rfl, rfl⟩ <;>
    simp [WorkerPc.token, Semaphore.Op.takes, Semaphore.Op.gives]

/-- An operation after the task gives the token, if any, to the result
lock. -/
theorem release_token
    (suffix : op :: rest <:+ port.releases) :
    (WorkerPc.releasing (op :: rest)).token port =
        (WorkerPc.releasing rest).token port + op.gives (port, .ret) .full ∧
      op.takes (port, .ret) .full = 0 ∧
      op.takes (port, .task) .full = 0 ∧
      op.gives (port, .task) .full = 0 := by
  cases port with
  | work id =>
      simp only [releases, Semaphore.cRelease, Semaphore.pRelease,
        List.suffix_cons_iff, List.cons.injEq, List.suffix_nil, reduceCtorEq,
        or_false] at suffix
      rcases suffix with ⟨rfl, rfl⟩ | ⟨rfl, rfl⟩ | ⟨rfl, rfl⟩ | ⟨rfl, rfl⟩ <;>
        simp [WorkerPc.token, Semaphore.Op.takes, Semaphore.Op.gives]
  | recov id =>
      simp only [releases, Semaphore.cRelease, Semaphore.pRelease,
        List.suffix_cons_iff, List.cons.injEq, List.suffix_nil, reduceCtorEq,
        or_false] at suffix
      rcases suffix with ⟨rfl, rfl⟩ | ⟨rfl, rfl⟩ | ⟨rfl, rfl⟩ | ⟨rfl, rfl⟩ <;>
        simp [WorkerPc.token, Semaphore.Op.takes, Semaphore.Op.gives]

/-- A worker uses the locks of its own port only. -/
theorem frame_op
    (member : op ∈ port.acquires ∨ op ∈ port.releases)
    {other : Port}
    (different : other ≠ port)
    (side : Side)
    (slot : Semaphore.Slot) :
    op.takes (other, side) slot = 0 ∧ op.gives (other, side) slot = 0 := by
  have elsewhere : port ≠ other := different.symm
  have cases : op = .wait (port, .task) .full ∨
      op = .wait (port, .task) .mutex ∨ op = .wait (port, .ret) .empty ∨
      op = .wait (port, .ret) .mutex ∨ op = .post (port, .task) .mutex ∨
      op = .post (port, .task) .empty ∨ op = .post (port, .ret) .mutex ∨
      op = .post (port, .ret) .full := by
    cases port with
    | work id =>
        simp only [acquires, releases, Semaphore.cGet, Semaphore.pGet,
          Semaphore.cRelease, Semaphore.pRelease, List.mem_cons,
          List.not_mem_nil, or_false] at member
        tauto
    | recov id =>
        simp only [acquires, releases, Semaphore.cGet, Semaphore.pGet,
          Semaphore.cRelease, Semaphore.pRelease, List.mem_cons,
          List.not_mem_nil, or_false] at member
        tauto
  rcases cases with rfl | rfl | rfl | rfl | rfl | rfl | rfl | rfl <;>
    simp [Semaphore.Op.takes, Semaphore.Op.gives, elsewhere]

end Port

/-- The first operation of an access takes the token only from a result. -/
theorem LockOp.first_token (op : LockOp) (port other : Port) :
    (op.ops port).1.takes (other, .ret) .full =
        (if op = .cGet ∧ port = other then 1 else 0) ∧
      (op.ops port).1.gives (other, .ret) .full = 0 ∧
      (op.ops port).1.takes (other, .task) .full = 0 ∧
      (op.ops port).1.gives (other, .task) .full = 0 := by
  cases op <;>
    simp [ops, Semaphore.pGet, Semaphore.pRelease, Semaphore.cGet,
      Semaphore.cRelease, Semaphore.Op.takes, Semaphore.Op.gives]

/-- The second operation of an access gives the token only to a task. -/
theorem LockOp.second_token (op : LockOp) (port other : Port) :
    (op.ops port).2.gives (other, .task) .full =
        (if op = .pRelease ∧ port = other then 1 else 0) ∧
      (op.ops port).2.takes (other, .task) .full = 0 ∧
      (op.ops port).2.takes (other, .ret) .full = 0 ∧
      (op.ops port).2.gives (other, .ret) .full = 0 := by
  cases op <;>
    simp [ops, Semaphore.pGet, Semaphore.pRelease, Semaphore.cGet,
      Semaphore.cRelease, Semaphore.Op.takes, Semaphore.Op.gives]

/-! ## The invariant -/

/-- The stored result is this outcome. -/
def Outcome.Matches (ret : Int × Bytes) : Outcome → Prop
  | .skipped => ret.1 = retSkip
  | .failed error => ret.1 = error.code
  | .replied reply => ret = (kvOk, reply)

namespace Threads

/-- The token is with the coordinating thread. -/
def holds (t : Threads) (port : Port) : Nat :=
  if t.phase port = .posted ∧
      ¬ (t.half = true ∧ t.prog.entering port = true) then 0
  else 1

/-- The stored result is what the worker has made of the latest task, and an
answer is one that the participant has computed for this very message. -/
def Settled (t : Threads) (port : Port) : Prop :=
  ∃ outcome, t.outcome port = some (t.number port, outcome) ∧
    outcome.Matches (result port t.co) ∧
    ∀ reply, outcome = .replied reply →
      ∃ execution ∈ (t.line port.id).handled,
        execution.ticket = ⟨port, t.number port⟩ ∧
        execution.message = t.asked port ∧ execution.reply = reply

/-- The worker has done the latest task. -/
inductive Ready (t : Threads) (port : Port) : Prop
  | releasing
      {rest : List (Semaphore.Op (Port × Side))}
      (worker : t.worker port = .releasing rest)
      (before : (WorkerPc.releasing rest).token port = 1)
  | full (positive : 0 < t.sems (port, .ret) .full)
  | entering (posted : t.phase port = .posted) (holds : t.holds port = 1)
  | reading (reading : t.phase port = .reading)

/-- The invariant of one port. -/
structure PortOk (t : Threads) (port : Port) : Prop where
  placed : (t.worker port).Placed t port
  token : t.holds port + t.sems (port, .task) .full +
    (t.worker port).token port + t.sems (port, .ret) .full = 1
  asked : t.phase port = .posted → task port t.co = t.asked port
  settled : t.Ready port → t.Settled port
  carries : ∀ number text, t.worker port = .exchange number text →
    (t.line port.id).Carries ⟨port, number⟩ text

/-- The invariant. -/
structure Ok (t : Threads) : Prop where
  follows : t.prog.Follows (fun _ phase => phase = postedOn []) t.phase
  begun : t.half = true → ∃ op port next, t.prog = .lock op port next
  single : ∀ port, t.phase port = .idle ∨ t.phase port.sibling = .idle
  ports : ∀ port, t.PortOk port
  quiet : ∀ id, (∀ port : Port, port.id = id → (t.worker port).Outside) →
    (t.line id).Quiet

/-- Nothing of a port has changed, except that its participant may have
handled more messages. -/
structure SamePort (t t' : Threads) (port : Port) : Prop where
  phase : t'.phase port = t.phase port
  holds : t'.holds port = t.holds port
  full : ∀ side, t'.sems (port, side) .full = t.sems (port, side) .full
  worker : t'.worker port = t.worker port
  number : t'.number port = t.number port
  asked : t'.asked port = t.asked port
  outcome : t'.outcome port = t.outcome port
  task : t.phase port = .posted → task port t'.co = task port t.co
  result : result port t'.co = result port t.co
  handled : ∀ execution ∈ (t.line port.id).handled,
    execution ∈ (t'.line port.id).handled
  carries : ∀ number text, t.worker port = .exchange number text →
    (t.line port.id).Carries ⟨port, number⟩ text →
    (t'.line port.id).Carries ⟨port, number⟩ text

variable {t t' : Threads} {port : Port}

theorem placed_of_same
    {pc : WorkerPc}
    (placed : pc.Placed t port)
    (number : t'.number port = t.number port)
    (asked : t'.asked port = t.asked port) :
    pc.Placed t' port := by
  cases placed with
  | locking suffix => exact .locking suffix
  | exchange =>
      rw [← number, ← asked]
      exact .exchange
  | releasing suffix => exact .releasing suffix

/-- Outside an exchange a worker knows nothing of its task. -/
theorem placed_outside
    {pc : WorkerPc}
    (placed : pc.Placed t port)
    (outside : pc.Outside) :
    pc.Placed t' port := by
  cases placed with
  | locking suffix => exact .locking suffix
  | exchange => exact absurd rfl (outside _ _)
  | releasing suffix => exact .releasing suffix

theorem SamePort.settled
    (same : SamePort t t' port)
    (settled : t.Settled port) :
    t'.Settled port := by
  obtain ⟨outcome, isOutcome, isResult, replied⟩ := settled
  refine ⟨outcome, ?_, ?_, ?_⟩
  · rw [same.outcome, same.number]
    exact isOutcome
  · rw [same.result]
    exact isResult
  · intro reply isReply
    obtain ⟨execution, member, ticket, message, isAnswer⟩ :=
      replied reply isReply
    refine ⟨execution, same.handled execution member, ?_, ?_, isAnswer⟩
    · rw [same.number]
      exact ticket
    · rw [same.asked]
      exact message

theorem SamePort.ready
    (same : SamePort t t' port)
    (ready : t'.Ready port) :
    t.Ready port := by
  cases ready with
  | releasing worker before =>
      exact .releasing (same.worker ▸ worker) before
  | full positive => exact .full (same.full .ret ▸ positive)
  | entering posted holds =>
      exact .entering (same.phase ▸ posted) (same.holds ▸ holds)
  | reading reading => exact .reading (same.phase ▸ reading)

theorem PortOk.same
    (ok : t.PortOk port)
    (same : SamePort t t' port) :
    t'.PortOk port where
  placed := by
    rw [same.worker]
    exact placed_of_same ok.placed same.number same.asked
  token := by
    rw [same.holds, same.full, same.full, same.worker]
    exact ok.token
  asked := by
    intro posted
    rw [same.phase] at posted
    rw [same.task posted, same.asked]
    exact ok.asked posted
  settled := fun ready => same.settled (ok.settled (same.ready ready))
  carries := by
    intro number text worker
    rw [same.worker] at worker
    exact same.carries number text worker (ok.carries number text worker)

/-- A participant that exists has changed. -/
theorem onLine_eq
    {id : Nat}
    {change : Line → Option Line}
    (taken : t.onLine id change = some t') :
    ∃ line, change (t.line id) = some line ∧
      t' = { t with line := Function.update t.line id line } := by
  unfold onLine at taken
  split at taken
  · obtain ⟨line, changed, isNext⟩ := Option.bind_eq_some_iff.mp taken
    exact ⟨line, changed, (Option.some.inj isNext).symm⟩
  · cases taken

/-- While a worker has the token, the coordinating thread waits for it. -/
theorem PortOk.posted
    (ok : t.PortOk port)
    (token : (t.worker port).token port = 1) :
    t.phase port = .posted ∧ t.holds port = 0 ∧
      t.sems (port, .ret) .full = 0 := by
  have sum := ok.token
  have none : t.holds port = 0 := by omega
  refine ⟨?_, none, by omega⟩
  unfold holds at none
  by_contra other
  rw [if_neg fun both => other both.1] at none
  cases none

theorem Ok.sibling_idle
    (ok : t.Ok)
    (token : (t.worker port).token port = 1) :
    (t.worker port.sibling).token port.sibling = 0 := by
  have posted := ((ok.ports port).posted token).1
  by_contra running
  have other := (ok.ports port.sibling).token
  have isPosted := ((ok.ports port.sibling).posted (by omega)).1
  rcases ok.single port with idle | idle
  · rw [posted] at idle
    cases idle
  · rw [isPosted] at idle
    cases idle

end Threads
end Lab3
end CloudComputing
