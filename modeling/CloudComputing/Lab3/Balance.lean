import CloudComputing.Lab3.Results

/-!
# The locks are balanced

Each of the four locks of a participant has one item and one mutex.  Both are
either free, or with the coordinating thread, or with the worker; every access
that takes them gives them back, whatever way the program and the worker go.
-/

namespace CloudComputing
namespace Lab3

open Semaphore (Share)

/-- The semaphore from which a worker takes its share of a lock. -/
def Side.taken : Side → Share → Semaphore.Slot
  | .task, .item => .full
  | .ret, .item => .empty
  | _, .mutex => .mutex

/-- The semaphore to which a worker gives its share of a lock back. -/
def Side.given : Side → Share → Semaphore.Slot
  | .task, .item => .empty
  | .ret, .item => .full
  | _, .mutex => .mutex

/-- What a worker has of a lock of its port. -/
def WorkerPc.share
    (port : Port)
    (side : Side)
    (share : Share) : WorkerPc → Nat
  | .locking rest =>
      if .wait (port, side) (side.taken share) ∈ rest then 0 else 1
  | .exchange _ _ => 1
  | .releasing rest =>
      if .post (port, side) (side.given share) ∈ rest then 1 else 0

/-- What the coordinating thread has of a lock, in this phase, and perhaps
between the two operations of its next access. -/
def Phase.share
    (half : Bool)
    (side : Side)
    (share : Share)
    (phase : Phase) : Nat :=
  match side, share with
  | .task, .item =>
      if phase = .writing ∨ phase = .idle ∧ half = true then 1 else 0
  | .task, .mutex => if phase = .writing ∧ half = false then 1 else 0
  | .ret, .item =>
      if phase = .reading ∨ phase = .posted ∧ half = true then 1 else 0
  | .ret, .mutex => if phase = .reading ∧ half = false then 1 else 0

/-- The next access is one to this port. -/
def Prog.accesses {α : Type} (port : Port) : Prog α → Bool
  | .lock _ port' _ => port' = port
  | _ => false

namespace Threads

/-- What the coordinating thread has of a lock. -/
def share (t : Threads) (port : Port) (side : Side) (share : Share) : Nat :=
  (t.phase port).share (t.half && t.prog.accesses port) side share

/-- Every share of every lock is free or with one of the two threads. -/
def Balanced (t : Threads) : Prop :=
  ∀ port side share,
    Semaphore.free t.sems (port, side) share + t.share port side share +
      (t.worker port).share port side share = 1

end Threads

/-! ## Operations -/

/-- The phase before an access. -/
def LockOp.before : LockOp → Phase
  | .pGet => .idle
  | .pRelease => .writing
  | .cGet => .posted
  | .cRelease => .reading

theorem LockOp.Allowed.before
    {phase : Port → Phase}
    {port : Port}
    {op : LockOp}
    (allowed : op.Allowed phase port) :
    phase port = op.before := by
  cases op with
  | pGet => exact allowed.1
  | pRelease => exact allowed
  | cGet => exact allowed
  | cRelease => exact allowed

/-- The first operation of an access. -/
theorem LockOp.first_share
    (op : LockOp)
    (port : Port)
    (side : Side)
    (share : Share) :
    op.before.share true side share +
        (op.ops port).1.returns (port, side) share =
      op.before.share false side share +
        (op.ops port).1.claims (port, side) share := by
  cases op <;> cases side <;> cases share <;>
    simp [LockOp.before, ops, Phase.share, Semaphore.pGet, Semaphore.pRelease,
      Semaphore.cGet, Semaphore.cRelease, Semaphore.Op.claims,
      Semaphore.Op.returns, Semaphore.Op.takes, Semaphore.Op.gives]

/-- The second operation of an access. -/
theorem LockOp.second_share
    (op : LockOp)
    (port : Port)
    (side : Side)
    (share : Share) :
    op.after.share false side share +
        (op.ops port).2.returns (port, side) share =
      op.before.share true side share +
        (op.ops port).2.claims (port, side) share := by
  cases op <;> cases side <;> cases share <;>
    simp [LockOp.before, after, ops, Phase.share, Semaphore.pGet,
      Semaphore.pRelease, Semaphore.cGet, Semaphore.cRelease,
      Semaphore.Op.claims, Semaphore.Op.returns, Semaphore.Op.takes,
      Semaphore.Op.gives]

/-- An access is one to the locks of its port only. -/
theorem LockOp.frame_share
    (op : LockOp)
    {port other : Port}
    (different : other ≠ port)
    (side : Side)
    (share : Share) :
    ((op.ops port).1.claims (other, side) share = 0 ∧
        (op.ops port).1.returns (other, side) share = 0) ∧
      (op.ops port).2.claims (other, side) share = 0 ∧
        (op.ops port).2.returns (other, side) share = 0 := by
  cases op <;> cases share <;>
    simp [ops, different.symm, Semaphore.pGet, Semaphore.pRelease,
      Semaphore.cGet, Semaphore.cRelease, Semaphore.Op.claims,
      Semaphore.Op.returns, Semaphore.Op.takes, Semaphore.Op.gives]

namespace Port

variable {port : Port} {op : Semaphore.Op (Port × Side)}
  {rest : List (Semaphore.Op (Port × Side))}

theorem acquire_share
    (suffix : op :: rest <:+ port.acquires)
    (side : Side)
    (share : Share) :
    (WorkerPc.locking rest).share port side share +
        op.returns (port, side) share =
      (WorkerPc.locking (op :: rest)).share port side share +
        op.claims (port, side) share := by
  simp only [acquires, Semaphore.cGet, Semaphore.pGet, List.suffix_cons_iff,
    List.cons.injEq, List.suffix_nil, reduceCtorEq, or_false] at suffix
  rcases suffix with ⟨rfl, rfl⟩ | ⟨rfl, rfl⟩ | ⟨rfl, rfl⟩ | ⟨rfl, rfl⟩ <;>
    cases side <;> cases share <;>
    simp [WorkerPc.share, Side.taken, Semaphore.Op.claims,
      Semaphore.Op.returns, Semaphore.Op.takes, Semaphore.Op.gives]

theorem release_share
    (suffix : op :: rest <:+ port.releases)
    (side : Side)
    (share : Share) :
    (WorkerPc.releasing rest).share port side share +
        op.returns (port, side) share =
      (WorkerPc.releasing (op :: rest)).share port side share +
        op.claims (port, side) share := by
  cases port with
  | work id =>
      simp only [releases, Semaphore.cRelease, Semaphore.pRelease,
        List.suffix_cons_iff, List.cons.injEq, List.suffix_nil, reduceCtorEq,
        or_false] at suffix
      rcases suffix with ⟨rfl, rfl⟩ | ⟨rfl, rfl⟩ | ⟨rfl, rfl⟩ | ⟨rfl, rfl⟩ <;>
        cases side <;> cases share <;>
        simp [WorkerPc.share, Side.given, Semaphore.Op.claims,
          Semaphore.Op.returns, Semaphore.Op.takes, Semaphore.Op.gives]
  | recov id =>
      simp only [releases, Semaphore.cRelease, Semaphore.pRelease,
        List.suffix_cons_iff, List.cons.injEq, List.suffix_nil, reduceCtorEq,
        or_false] at suffix
      rcases suffix with ⟨rfl, rfl⟩ | ⟨rfl, rfl⟩ | ⟨rfl, rfl⟩ | ⟨rfl, rfl⟩ <;>
        cases side <;> cases share <;>
        simp [WorkerPc.share, Side.given, Semaphore.Op.claims,
          Semaphore.Op.returns, Semaphore.Op.takes, Semaphore.Op.gives]

theorem share_acquires (port : Port) (side : Side) (share : Share) :
    (WorkerPc.locking port.acquires).share port side share = 0 := by
  cases side <;> cases share <;>
    simp [WorkerPc.share, Side.taken, acquires, Semaphore.cGet,
      Semaphore.pGet]

theorem share_releases (port : Port) (side : Side) (share : Share) :
    (WorkerPc.releasing port.releases).share port side share = 1 := by
  cases port <;> cases side <;> cases share <;>
    simp [WorkerPc.share, Side.given, releases, Semaphore.cRelease,
      Semaphore.pRelease]

theorem frame_share
    (member : op ∈ port.acquires ∨ op ∈ port.releases)
    {other : Port}
    (different : other ≠ port)
    (side : Side)
    (share : Share) :
    op.claims (other, side) share = 0 ∧ op.returns (other, side) share = 0 := by
  have frame := frame_op member different side
  cases share with
  | item =>
      simp only [Semaphore.Op.claims, Semaphore.Op.returns, (frame .empty).1,
        (frame .empty).2, (frame .full).1, (frame .full).2, and_self]
  | mutex => exact frame .mutex

end Port

/-! ## Steps -/

namespace Threads

variable {t t' : Threads} {port : Port}

/-- An operation that changes what the two threads have as it should. -/
theorem Balanced.apply
    (balanced : t.Balanced)
    {op : Semaphore.Op (Port × Side)}
    (applied : op.apply t.sems = some t'.sems)
    (moved : ∀ port side share,
      t'.share port side share + (t'.worker port).share port side share +
          op.returns (port, side) share =
        t.share port side share + (t.worker port).share port side share +
          op.claims (port, side) share) :
    t'.Balanced := by
  intro port side share
  have before := balanced port side share
  have free := Semaphore.Op.balance_share applied (port, side) share
  have threads := moved port side share
  omega

/-- No operation, and nobody has more or less. -/
theorem Balanced.frame
    (balanced : t.Balanced)
    (sems : t'.sems = t.sems)
    (coordinator : ∀ port side share,
      t'.share port side share = t.share port side share)
    (worker : ∀ port side share,
      (t'.worker port).share port side share =
        (t.worker port).share port side share) :
    t'.Balanced := by
  intro port side share
  rw [sems, coordinator, worker]
  exact balanced port side share

theorem share_of_not_half
    (half : t.half = false)
    (port : Port)
    (side : Side)
    (share : Share) :
    t.share port side share = (t.phase port).share false side share := by
  rw [Threads.share, half]
  rfl

theorem Balanced.coordinate
    (balanced : t.Balanced)
    (ok : t.Ok)
    (taken : t.coordinate = some t') :
    t'.Balanced := by
  have follows := ok.follows
  unfold Threads.coordinate at taken
  split at taken
  · cases taken
  · cases taken
  · rename_i next isGet
    cases taken
    have half := ok.not_half fun op port next isLock => by
      rw [isGet] at isLock
      cases isLock
    refine balanced.frame rfl (fun port side share => ?_) fun _ _ _ => rfl
    rw [share_of_not_half half, share_of_not_half]
    exact half
  · rename_i change next isModify
    cases taken
    have half := ok.not_half fun op port next isLock => by
      rw [isModify] at isLock
      cases isLock
    refine balanced.frame rfl (fun port side share => ?_) fun _ _ _ => rfl
    rw [share_of_not_half half, share_of_not_half]
    exact half
  · rename_i op port next isLock
    rw [isLock] at follows
    have before := follows.1.before
    have accesses : ∀ other, t.prog.accesses other = decide (port = other) := by
      intro other
      rw [isLock]
      rfl
    split at taken
    · rename_i half
      obtain ⟨sems, applied, isNext⟩ := Option.bind_eq_some_iff.mp taken
      cases isNext
      refine balanced.apply applied fun other side share => ?_
      rw [share_of_not_half half]
      change (t.phase other).share (true && t.prog.accesses other) side share +
        (t.worker other).share other side share + _ = _
      rw [Bool.true_and, accesses]
      by_cases own : other = port
      · rw [own, decide_eq_true rfl, before]
        have moved := op.first_share port side share
        omega
      · rw [decide_eq_false fun same => own same.symm]
        obtain ⟨⟨claims, returns⟩, _⟩ := op.frame_share own side share
        omega
    · rename_i half
      have isHalf : t.half = true := by simpa using half
      obtain ⟨sems, applied, isNext⟩ := Option.bind_eq_some_iff.mp taken
      cases isNext
      rw [complete_eq]
      refine balanced.apply applied fun other side share => ?_
      rw [share_of_not_half rfl]
      change (Function.update t.phase port op.after other).share false side
          share + (t.worker other).share other side share + _ =
        (t.phase other).share (t.half && t.prog.accesses other) side share + _
          + _
      rw [isHalf, Bool.true_and, accesses]
      by_cases own : other = port
      · rw [own, decide_eq_true rfl, before, Function.update_self]
        have moved := op.second_share port side share
        omega
      · rw [decide_eq_false fun same => own same.symm,
          Function.update_of_ne own]
        obtain ⟨_, claims, returns⟩ := op.frame_share own side share
        omega

/-- A worker goes on without an operation. -/
theorem Balanced.move
    (balanced : t.Balanced)
    (sems : t'.sems = t.sems)
    (phase : t'.phase = t.phase)
    (half : t'.half = t.half)
    (prog : t'.prog = t.prog)
    {pc : WorkerPc}
    (worker : t'.worker = Function.update t.worker port pc)
    (own : ∀ side share,
      pc.share port side share = (t.worker port).share port side share) :
    t'.Balanced := by
  refine balanced.frame sems (fun other side share => ?_)
    fun other side share => ?_
  · rw [Threads.share, Threads.share, phase, half, prog]
  · rw [worker, Function.update_apply]
    split
    · rename_i isOwn
      rw [isOwn]
      exact own side share
    · rfl

theorem Balanced.finish
    (balanced : t.Balanced)
    (own : ∀ side share, (t.worker port).share port side share = 1)
    (number : Nat)
    (outcome : Outcome)
    (entry : Entry)
    (line : Line) :
    (t.finish port number outcome entry line).Balanced :=
  balanced.move rfl rfl rfl rfl rfl fun side share =>
    (port.share_releases side share).trans (own side share).symm

/-- An operation of a worker. -/
theorem Balanced.operate
    (balanced : t.Balanced)
    {op : Semaphore.Op (Port × Side)}
    {sems : Semaphore.Values (Port × Side)}
    (applied : op.apply t.sems = some sems)
    (member : op ∈ port.acquires ∨ op ∈ port.releases)
    {pc : WorkerPc}
    (own : ∀ side share,
      pc.share port side share + op.returns (port, side) share =
        (t.worker port).share port side share +
          op.claims (port, side) share) :
    ({ t with sems := sems, worker := Function.update t.worker port pc } :
      Threads).Balanced := by
  refine balanced.apply applied fun other side share => ?_
  change t.share other side share +
    (Function.update t.worker port pc other).share other side share + _ = _
  by_cases isOwn : other = port
  · subst isOwn
    rw [Function.update_self]
    have moved := own side share
    omega
  · rw [Function.update_of_ne isOwn]
    obtain ⟨claims, returns⟩ := Port.frame_share member isOwn side share
    omega

theorem Balanced.work
    (balanced : t.Balanced)
    (ok : t.Ok)
    (taken : t.work port = some t') :
    t'.Balanced := by
  have placed := (ok.ports port).placed
  unfold Threads.work at taken
  split at taken
  · rename_i isLocking
    have own : ∀ side share, (t.worker port).share port side share = 1 := by
      intro side share
      rw [isLocking]
      simp [WorkerPc.share]
    obtain ⟨⟨goesOn, entry⟩, _, isNext⟩ := Option.bind_eq_some_iff.mp taken
    dsimp only at isNext
    split at isNext
    · cases isNext
      exact balanced.finish own _ _ _ _
    · split at isNext
      · cases isNext
        exact balanced.finish own _ _ _ _
      · cases isNext
        exact balanced.move rfl rfl rfl rfl rfl
          fun side share => (own side share).symm
  · rename_i op rest isLocking
    obtain ⟨sems, applied, isNext⟩ := Option.bind_eq_some_iff.mp taken
    cases isNext
    rw [isLocking] at placed
    have suffix : op :: rest <:+ port.acquires := by
      cases placed with
      | locking suffix => exact suffix
    refine balanced.operate applied
      (.inl (suffix.subset (List.mem_cons_self ..))) fun side share => ?_
    rw [isLocking]
    exact Port.acquire_share suffix side share
  · cases taken
  · rename_i isReleasing
    cases taken
    refine balanced.move rfl rfl rfl rfl rfl fun side share => ?_
    rw [port.share_acquires, isReleasing]
    simp [WorkerPc.share]
  · rename_i op rest isReleasing
    obtain ⟨sems, applied, isNext⟩ := Option.bind_eq_some_iff.mp taken
    cases isNext
    rw [isReleasing] at placed
    have suffix : op :: rest <:+ port.releases := by
      cases placed with
      | releasing suffix => exact suffix
    refine balanced.operate applied
      (.inr (suffix.subset (List.mem_cons_self ..))) fun side share => ?_
    rw [isReleasing]
    exact Port.release_share suffix side share

theorem prog_work (taken : t.work port = some t') : t'.prog = t.prog := by
  unfold Threads.work at taken
  split at taken
  · obtain ⟨⟨goesOn, entry⟩, _, isNext⟩ := Option.bind_eq_some_iff.mp taken
    dsimp only at isNext
    split at isNext
    · cases isNext
      rfl
    · split at isNext
      · cases isNext
        rfl
      · cases isNext
        rfl
  · obtain ⟨sems, _, isNext⟩ := Option.bind_eq_some_iff.mp taken
    cases isNext
    rfl
  · cases taken
  · cases taken
    rfl
  · obtain ⟨sems, _, isNext⟩ := Option.bind_eq_some_iff.mp taken
    cases isNext
    rfl

theorem Balanced.onLine
    (balanced : t.Balanced)
    {id : Nat}
    {change : Line → Option Line}
    (taken : t.onLine id change = some t') :
    t'.Balanced := by
  obtain ⟨line, _, rfl⟩ := onLine_eq taken
  exact balanced

/-- A step of a worker. -/
theorem Balanced.worker
    (balanced : t.Balanced)
    (ok : t.Ok)
    {act : Act}
    (isWorker : act.isWorker = true)
    (taken : t.step act = some t') :
    t'.Balanced ∧ t'.prog = t.prog := by
  cases act with
  | work port =>
      simp only [Threads.step] at taken
      split at taken
      · exact ⟨balanced.work ok taken, prog_work taken⟩
      · cases taken
  | fail port error part arrives =>
      change t.fail port error part arrives = some t' at taken
      unfold Threads.fail at taken
      split at taken
      · rename_i number text exchange
        cases taken
        refine ⟨balanced.finish (fun side share => ?_) _ _ _ _, rfl⟩
        rw [exchange]
        rfl
      · cases taken
  | receive port reads =>
      change t.receive port reads = some t' at taken
      unfold Threads.receive at taken
      split at taken
      · rename_i number text exchange
        obtain ⟨⟨rmsg, reads', rest⟩, _, isNext⟩ :=
          Option.bind_eq_some_iff.mp taken
        cases isNext
        refine ⟨balanced.finish (fun side share => ?_) _ _ _ _, rfl⟩
        rw [exchange]
        rfl
      · cases taken
  | _ => cases isWorker

/-- What happens outside the coordinator. -/
theorem Balanced.outside
    (balanced : t.Balanced)
    {act : Act}
    (isOutside : act.isOutside = true)
    (taken : t.step act = some t') :
    t'.Balanced ∧ t'.prog = t.prog := by
  have line : ∀ id change, t.onLine id change = some t' →
      t'.Balanced ∧ t'.prog = t.prog := by
    intro id change taken
    refine ⟨balanced.onLine taken, ?_⟩
    obtain ⟨line, _, rfl⟩ := onLine_eq taken
    rfl
  cases act with
  | serve id reads => exact line id (fun line => line.serve reads) taken
  | drain id reads => exact line id (fun line => line.drain reads) taken
  | crash id => exact line id (fun line => some line.crash) taken
  | hangUp id => exact line id (fun line => some line.hangUp) taken
  | _ => cases isOutside

/-- The thread begins another program. -/
theorem Balanced.call
    (balanced : t.Balanced)
    (half : t.half = false)
    (prog : Prog Unit) :
    ({ t with prog := prog } : Threads).Balanced := by
  refine balanced.frame rfl (fun port side share => ?_) fun _ _ _ => rfl
  rw [share_of_not_half half, share_of_not_half]
  exact half

theorem Balanced.init
    (pnum : Nat)
    (proc : Nat → Participant)
    (old : Nat → Option (Bytes × List Ticket)) :
    (Threads.init pnum proc old).Balanced := by
  intro port side share
  change Semaphore.free _ (port, side) share +
    Phase.idle.share false side share +
      (WorkerPc.locking port.acquires).share port side share = 1
  rw [port.share_acquires]
  cases side <;> cases share <;>
    simp [Semaphore.free, Phase.share, Threads.init, Semaphore.fresh]

/-! ## What can go on -/

/-- The worker is at the start of its loop, and waits for a task. -/
def Waiting (t : Threads) (port : Port) : Prop :=
  t.worker port = .locking port.acquires ∧ t.sems (port, .task) .full = 0

/-- A worker that waits for a task has no part of a lock. -/
theorem Balanced.waiting_share
    (balanced : t.Balanced)
    (waiting : t.Waiting port)
    (side : Side)
    (share : Share) :
    Semaphore.free t.sems (port, side) share + t.share port side share = 1 := by
  have sum := balanced port side share
  rw [waiting.1, port.share_acquires] at sum
  exact sum

/-- A worker never waits for a lock but at the start of its loop. -/
theorem Balanced.work_isSome
    (balanced : t.Balanced)
    (ok : t.Ok)
    {rest : List (Semaphore.Op (Port × Side))}
    {op : Semaphore.Op (Port × Side)}
    (isLocking : t.worker port = .locking (op :: rest))
    (notWaiting : ¬ t.Waiting port) :
    (op.apply t.sems).isSome = true := by
  have placed := (ok.ports port).placed
  rw [isLocking] at placed
  have suffix : op :: rest <:+ port.acquires := by
    cases placed with
    | locking suffix => exact suffix
  have sum := (ok.ports port).token
  rw [isLocking] at sum
  -- With a task the coordinating thread has nothing of the two locks.
  have alone : (WorkerPc.locking (op :: rest)).token port = 1 →
      ∀ side share, Semaphore.free t.sems (port, side) share +
        (WorkerPc.locking (op :: rest)).share port side share = 1 := by
    intro token side share
    have total := balanced port side share
    rw [isLocking] at total
    have none : t.share port side share = 0 := by
      obtain ⟨posted, holds, _⟩ :=
        (ok.ports port).posted (by rw [isLocking]; exact token)
      have between : (t.half && t.prog.accesses port) = false := by
        by_contra entered
        rw [Bool.not_eq_false, Bool.and_eq_true] at entered
        obtain ⟨op', port', next, isLock⟩ := ok.begun entered.1
        have follows := ok.follows
        rw [isLock] at follows entered
        have same : port' = port := of_decide_eq_true entered.2
        subst same
        rw [holds_of_leaving isLock entered.1 follows.1] at holds
        cases holds
      unfold Threads.share
      rw [between, posted]
      cases side <;> cases share <;> rfl
    omega
  apply Semaphore.Op.apply_isSome
  intro lock slot isWait
  simp only [Port.acquires, Semaphore.cGet, Semaphore.pGet,
    List.suffix_cons_iff, List.cons.injEq, List.suffix_nil, reduceCtorEq,
    or_false] at suffix
  rcases suffix with ⟨isOp, isRest⟩ | ⟨isOp, isRest⟩ | ⟨isOp, isRest⟩ |
      ⟨isOp, isRest⟩ <;>
    rw [isWait] at isOp <;> cases isOp
  · have isAll : t.worker port = .locking port.acquires := by
      rw [isLocking, isWait, isRest]
      rfl
    exact Nat.pos_of_ne_zero fun none => notWaiting ⟨isAll, none⟩
  · have token : (WorkerPc.locking (op :: rest)).token port = 1 := by
      rw [isWait, isRest]
      simp [WorkerPc.token]
    have free := alone token .task .mutex
    rw [isWait, isRest] at free
    simp [Semaphore.free, WorkerPc.share, Side.taken] at free
    omega
  · have token : (WorkerPc.locking (op :: rest)).token port = 1 := by
      rw [isWait, isRest]
      simp [WorkerPc.token]
    have free := alone token .ret .item
    rw [isWait, isRest] at free sum
    simp [WorkerPc.token] at sum
    simp [Semaphore.free, WorkerPc.share, Side.taken] at free
    omega
  · have token : (WorkerPc.locking (op :: rest)).token port = 1 := by
      rw [isWait, isRest]
      simp [WorkerPc.token]
    have free := alone token .ret .mutex
    rw [isWait, isRest] at free
    simp [Semaphore.free, WorkerPc.share, Side.taken] at free
    omega

/-- The coordinating thread waits for a lock only while the worker of the port
is not waiting for it. -/
theorem Balanced.coordinate_isSome
    (balanced : t.Balanced)
    (ok : t.Ok)
    {op : LockOp}
    {next : Prog Unit}
    (isLock : t.prog = .lock op port next)
    (waiting : t.Waiting port) :
    t.coordinate.isSome = true := by
  have follows := ok.follows
  rw [isLock] at follows
  have allowed := follows.1
  have accesses : t.prog.accesses port = true := by
    rw [isLock]
    exact decide_eq_true rfl
  have sum := (ok.ports port).token
  have free := balanced.waiting_share waiting
  have token : (WorkerPc.locking port.acquires).token port = 0 := by
    simp [WorkerPc.token, Port.acquires, Semaphore.cGet]
  rw [waiting.1, waiting.2, token] at sum
  unfold Threads.coordinate
  rw [isLock]
  dsimp only
  cases isHalf : t.half with
  | false =>
      rw [if_pos rfl]
      have ready : ((op.ops port).1.apply t.sems).isSome = true := by
        apply Semaphore.Op.apply_isSome
        intro lock slot isWait
        cases op with
        | pGet =>
            cases isWait
            have item := free .task .item
            rw [share_of_not_half isHalf, allowed.before] at item
            simp [Semaphore.free, Phase.share, LockOp.before, waiting.2]
              at item
            omega
        | pRelease => cases isWait
        | cGet =>
            cases isWait
            have posted : t.phase port = .posted := allowed
            rw [holds_of_not_half isHalf, if_pos posted] at sum
            omega
        | cRelease => cases isWait
      obtain ⟨sems, applied⟩ := Option.isSome_iff_exists.mp ready
      rw [applied]
      rfl
  | true =>
      rw [if_neg Bool.noConfusion]
      have ready : ((op.ops port).2.apply t.sems).isSome = true := by
        apply Semaphore.Op.apply_isSome
        intro lock slot isWait
        have share : ∀ side share, t.share port side share =
            op.before.share true side share := by
          intro side share
          rw [Threads.share, isHalf, accesses, allowed.before]
          rfl
        cases op with
        | pGet =>
            cases isWait
            have mutex := free .task .mutex
            rw [share] at mutex
            simp [Semaphore.free, Phase.share] at mutex
            omega
        | pRelease => cases isWait
        | cGet =>
            cases isWait
            have mutex := free .ret .mutex
            rw [share] at mutex
            simp [Semaphore.free, Phase.share] at mutex
            omega
        | cRelease => cases isWait
      obtain ⟨sems, applied⟩ := Option.isSome_iff_exists.mp ready
      rw [applied]
      rfl

/-- When neither thread has a part of a lock, it is as new. -/
theorem Balanced.fresh
    (balanced : t.Balanced)
    (ok : t.Ok)
    (idle : t.phase port = .idle)
    (half : t.half = false)
    (settled : t.worker port = .locking port.acquires)
    (side : Side) :
    t.sems (port, side) = Semaphore.fresh 1 := by
  have sum := (ok.ports port).token
  have holds : t.holds port = 1 :=
    holds_of_not_posted (by rw [idle]; exact Phase.noConfusion)
  have waiting : t.Waiting port := ⟨settled, by omega⟩
  have item := balanced.waiting_share waiting side .item
  have mutex := balanced.waiting_share waiting side .mutex
  rw [share_of_not_half half, idle] at item mutex
  funext slot
  cases side <;> cases slot <;>
    simp [Semaphore.free, Phase.share, Semaphore.fresh] at item mutex ⊢ <;>
    omega

end Threads
end Lab3
end CloudComputing
