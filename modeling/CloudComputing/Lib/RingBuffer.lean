import CloudComputing.Lib.Runs
import CloudComputing.Lib.Semaphore

/-!
# Ring buffers between producers and consumers

A ring of slots under a producer-consumer lock, with the index of the next slot
to fill and of the next slot to use.  Any thread puts values in and gets values
out.  An item is copied field by field, and every copy, every change of an
index and every operation on a semaphore is a step of its own.

What has been put in and got out, and the accesses to the slots, are history:
no step depends on them.
-/

namespace CloudComputing
namespace RingBuffer

/-- How an item is copied: `moves` copy one field each, of the first argument
into the second. -/
structure Layout (α : Type*) where
  moves : List (α → α → α)
  complete : ∀ source target,
    moves.foldl (fun target move => move source target) target = source

/-- The two ways to use a buffer. -/
inductive Side
  | put
  | get
  deriving DecidableEq, Repr

/-- The operations in front of the critical section. -/
def Side.entry : Side → Semaphore.Op Unit × Semaphore.Op Unit
  | .put => Semaphore.pGet ()
  | .get => Semaphore.cGet ()

/-- The operations behind the critical section. -/
def Side.leaving : Side → Semaphore.Op Unit × Semaphore.Op Unit
  | .put => Semaphore.pRelease ()
  | .get => Semaphore.cRelease ()

/-- Where a thread is: in front of its two waits, in the critical section with
some fields copied, or in front of its two posts. -/
inductive Point
  | enter
  | lock
  | inside (copied : Nat)
  | unlock
  | leave
  deriving DecidableEq, Repr

/-- What a thread does with the buffer.  The item of a producer is what it puts
in, that of a consumer its own copy. -/
inductive Phase (α : Type*)
  | idle (result : Option α)
  | active (side : Side) (point : Point) (item : α)
  deriving DecidableEq, Repr

/-- An access to a field of a slot: a producer writes, a consumer reads. -/
structure Access where
  side : Side
  slot : Nat
  field : Nat
  deriving DecidableEq, Repr

/-- A buffer, and where its threads are. -/
structure State (T α : Type*) where
  values : Semaphore.Values Unit
  slots : Nat → α
  fill : Nat
  use : Nat
  phase : T → Phase α
  /-- The items that have been put in. -/
  put : List α
  /-- The items that have been got out. -/
  taken : List α
  accesses : List Access

/-- A buffer of `len` slots with anything in them. -/
def State.init (T : Type*) {α : Type*} (len : Nat) (slots : Nat → α) :
    State T α where
  values := fun _ => Semaphore.fresh len
  slots := slots
  fill := 0
  use := 0
  phase := fun _ => .idle none
  put := []
  taken := []
  accesses := []

/-- A thread begins to use the buffer, or goes on. -/
inductive Event (T α : Type*)
  | start (thread : T) (side : Side) (item : α)
  | next (thread : T)
  deriving DecidableEq, Repr

variable {T α : Type*} [DecidableEq T]

namespace State

/-- The thread gets to another phase. -/
def go (s : State T α) (thread : T) (phase : Phase α) : State T α :=
  { s with phase := Function.update s.phase thread phase }

/-- The thread executes an operation on a semaphore. -/
def operate
    (s : State T α)
    (thread : T)
    (op : Semaphore.Op Unit)
    (phase : Phase α) : Option (State T α) :=
  (op.apply s.values).map fun values =>
    { s.go thread phase with values := values }

/-- A producer writes a field of the slot to fill. -/
def write
    (s : State T α)
    (thread : T)
    (copied : Nat)
    (move : α → α → α)
    (item : α) : State T α :=
  { s.go thread (.active .put (.inside (copied + 1)) item) with
    slots := Function.update s.slots s.fill (move item (s.slots s.fill))
    accesses := s.accesses ++ [⟨.put, s.fill, copied⟩] }

/-- A consumer reads a field of the slot to use. -/
def read
    (s : State T α)
    (thread : T)
    (copied : Nat)
    (move : α → α → α)
    (item : α) : State T α :=
  { s.go thread
      (.active .get (.inside (copied + 1)) (move (s.slots s.use) item)) with
    accesses := s.accesses ++ [⟨.get, s.use, copied⟩] }

/-- A producer moves the index of the slot to fill. -/
def advanceFill
    (s : State T α)
    (len : Nat)
    (thread : T)
    (item : α) : State T α :=
  { s.go thread (.active .put .unlock item) with
    fill := (s.fill + 1) % len
    put := s.put ++ [item] }

/-- A consumer moves the index of the slot to use. -/
def advanceUse
    (s : State T α)
    (len : Nat)
    (thread : T)
    (item : α) : State T α :=
  { s.go thread (.active .get .unlock item) with
    use := (s.use + 1) % len
    taken := s.taken ++ [item] }

/-- What a thread is left with. -/
def result : Side → α → Option α
  | .put, _ => none
  | .get, item => some item

/-- The next step of a thread that uses the buffer. -/
def next
    (layout : Layout α)
    (len : Nat)
    (s : State T α)
    (thread : T) : Option (State T α) :=
  match s.phase thread with
  | .idle _ => none
  | .active side .enter item =>
      s.operate thread side.entry.1 (.active side .lock item)
  | .active side .lock item =>
      s.operate thread side.entry.2 (.active side (.inside 0) item)
  | .active .put (.inside copied) item =>
      match layout.moves[copied]? with
      | some move => some (s.write thread copied move item)
      | none => some (s.advanceFill len thread item)
  | .active .get (.inside copied) item =>
      match layout.moves[copied]? with
      | some move => some (s.read thread copied move item)
      | none => some (s.advanceUse len thread item)
  | .active side .unlock item =>
      s.operate thread side.leaving.1 (.active side .leave item)
  | .active side .leave item =>
      s.operate thread side.leaving.2 (.idle (result side item))

/-- A thread that does not use the buffer begins to. -/
def start
    (s : State T α)
    (thread : T)
    (side : Side)
    (item : α) : Option (State T α) :=
  match s.phase thread with
  | .idle _ => some (s.go thread (.active side .enter item))
  | .active _ _ _ => none

/-- One step of a thread. -/
def step (layout : Layout α) (len : Nat) (s : State T α) :
    Event T α → Option (State T α)
  | .start thread side item => s.start thread side item
  | .next thread => s.next layout len thread

section Phases

variable (s : State T α) (thread : T)

@[simp] theorem go_phase (phase : Phase α) :
    (s.go thread phase).phase = Function.update s.phase thread phase := rfl

@[simp] theorem write_phase (copied : Nat) (move : α → α → α) (item : α) :
    (s.write thread copied move item).phase =
      Function.update s.phase thread
        (.active .put (.inside (copied + 1)) item) := rfl

@[simp] theorem read_phase (copied : Nat) (move : α → α → α) (item : α) :
    (s.read thread copied move item).phase =
      Function.update s.phase thread
        (.active .get (.inside (copied + 1)) (move (s.slots s.use) item)) :=
  rfl

@[simp] theorem advanceFill_phase (len : Nat) (item : α) :
    (s.advanceFill len thread item).phase =
      Function.update s.phase thread (.active .put .unlock item) := rfl

@[simp] theorem advanceUse_phase (len : Nat) (item : α) :
    (s.advanceUse len thread item).phase =
      Function.update s.phase thread (.active .get .unlock item) := rfl

end Phases

end State

/-! ## Sequences of accesses -/

/-- The accesses to a field, `writes` of them written to the slots one after
the other, and `reads` of these read in the same order. -/
inductive Legal (len field : Nat) : Nat → Nat → List Access → Prop
  | nil : Legal len field 0 0 []
  | other
      {writes reads : Nat}
      {accesses : List Access}
      {access : Access}
      (before : Legal len field writes reads accesses)
      (differs : access.field ≠ field) :
      Legal len field writes reads (accesses ++ [access])
  | write
      {writes reads : Nat}
      {accesses : List Access}
      (before : Legal len field writes reads accesses)
      (room : writes < reads + len) :
      Legal len field (writes + 1) reads
        (accesses ++ [⟨.put, writes % len, field⟩])
  | read
      {writes reads : Nat}
      {accesses : List Access}
      (before : Legal len field writes reads accesses)
      (written : reads < writes) :
      Legal len field writes (reads + 1)
        (accesses ++ [⟨.get, reads % len, field⟩])

/-- The accesses to one field of one slot. -/
def accessesAt (slot field : Nat) (accesses : List Access) : List Side :=
  (accesses.filter fun access =>
    access.slot = slot ∧ access.field = field).map Access.side

/-- Writes and reads in turn, a write first. -/
def Alternates (sides : List Side) : Prop :=
  ∀ index side, sides[index]? = some side → (side = .put ↔ index % 2 = 0)

theorem Alternates.nil : Alternates [] := by
  intro index side found
  cases found

theorem Alternates.append
    {sides : List Side}
    {side : Side}
    (alternates : Alternates sides)
    (turn : side = .put ↔ sides.length % 2 = 0) :
    Alternates (sides ++ [side]) := by
  intro index other found
  by_cases before : index < sides.length
  · rw [List.getElem?_append_left before] at found
    exact alternates index other found
  · rw [List.getElem?_append_right (by omega)] at found
    have last : index - sides.length = 0 := by
      by_contra beyond
      rw [List.getElem?_eq_none (by simp; omega)] at found
      cases found
    rw [last] at found
    obtain rfl : side = other := Option.some.inj found
    rw [turn, show index = sides.length by omega]

theorem accessesAt_append_self
    (accesses : List Access)
    (access : Access) :
    accessesAt access.slot access.field (accesses ++ [access]) =
      accessesAt access.slot access.field accesses ++ [access.side] := by
  simp [accessesAt]

theorem accessesAt_append_of_ne
    (accesses : List Access)
    {access : Access}
    {slot field : Nat}
    (differs : ¬ (access.slot = slot ∧ access.field = field)) :
    accessesAt slot field (accesses ++ [access]) =
      accessesAt slot field accesses := by
  simp [accessesAt, differs]

/-- The item at this slot has been written and not read. -/
def Pending (len writes reads slot : Nat) : Prop :=
  ∃ number, reads ≤ number ∧ number < writes ∧ number % len = slot

theorem not_pending_of_room
    {len writes reads : Nat}
    (room : writes < reads + len) :
    ¬ Pending len writes reads (writes % len) := by
  rintro ⟨number, lower, upper, same⟩
  have multiple : len ∣ writes - number :=
    (Nat.modEq_iff_dvd' upper.le).mp same
  have large := Nat.le_of_dvd (by omega) multiple
  omega

theorem not_pending_of_read
    {len writes reads : Nat}
    (room : writes ≤ reads + len) :
    ¬ Pending len writes (reads + 1) (reads % len) := by
  rintro ⟨number, lower, upper, same⟩
  have multiple : len ∣ number - reads :=
    (Nat.modEq_iff_dvd' (by omega)).mp same.symm
  have large := Nat.le_of_dvd (by omega) multiple
  omega

theorem pending_write_of_ne
    {len writes reads slot : Nat}
    (differs : writes % len ≠ slot) :
    Pending len (writes + 1) reads slot ↔ Pending len writes reads slot := by
  constructor
  · rintro ⟨number, lower, upper, same⟩
    refine ⟨number, lower, ?_, same⟩
    have other : number ≠ writes := by
      rintro rfl
      exact differs same
    omega
  · rintro ⟨number, lower, upper, same⟩
    exact ⟨number, lower, by omega, same⟩

theorem pending_read_of_ne
    {len writes reads slot : Nat}
    (differs : reads % len ≠ slot) :
    Pending len writes (reads + 1) slot ↔ Pending len writes reads slot := by
  constructor
  · rintro ⟨number, lower, upper, same⟩
    exact ⟨number, by omega, upper, same⟩
  · rintro ⟨number, lower, upper, same⟩
    refine ⟨number, ?_, upper, same⟩
    have other : number ≠ reads := by
      rintro rfl
      exact differs same
    omega

theorem Legal.bounds
    {len field writes reads : Nat}
    {accesses : List Access}
    (legal : Legal len field writes reads accesses) :
    reads ≤ writes ∧ writes ≤ reads + len := by
  induction legal with
  | nil => omega
  | other _ _ inductionHypothesis => exact inductionHypothesis
  | write _ room inductionHypothesis => omega
  | read _ written inductionHypothesis => omega

/-- Each slot is written and read in turn; a write comes last exactly if its
item has still to be read. -/
theorem Legal.alternates
    {len field writes reads : Nat}
    {accesses : List Access}
    (legal : Legal len field writes reads accesses)
    (slot : Nat) :
    Alternates (accessesAt slot field accesses) ∧
      ((accessesAt slot field accesses).length % 2 = 1 ↔
        Pending len writes reads slot) := by
  induction legal with
  | nil =>
      refine ⟨Alternates.nil, ?_⟩
      constructor
      · intro odd
        cases odd
      · rintro ⟨number, _, upper, _⟩
        omega
  | @other writes reads accesses access before differs inductionHypothesis =>
      rw [accessesAt_append_of_ne accesses fun same => differs same.2]
      exact inductionHypothesis
  | @write writes reads accesses before room inductionHypothesis =>
      obtain ⟨alternates, parity⟩ := inductionHypothesis
      by_cases same : writes % len = slot
      · subst same
        have free := mt parity.mp (not_pending_of_room room)
        have grown := accessesAt_append_self accesses
          ⟨.put, writes % len, field⟩
        dsimp only at grown
        rw [grown]
        constructor
        · apply alternates.append
          simp only [true_iff]
          omega
        · rw [List.length_append, List.length_singleton]
          constructor
          · intro _
            exact ⟨writes, before.bounds.1, by omega, rfl⟩
          · intro _
            omega
      · rw [accessesAt_append_of_ne accesses fun equal => same equal.1,
          pending_write_of_ne same]
        exact ⟨alternates, parity⟩
  | @read writes reads accesses before written inductionHypothesis =>
      obtain ⟨alternates, parity⟩ := inductionHypothesis
      by_cases same : reads % len = slot
      · subst same
        have pending := parity.mpr ⟨reads, le_refl reads, written, rfl⟩
        have grown := accessesAt_append_self accesses
          ⟨.get, reads % len, field⟩
        dsimp only at grown
        rw [grown]
        constructor
        · apply alternates.append
          simp only [reduceCtorEq, false_iff]
          omega
        · rw [List.length_append, List.length_singleton]
          constructor
          · intro odd
            omega
          · intro later
            exact absurd later (not_pending_of_read before.bounds.2)
      · rw [accessesAt_append_of_ne accesses fun equal => same equal.1,
          pending_read_of_ne same]
        exact ⟨alternates, parity⟩

/-! ## What a step does -/

/-- An operation on a semaphore that is the next step of a thread, and the
phase that follows. -/
inductive Operation : Phase α → Semaphore.Op Unit → Phase α → Prop
  | enter (side : Side) (item : α) :
      Operation (.active side .enter item) side.entry.1
        (.active side .lock item)
  | lock (side : Side) (item : α) :
      Operation (.active side .lock item) side.entry.2
        (.active side (.inside 0) item)
  | unlock (side : Side) (item : α) :
      Operation (.active side .unlock item) side.leaving.1
        (.active side .leave item)
  | leave (side : Side) (item : α) :
      Operation (.active side .leave item) side.leaving.2
        (.idle (State.result side item))

/-- What the next step of a thread that uses the buffer can do. -/
inductive Moved
    (layout : Layout α)
    (len : Nat)
    (s : State T α)
    (thread : T) : State T α → Prop
  | operate
      {op : Semaphore.Op Unit}
      {phase : Phase α}
      {values : Semaphore.Values Unit}
      (operation : Operation (s.phase thread) op phase)
      (applied : op.apply s.values = some values) :
      Moved layout len s thread { s.go thread phase with values := values }
  | write
      {copied : Nat}
      {item : α}
      {move : α → α → α}
      (found : s.phase thread = .active .put (.inside copied) item)
      (listed : layout.moves[copied]? = some move) :
      Moved layout len s thread (s.write thread copied move item)
  | advanceFill
      {copied : Nat}
      {item : α}
      (found : s.phase thread = .active .put (.inside copied) item)
      (complete : layout.moves[copied]? = none) :
      Moved layout len s thread (s.advanceFill len thread item)
  | read
      {copied : Nat}
      {item : α}
      {move : α → α → α}
      (found : s.phase thread = .active .get (.inside copied) item)
      (listed : layout.moves[copied]? = some move) :
      Moved layout len s thread (s.read thread copied move item)
  | advanceUse
      {copied : Nat}
      {item : α}
      (found : s.phase thread = .active .get (.inside copied) item)
      (complete : layout.moves[copied]? = none) :
      Moved layout len s thread (s.advanceUse len thread item)

variable {layout : Layout α} {len : Nat} {s s' : State T α}

theorem moved_of_operate
    {thread : T}
    {op : Semaphore.Op Unit}
    {phase : Phase α}
    (operation : Operation (s.phase thread) op phase)
    (taken : s.operate thread op phase = some s') :
    Moved layout len s thread s' := by
  obtain ⟨values, applied, rfl⟩ := Option.map_eq_some_iff.mp taken
  exact .operate operation applied

theorem moved_of_next
    {thread : T}
    (taken : s.next layout len thread = some s') :
    Moved layout len s thread s' := by
  unfold State.next at taken
  split at taken
  · cases taken
  · rename_i side item found
    exact moved_of_operate (found ▸ .enter side item) taken
  · rename_i side item found
    exact moved_of_operate (found ▸ .lock side item) taken
  · rename_i copied item found
    split at taken
    · rename_i move listed
      cases taken
      exact .write found listed
    · rename_i complete
      cases taken
      exact .advanceFill found complete
  · rename_i copied item found
    split at taken
    · rename_i move listed
      cases taken
      exact .read found listed
    · rename_i complete
      cases taken
      exact .advanceUse found complete
  · rename_i side item found
    exact moved_of_operate (found ▸ .unlock side item) taken
  · rename_i side item found
    exact moved_of_operate (found ▸ .leave side item) taken

theorem start_eq_some
    {thread : T}
    {side : Side}
    {item : α}
    (taken : s.start thread side item = some s') :
    (∃ result, s.phase thread = .idle result) ∧
      s' = s.go thread (.active side .enter item) := by
  unfold State.start at taken
  split at taken
  · rename_i result found
    cases taken
    exact ⟨⟨result, found⟩, rfl⟩
  · cases taken

/-! ## Permits -/

/-- What a thread holds of a semaphore: the `mutex` in the critical section, and
the permit that it has taken from `empty` or `full` and not yet handed on. -/
def Point.holds : Semaphore.Slot → Side → Point → Nat
  | .mutex, _, .inside _ => 1
  | .mutex, _, .unlock => 1
  | .empty, .put, .lock => 1
  | .empty, .put, .inside _ => 1
  | .empty, .get, .unlock => 1
  | .empty, .get, .leave => 1
  | .full, .get, .lock => 1
  | .full, .get, .inside _ => 1
  | .full, .put, .unlock => 1
  | .full, .put, .leave => 1
  | _, _, _ => 0

/-- The thread has copied this field and not yet moved the index. -/
def Point.copied (side : Side) (field : Nat) : Side → Point → Nat
  | side', .inside copied => if side' = side ∧ field < copied then 1 else 0
  | _, _ => 0

/-- A number that depends on the phase, zero for a thread that does not use the
buffer. -/
def Phase.weight (weight : Side → Point → Nat) : Phase α → Nat
  | .idle _ => 0
  | .active side point _ => weight side point

@[simp] theorem Phase.weight_active
    (weight : Side → Point → Nat)
    (side : Side)
    (point : Point)
    (item : α) :
    (Phase.active side point item).weight weight = weight side point := rfl

/-- The operations on the semaphores take and give the permits. -/
theorem Operation.balance
    {phase phase' : Phase α}
    {op : Semaphore.Op Unit}
    (operation : Operation phase op phase')
    (slot : Semaphore.Slot) :
    phase'.weight (Point.holds slot) + op.gives () slot =
      phase.weight (Point.holds slot) + op.takes () slot := by
  cases operation with
  | enter side item => cases side <;> cases slot <;> rfl
  | lock side item => cases side <;> cases slot <;> rfl
  | unlock side item => cases side <;> cases slot <;> rfl
  | leave side item => cases side <;> cases slot <;> rfl

/-- No field is copied while a thread operates on a semaphore. -/
theorem Operation.copied
    {phase phase' : Phase α}
    {op : Semaphore.Op Unit}
    (operation : Operation phase op phase')
    (side : Side)
    (field : Nat) :
    phase'.weight (Point.copied side field) =
      phase.weight (Point.copied side field) := by
  cases operation with
  | enter side' item => rfl
  | lock side' item =>
      rw [Phase.weight_active, Phase.weight_active, Point.copied, if_neg]
      · rfl
      · rintro ⟨_, below⟩
        exact absurd below (Nat.not_lt_zero field)
  | unlock side' item => rfl
  | leave side' item => rfl

variable [Fintype T]

/-- The sum of the weights of all threads. -/
def total (phases : T → Phase α) (weight : Side → Point → Nat) : Nat :=
  ∑ thread, (phases thread).weight weight

/-- A step of one thread changes a sum by its own part. -/
theorem total_update
    (phases : T → Phase α)
    (thread : T)
    (phase : Phase α)
    (weight : Side → Point → Nat) :
    total (Function.update phases thread phase) weight +
        (phases thread).weight weight =
      total phases weight + phase.weight weight := by
  unfold total
  rw [← Finset.add_sum_erase Finset.univ _ (Finset.mem_univ thread),
    ← Finset.add_sum_erase Finset.univ
      (fun thread => (phases thread).weight weight) (Finset.mem_univ thread)]
  have others : ∑ other ∈ Finset.univ.erase thread,
      (Function.update phases thread phase other).weight weight =
        ∑ other ∈ Finset.univ.erase thread, (phases other).weight weight := by
    apply Finset.sum_congr rfl
    intro other member
    rw [Function.update_of_ne (Finset.ne_of_mem_erase member)]
  rw [others, Function.update_self]
  omega

omit [DecidableEq T] in
theorem le_total
    (phases : T → Phase α)
    (thread : T)
    (weight : Side → Point → Nat) :
    (phases thread).weight weight ≤ total phases weight :=
  Finset.single_le_sum (f := fun thread => (phases thread).weight weight)
    (fun _ _ => Nat.zero_le _) (Finset.mem_univ thread)

/-- Two threads do not have more than all of them. -/
theorem add_le_total
    (phases : T → Phase α)
    {thread other : T}
    (differs : other ≠ thread)
    (weight : Side → Point → Nat) :
    (phases thread).weight weight + (phases other).weight weight ≤
      total phases weight := by
  unfold total
  rw [← Finset.add_sum_erase Finset.univ _ (Finset.mem_univ thread)]
  exact Nat.add_le_add_left (Finset.single_le_sum
    (f := fun thread => (phases thread).weight weight)
    (fun _ _ => Nat.zero_le _)
    (Finset.mem_erase.mpr ⟨differs, Finset.mem_univ other⟩)) _

/-! ## The invariant -/

/-- What holds in every state of a buffer of `len` slots. -/
structure Inv (layout : Layout α) (len : Nat) (s : State T α) : Prop where
  mutex : s.values () .mutex + total s.phase (Point.holds .mutex) = 1
  empty : s.values () .empty + total s.phase (Point.holds .empty) +
    s.put.length = len + s.taken.length
  full : s.values () .full + total s.phase (Point.holds .full) +
    s.taken.length = s.put.length
  fill : s.fill = s.put.length % len
  use : s.use = s.taken.length % len
  inOrder : s.taken <+: s.put
  slots : ∀ number, s.taken.length ≤ number → number < s.put.length →
    s.put[number]? = some (s.slots (number % len))
  writing : ∀ thread copied item,
    s.phase thread = .active .put (.inside copied) item →
      (layout.moves.drop copied).foldl (fun target move => move item target)
        (s.slots s.fill) = item
  reading : ∀ thread copied item,
    s.phase thread = .active .get (.inside copied) item →
      (layout.moves.drop copied).foldl
        (fun target move => move (s.slots s.use) target) item = s.slots s.use
  legal : ∀ field, field < layout.moves.length →
    Legal len field
      (s.put.length + total s.phase (Point.copied .put field))
      (s.taken.length + total s.phase (Point.copied .get field)) s.accesses

omit [DecidableEq T] in
theorem total_idle (weight : Side → Point → Nat) :
    total (fun _ : T => (Phase.idle none : Phase α)) weight = 0 :=
  Finset.sum_const_zero

omit [DecidableEq T] in
theorem Inv.init
    (layout : Layout α)
    (len : Nat)
    (slots : Nat → α) :
    Inv layout len (State.init T len slots) where
  mutex := by
    rw [State.init, total_idle]
    rfl
  empty := by
    rw [State.init, total_idle]
    rfl
  full := by
    rw [State.init, total_idle]
    rfl
  fill := (Nat.zero_mod len).symm
  use := (Nat.zero_mod len).symm
  inOrder := List.prefix_refl []
  slots := by
    intro number _ below
    exact absurd below (Nat.not_lt_zero number)
  writing := by
    intro thread copied item found
    cases found
  reading := by
    intro thread copied item found
    cases found
  legal := by
    intro field _
    rw [State.init, total_idle, total_idle]
    exact .nil

/-- One thread at most is in the critical section. -/
theorem Inv.exclusive
    (inv : Inv layout len s)
    {thread other : T}
    (inside : (s.phase thread).weight (Point.holds .mutex) = 1)
    (differs : other ≠ thread) :
    (s.phase other).weight (Point.holds .mutex) = 0 := by
  have both := add_le_total s.phase differs (Point.holds .mutex)
  have bound := inv.mutex
  omega

theorem Inv.not_inside
    (inv : Inv layout len s)
    {thread other : T}
    (inside : (s.phase thread).weight (Point.holds .mutex) = 1)
    (differs : other ≠ thread)
    {side : Side}
    {copied : Nat}
    {item : α}
    (found : s.phase other = .active side (.inside copied) item) :
    False := by
  have zero := inv.exclusive inside differs
  rw [found] at zero
  cases side <;> cases zero

/-- While a thread is in the critical section, nobody else gets into it. -/
theorem Inv.only_inside
    (inv : Inv layout len s)
    {thread other : T}
    (inside : (s.phase thread).weight (Point.holds .mutex) = 1)
    {phase : Phase α}
    {side : Side}
    {copied : Nat}
    {item : α}
    (found : Function.update s.phase thread phase other =
      .active side (.inside copied) item) :
    phase = .active side (.inside copied) item := by
  by_cases same : other = thread
  · rw [same, Function.update_self] at found
    exact found
  · rw [Function.update_of_ne same] at found
    exact (inv.not_inside inside same found).elim

/-- Nobody has copied a field but the thread in the critical section. -/
theorem Inv.total_copied
    (inv : Inv layout len s)
    {thread : T}
    (inside : (s.phase thread).weight (Point.holds .mutex) = 1)
    (side : Side)
    (field : Nat) :
    total s.phase (Point.copied side field) =
      (s.phase thread).weight (Point.copied side field) := by
  unfold total
  refine Finset.sum_eq_single thread ?_ ?_
  · intro other _ differs
    have outside := inv.exclusive inside differs
    cases found : s.phase other with
    | idle result => rfl
    | active side' point item =>
        cases point with
        | inside copied =>
            exact (inv.not_inside inside differs found).elim
        | enter => rfl
        | lock => rfl
        | unlock => rfl
        | leave => rfl
  · intro absent
    exact absurd (Finset.mem_univ thread) absent

theorem total_same
    (phases : T → Phase α)
    {thread : T}
    {phase : Phase α}
    {weight : Side → Point → Nat}
    (same : phase.weight weight = (phases thread).weight weight) :
    total (Function.update phases thread phase) weight =
      total phases weight := by
  have changed := total_update phases thread phase weight
  omega

/-- A step that leaves the slots alone, and after which the thread has copied
what it had copied before. -/
theorem Inv.relabel
    (inv : Inv layout len s)
    {thread : T}
    {phase : Phase α}
    {values : Semaphore.Values Unit}
    (balance : ∀ slot,
      values () slot + phase.weight (Point.holds slot) =
        s.values () slot + (s.phase thread).weight (Point.holds slot))
    (copied : ∀ side field, phase.weight (Point.copied side field) =
      (s.phase thread).weight (Point.copied side field))
    (beginning : ∀ side copied item,
      phase = .active side (.inside copied) item → copied = 0) :
    Inv layout len { s.go thread phase with values := values } where
  mutex := by
    have changed := total_update s.phase thread phase (Point.holds .mutex)
    have bound := inv.mutex
    have own := balance .mutex
    change values () .mutex +
      total (Function.update s.phase thread phase) (Point.holds .mutex) = 1
    omega
  empty := by
    have changed := total_update s.phase thread phase (Point.holds .empty)
    have bound := inv.empty
    have own := balance .empty
    change values () .empty +
      total (Function.update s.phase thread phase) (Point.holds .empty) +
        s.put.length = len + s.taken.length
    omega
  full := by
    have changed := total_update s.phase thread phase (Point.holds .full)
    have bound := inv.full
    have own := balance .full
    change values () .full +
      total (Function.update s.phase thread phase) (Point.holds .full) +
        s.taken.length = s.put.length
    omega
  fill := inv.fill
  use := inv.use
  inOrder := inv.inOrder
  slots := inv.slots
  writing := by
    intro other done item found
    change Function.update s.phase thread phase other = _ at found
    by_cases same : other = thread
    · subst same
      rw [Function.update_self] at found
      rw [beginning _ done item found, List.drop_zero]
      exact layout.complete item _
    · rw [Function.update_of_ne same] at found
      exact inv.writing other done item found
  reading := by
    intro other done item found
    change Function.update s.phase thread phase other = _ at found
    by_cases same : other = thread
    · subst same
      rw [Function.update_self] at found
      rw [beginning _ done item found, List.drop_zero]
      exact layout.complete _ item
    · rw [Function.update_of_ne same] at found
      exact inv.reading other done item found
  legal := by
    intro field below
    have legal := inv.legal field below
    rw [← total_same s.phase (copied .put field),
      ← total_same s.phase (copied .get field)] at legal
    exact legal

theorem Operation.beginning
    {phase phase' : Phase α}
    {op : Semaphore.Op Unit}
    (operation : Operation phase op phase')
    (side : Side)
    (copied : Nat)
    (item : α)
    (found : phase' = .active side (.inside copied) item) :
    copied = 0 := by
  cases operation with
  | enter side' item' => cases found
  | lock side' item' =>
      cases found
      rfl
  | unlock side' item' => cases found
  | leave side' item' => cases found

theorem Inv.operate
    (inv : Inv layout len s)
    {thread : T}
    {op : Semaphore.Op Unit}
    {phase : Phase α}
    {values : Semaphore.Values Unit}
    (operation : Operation (s.phase thread) op phase)
    (applied : op.apply s.values = some values) :
    Inv layout len { s.go thread phase with values := values } := by
  refine inv.relabel ?_ operation.copied operation.beginning
  intro slot
  have values := Semaphore.Op.balance applied () slot
  have permits := operation.balance slot
  omega

theorem Inv.start
    (inv : Inv layout len s)
    {thread : T}
    {result : Option α}
    (found : s.phase thread = .idle result)
    (side : Side)
    (item : α) :
    Inv layout len (s.go thread (.active side .enter item)) := by
  have balance : ∀ slot, s.values () slot +
      (Phase.active side .enter item).weight (Point.holds slot) =
        s.values () slot + (s.phase thread).weight (Point.holds slot) := by
    intro slot
    rw [found]
    cases side <;> cases slot <;> rfl
  apply inv.relabel balance
  · intro side' field
    rw [found]
    rfl
  · intro side' copied item' inside
    cases inside

/-! ## The critical section -/

omit [DecidableEq T] [Fintype T] in
theorem inside_holds
    {thread : T}
    {side : Side}
    {copied : Nat}
    {item : α}
    (found : s.phase thread = .active side (.inside copied) item) :
    (s.phase thread).weight (Point.holds .mutex) = 1 := by
  rw [found]
  cases side <;> rfl

omit [DecidableEq T] in
/-- A producer in front of the index has a slot to fill. -/
theorem Inv.room
    (inv : Inv layout len s)
    {thread : T}
    {copied : Nat}
    {item : α}
    (found : s.phase thread = .active .put (.inside copied) item) :
    s.put.length < s.taken.length + len := by
  have permit := le_total s.phase thread (Point.holds .empty)
  rw [found] at permit
  change 1 ≤ _ at permit
  have bound := inv.empty
  omega

omit [DecidableEq T] in
/-- A consumer in front of the index has a slot to use. -/
theorem Inv.available
    (inv : Inv layout len s)
    {thread : T}
    {copied : Nat}
    {item : α}
    (found : s.phase thread = .active .get (.inside copied) item) :
    s.taken.length < s.put.length := by
  have permit := le_total s.phase thread (Point.holds .full)
  rw [found] at permit
  change 1 ≤ _ at permit
  have bound := inv.full
  omega

theorem drop_of_listed
    {moves : List (α → α → α)}
    {copied : Nat}
    {move : α → α → α}
    (listed : moves[copied]? = some move) :
    moves.drop copied = move :: moves.drop (copied + 1) := by
  obtain ⟨below, rfl⟩ := List.getElem?_eq_some_iff.mp listed
  exact List.drop_eq_getElem_cons below

/-- The field that is copied now. -/
theorem copied_succ
    (side : Side)
    (copied field : Nat)
    (item item' : α) :
    (Phase.active side (.inside (copied + 1)) item').weight
        (Point.copied side field) =
      (Phase.active side (.inside copied) item).weight
        (Point.copied side field) + if field = copied then 1 else 0 := by
  simp only [Phase.weight_active, Point.copied, true_and]
  split_ifs <;> omega

theorem copied_other
    {side side' : Side}
    (differs : side ≠ side')
    (point : Point)
    (field : Nat)
    (item : α) :
    (Phase.active side point item).weight (Point.copied side' field) = 0 := by
  cases point with
  | inside copied => exact if_neg fun both => differs both.1
  | enter => rfl
  | lock => rfl
  | unlock => rfl
  | leave => rfl

/-- The slot that a thread in the critical section accesses. -/
def State.current (s : State T α) : Side → Nat
  | .put => s.fill
  | .get => s.use

/-- Copying a field is no operation on a semaphore. -/
theorem holds_copied
    {thread : T}
    {side : Side}
    {copied : Nat}
    {item : α}
    (found : s.phase thread = .active side (.inside copied) item)
    (item' : α)
    (slot : Semaphore.Slot) :
    total (Function.update s.phase thread
        (.active side (.inside (copied + 1)) item')) (Point.holds slot) =
      total s.phase (Point.holds slot) := by
  apply total_same
  rw [found]
  cases side <;> cases slot <;> rfl

/-- Copying a field is the access whose turn it is. -/
theorem Inv.legal_copied
    (inv : Inv layout len s)
    {thread : T}
    {side : Side}
    {copied : Nat}
    {item : α}
    (found : s.phase thread = .active side (.inside copied) item)
    (item' : α)
    {field : Nat}
    (below : field < layout.moves.length) :
    Legal len field
      (s.put.length + total (Function.update s.phase thread
        (.active side (.inside (copied + 1)) item')) (Point.copied .put field))
      (s.taken.length + total (Function.update s.phase thread
        (.active side (.inside (copied + 1)) item')) (Point.copied .get field))
      (s.accesses ++ [⟨side, s.current side, copied⟩]) := by
  have legal := inv.legal field below
  have changed := total_update s.phase thread
    (.active side (.inside (copied + 1)) item') (Point.copied side field)
  rw [copied_succ side copied field item, ← found] at changed
  have kept : ∀ side', side ≠ side' →
      total (Function.update s.phase thread
        (.active side (.inside (copied + 1)) item')) (Point.copied side' field) =
      total s.phase (Point.copied side' field) := by
    intro side' differs
    apply total_same
    rw [found, copied_other differs, copied_other differs]
  have nothing : ∀ side', side ≠ side' →
      total s.phase (Point.copied side' field) = 0 := by
    intro side' differs
    rw [inv.total_copied (inside_holds found), found, copied_other differs]
  by_cases now : field = copied
  · subst now
    have zero : total s.phase (Point.copied side field) = 0 := by
      rw [inv.total_copied (inside_holds found), found]
      exact if_neg fun both => lt_irrefl field both.2
    rw [if_pos rfl] at changed
    have one : total (Function.update s.phase thread
        (.active side (.inside (field + 1)) item'))
          (Point.copied side field) = 1 := by
      omega
    cases side with
    | put =>
        rw [zero, nothing .get (by decide)] at legal
        rw [one, kept .get (by decide), nothing .get (by decide)]
        have slot : (s.put.length + 0) % len = s.fill := inv.fill.symm
        have grown := legal.write (inv.room found)
        rw [slot] at grown
        exact grown
    | get =>
        rw [zero, nothing .put (by decide)] at legal
        rw [one, kept .put (by decide), nothing .put (by decide)]
        have slot : (s.taken.length + 0) % len = s.use := inv.use.symm
        have grown := legal.read (inv.available found)
        rw [slot] at grown
        exact grown
  · have same : ∀ side', total (Function.update s.phase thread
        (.active side (.inside (copied + 1)) item')) (Point.copied side' field) =
        total s.phase (Point.copied side' field) := by
      intro side'
      by_cases equal : side = side'
      · subst equal
        rw [if_neg now] at changed
        omega
      · exact kept side' equal
    rw [same, same]
    exact legal.other (Ne.symm now)

theorem Inv.write
    (inv : Inv layout len s)
    {thread : T}
    {copied : Nat}
    {item : α}
    {move : α → α → α}
    (found : s.phase thread = .active .put (.inside copied) item)
    (listed : layout.moves[copied]? = some move) :
    Inv layout len (s.write thread copied move item) where
  mutex := by
    have bound := inv.mutex
    rw [← holds_copied found item .mutex] at bound
    exact bound
  empty := by
    have bound := inv.empty
    rw [← holds_copied found item .empty] at bound
    exact bound
  full := by
    have bound := inv.full
    rw [← holds_copied found item .full] at bound
    exact bound
  fill := inv.fill
  use := inv.use
  inOrder := inv.inOrder
  slots := by
    intro number lower upper
    have other : number % len ≠ s.fill := by
      intro same
      rw [inv.fill] at same
      exact not_pending_of_room (inv.room found) ⟨number, lower, upper, same⟩
    have kept := inv.slots number lower upper
    change s.put[number]? =
      some (Function.update s.slots s.fill _ (number % len))
    rw [Function.update_of_ne other]
    exact kept
  writing := by
    intro other done item' foundOther
    cases inv.only_inside (inside_holds found) foundOther
    have rest := inv.writing thread copied item found
    rw [drop_of_listed listed, List.foldl_cons] at rest
    change List.foldl _ (Function.update s.slots s.fill _ s.fill) _ = _
    rw [Function.update_self]
    exact rest
  reading := by
    intro other done item' foundOther
    cases inv.only_inside (inside_holds found) foundOther
  legal := by
    intro field below
    exact inv.legal_copied found item below

theorem Inv.read
    (inv : Inv layout len s)
    {thread : T}
    {copied : Nat}
    {item : α}
    {move : α → α → α}
    (found : s.phase thread = .active .get (.inside copied) item)
    (listed : layout.moves[copied]? = some move) :
    Inv layout len (s.read thread copied move item) where
  mutex := by
    have bound := inv.mutex
    rw [← holds_copied found (move (s.slots s.use) item) .mutex] at bound
    exact bound
  empty := by
    have bound := inv.empty
    rw [← holds_copied found (move (s.slots s.use) item) .empty] at bound
    exact bound
  full := by
    have bound := inv.full
    rw [← holds_copied found (move (s.slots s.use) item) .full] at bound
    exact bound
  fill := inv.fill
  use := inv.use
  inOrder := inv.inOrder
  slots := inv.slots
  writing := by
    intro other done item' foundOther
    cases inv.only_inside (inside_holds found) foundOther
  reading := by
    intro other done item' foundOther
    cases inv.only_inside (inside_holds found) foundOther
    have rest := inv.reading thread copied item found
    rw [drop_of_listed listed, List.foldl_cons] at rest
    exact rest
  legal := by
    intro field below
    exact inv.legal_copied found _ below

/-! ## The indices -/

/-- Behind its copies a thread has copied every field. -/
theorem copied_complete
    {moves : List (α → α → α)}
    {copied field : Nat}
    (complete : moves[copied]? = none)
    (below : field < moves.length)
    (side : Side)
    (item : α) :
    (Phase.active side (.inside copied) item).weight
      (Point.copied side field) = 1 := by
  have length := List.getElem?_eq_none_iff.mp complete
  exact if_pos ⟨rfl, by omega⟩

/-- A thread that moves the index has no copied field any more. -/
theorem copied_advance
    {phases : T → Phase α}
    {thread : T}
    {moves : List (α → α → α)}
    {side : Side}
    {copied field : Nat}
    {item : α}
    (found : phases thread = .active side (.inside copied) item)
    (complete : moves[copied]? = none)
    (below : field < moves.length)
    (side' : Side) :
    total (Function.update phases thread (.active side .unlock item))
        (Point.copied side' field) + (if side = side' then 1 else 0) =
      total phases (Point.copied side' field) := by
  have changed := total_update phases thread (.active side .unlock item)
    (Point.copied side' field)
  rw [found] at changed
  have own : (Phase.active side .unlock item).weight
      (Point.copied side' field) = 0 := rfl
  split
  case isTrue same =>
    subst same
    have one := copied_complete complete below side item
    omega
  case isFalse differs =>
    have none := copied_other differs (.inside copied) field item
    omega

theorem drop_of_complete
    {moves : List (α → α → α)}
    {copied : Nat}
    (complete : moves[copied]? = none) :
    moves.drop copied = [] :=
  List.drop_eq_nil_of_le (List.getElem?_eq_none_iff.mp complete)

theorem Inv.advanceFill
    (inv : Inv layout len s)
    {thread : T}
    {copied : Nat}
    {item : α}
    (found : s.phase thread = .active .put (.inside copied) item)
    (complete : layout.moves[copied]? = none) :
    Inv layout len (s.advanceFill len thread item) := by
  have changed := fun weight => total_update s.phase thread
    (.active .put .unlock item) weight
  simp only [found, Phase.weight_active] at changed
  have written : s.slots s.fill = item := by
    have rest := inv.writing thread copied item found
    rw [drop_of_complete complete] at rest
    exact rest
  have length : (s.put ++ [item]).length = s.put.length + 1 := by simp
  refine
    { mutex := ?_, empty := ?_, full := ?_, fill := ?_, use := inv.use
      inOrder := inv.inOrder.trans (List.prefix_append s.put [item])
      slots := ?_, writing := ?_, reading := ?_, legal := ?_ }
  · have bound := inv.mutex
    have own := changed (Point.holds .mutex)
    simp only [Point.holds] at own
    change s.values () .mutex + total (Function.update s.phase thread _) _ = 1
    omega
  · have bound := inv.empty
    have own := changed (Point.holds .empty)
    simp only [Point.holds] at own
    change s.values () .empty + total (Function.update s.phase thread _) _ +
      (s.put ++ [item]).length = len + s.taken.length
    omega
  · have bound := inv.full
    have own := changed (Point.holds .full)
    simp only [Point.holds] at own
    change s.values () .full + total (Function.update s.phase thread _) _ +
      s.taken.length = (s.put ++ [item]).length
    omega
  · change (s.fill + 1) % len = (s.put ++ [item]).length % len
    rw [length, inv.fill, Nat.mod_add_mod]
  · intro number lower upper
    change (s.put ++ [item])[number]? = some (s.slots (number % len))
    change number < (s.put ++ [item]).length at upper
    by_cases old : number < s.put.length
    · rw [List.getElem?_append_left old]
      exact inv.slots number lower old
    · obtain rfl : number = s.put.length := by omega
      rw [List.getElem?_concat_length, ← inv.fill, written]
  · intro other done item' foundOther
    cases inv.only_inside (inside_holds found) foundOther
  · intro other done item' foundOther
    cases inv.only_inside (inside_holds found) foundOther
  · intro field below
    have writes := copied_advance found complete below .put
    have reads := copied_advance found complete below .get
    rw [if_pos rfl] at writes
    rw [if_neg (by decide), Nat.add_zero] at reads
    change Legal len field ((s.put ++ [item]).length +
      total (Function.update s.phase thread _) _) (s.taken.length +
      total (Function.update s.phase thread _) _) s.accesses
    rw [length, Nat.add_assoc, Nat.add_comm 1, writes, reads]
    exact inv.legal field below

theorem Inv.advanceUse
    (inv : Inv layout len s)
    {thread : T}
    {copied : Nat}
    {item : α}
    (found : s.phase thread = .active .get (.inside copied) item)
    (complete : layout.moves[copied]? = none) :
    Inv layout len (s.advanceUse len thread item) := by
  have changed := fun weight => total_update s.phase thread
    (.active .get .unlock item) weight
  simp only [found, Phase.weight_active] at changed
  have available := inv.available found
  have first : s.put[s.taken.length]? = some item := by
    have rest := inv.reading thread copied item found
    rw [drop_of_complete complete, inv.use] at rest
    rw [inv.slots s.taken.length (le_refl _) available]
    exact congrArg some rest.symm
  have length : (s.taken ++ [item]).length = s.taken.length + 1 := by simp
  refine
    { mutex := ?_, empty := ?_, full := ?_, fill := inv.fill, use := ?_
      inOrder := ?_, slots := ?_, writing := ?_, reading := ?_, legal := ?_ }
  · have bound := inv.mutex
    have own := changed (Point.holds .mutex)
    simp only [Point.holds] at own
    change s.values () .mutex + total (Function.update s.phase thread _) _ = 1
    omega
  · have bound := inv.empty
    have own := changed (Point.holds .empty)
    simp only [Point.holds] at own
    change s.values () .empty + total (Function.update s.phase thread _) _ +
      s.put.length = len + (s.taken ++ [item]).length
    omega
  · have bound := inv.full
    have own := changed (Point.holds .full)
    simp only [Point.holds] at own
    change s.values () .full + total (Function.update s.phase thread _) _ +
      (s.taken ++ [item]).length = s.put.length
    omega
  · change (s.use + 1) % len = (s.taken ++ [item]).length % len
    rw [length, inv.use, Nat.mod_add_mod]
  · change s.taken ++ [item] <+: s.put
    obtain ⟨later, split⟩ := inv.inOrder
    rw [← split, List.getElem?_append_right (le_refl _), Nat.sub_self] at first
    cases later with
    | nil => cases first
    | cons next later =>
        obtain rfl : next = item := Option.some.inj first
        exact ⟨later, by rw [← split, List.append_assoc]; rfl⟩
  · intro number lower upper
    change (s.taken ++ [item]).length ≤ number at lower
    exact inv.slots number (by omega) upper
  · intro other done item' foundOther
    cases inv.only_inside (inside_holds found) foundOther
  · intro other done item' foundOther
    cases inv.only_inside (inside_holds found) foundOther
  · intro field below
    have writes := copied_advance found complete below .put
    have reads := copied_advance found complete below .get
    rw [if_pos rfl] at reads
    rw [if_neg (by decide), Nat.add_zero] at writes
    change Legal len field (s.put.length +
      total (Function.update s.phase thread _) _)
      ((s.taken ++ [item]).length +
        total (Function.update s.phase thread _) _) s.accesses
    rw [length, Nat.add_assoc, Nat.add_comm 1, writes, reads]
    exact inv.legal field below

/-! ## Runs -/

theorem Inv.moved
    (inv : Inv layout len s)
    {thread : T}
    (moved : Moved layout len s thread s') :
    Inv layout len s' := by
  cases moved with
  | operate operation applied => exact inv.operate operation applied
  | write found listed => exact inv.write found listed
  | advanceFill found complete => exact inv.advanceFill found complete
  | read found listed => exact inv.read found listed
  | advanceUse found complete => exact inv.advanceUse found complete

/-- Every step keeps the invariant. -/
theorem Inv.step
    (inv : Inv layout len s)
    {event : Event T α}
    (taken : s.step layout len event = some s') :
    Inv layout len s' := by
  cases event with
  | start thread side item =>
      obtain ⟨⟨result, found⟩, rfl⟩ := start_eq_some taken
      exact inv.start found side item
  | next thread => exact inv.moved (moved_of_next taken)

omit [DecidableEq T] in
/-- Every field of every slot is written and read in turn. -/
theorem Inv.alternates
    (inv : Inv layout len s)
    {field : Nat}
    (below : field < layout.moves.length)
    (slot : Nat) :
    Alternates (accessesAt slot field s.accesses) :=
  ((inv.legal field below).alternates slot).1

/-! ## What the users of a buffer see -/

/-- How the thread uses the buffer. -/
def Phase.user : Phase α → Option Side
  | .idle _ => none
  | .active side _ _ => some side

/-- The item of a producer. -/
def Phase.offering : Phase α → Option α
  | .active .put _ item => some item
  | _ => none

/-- The item that a producer has not yet put in. -/
def Phase.offered : Phase α → Option α
  | .active .put .enter item => some item
  | .active .put .lock item => some item
  | .active .put (.inside _) item => some item
  | _ => none

/-- The item that a consumer has got out. -/
def Phase.acquired : Phase α → Option α
  | .active .get .unlock item => some item
  | .active .get .leave item => some item
  | .active _ _ _ => none
  | .idle result => result

/-- What a step of a thread means to the users of a buffer. -/
inductive Effect (before after : State T α) (thread : T) : Prop
  | quiet
      (put : after.put = before.put)
      (taken : after.taken = before.taken)
      (offered : (after.phase thread).offered = (before.phase thread).offered)
      (acquired : (after.phase thread).acquired =
        (before.phase thread).acquired)
  | put
      (item : α)
      (user : (before.phase thread).user = some .put)
      (put : after.put = before.put ++ [item])
      (taken : after.taken = before.taken)
      (offered : (before.phase thread).offered = some item)
      (nothing : (after.phase thread).offered = none)
      (acquired : (after.phase thread).acquired =
        (before.phase thread).acquired)
  | get
      (item : α)
      (user : (before.phase thread).user = some .get)
      (put : after.put = before.put)
      (taken : after.taken = before.taken ++ [item])
      (offered : (after.phase thread).offered = (before.phase thread).offered)
      (nothing : (before.phase thread).acquired = none)
      (acquired : (after.phase thread).acquired = some item)

theorem Operation.quiet
    {phase phase' : Phase α}
    {op : Semaphore.Op Unit}
    (operation : Operation phase op phase') :
    phase'.offered = phase.offered ∧ phase'.acquired = phase.acquired := by
  cases operation with
  | enter side item => cases side <;> exact ⟨rfl, rfl⟩
  | lock side item => cases side <;> exact ⟨rfl, rfl⟩
  | unlock side item => cases side <;> exact ⟨rfl, rfl⟩
  | leave side item => cases side <;> exact ⟨rfl, rfl⟩

/-- The thread goes on to use the buffer in the same way, or stops. -/
theorem Operation.user
    {phase phase' : Phase α}
    {op : Semaphore.Op Unit}
    (operation : Operation phase op phase') :
    phase.user ≠ none ∧ (phase'.user = phase.user ∨ phase'.user = none) ∧
      (phase'.offering = phase.offering ∨ phase'.offering = none) := by
  cases operation with
  | enter side item => cases side <;> simp [Phase.user, Phase.offering]
  | lock side item => cases side <;> simp [Phase.user, Phase.offering]
  | unlock side item => cases side <;> simp [Phase.user, Phase.offering]
  | leave side item => cases side <;> simp [Phase.user, Phase.offering]

omit [Fintype T] in
theorem Moved.effect
    {thread : T}
    (moved : Moved layout len s thread s') :
    Effect s s' thread := by
  cases moved with
  | @operate op phase values operation applied =>
      obtain ⟨offered, acquired⟩ := operation.quiet
      have after : (s.go thread phase).phase thread = phase := by
        rw [State.go_phase, Function.update_self]
      refine .quiet rfl rfl ?_ ?_
      · rw [← offered]
        exact congrArg Phase.offered after
      · rw [← acquired]
        exact congrArg Phase.acquired after
  | @write copied item move found listed =>
      have after : (s.write thread copied move item).phase thread =
          .active .put (.inside (copied + 1)) item := by
        rw [State.write_phase, Function.update_self]
      refine .quiet rfl rfl ?_ ?_
      · rw [after, found]
        rfl
      · rw [after, found]
        rfl
  | @advanceFill copied item found complete =>
      have after : (s.advanceFill len thread item).phase thread =
          .active .put .unlock item := by
        rw [State.advanceFill_phase, Function.update_self]
      refine .put item ?_ rfl rfl ?_ ?_ ?_
      · rw [found]
        rfl
      · rw [found]
        rfl
      · rw [after]
        rfl
      · rw [after, found]
        rfl
  | @read copied item move found listed =>
      have after : (s.read thread copied move item).phase thread =
          .active .get (.inside (copied + 1)) (move (s.slots s.use) item) := by
        rw [State.read_phase, Function.update_self]
      refine .quiet rfl rfl ?_ ?_
      · rw [after, found]
        rfl
      · rw [after, found]
        rfl
  | @advanceUse copied item found complete =>
      have after : (s.advanceUse len thread item).phase thread =
          .active .get .unlock item := by
        rw [State.advanceUse_phase, Function.update_self]
      refine .get item ?_ rfl rfl ?_ ?_ ?_
      · rw [found]
        rfl
      · rw [after, found]
        rfl
      · rw [found]
        rfl
      · rw [after]
        rfl

omit [Fintype T] in
/-- The other threads stay where they are. -/
theorem Moved.others
    {thread other : T}
    (moved : Moved layout len s thread s')
    (differs : other ≠ thread) :
    s'.phase other = s.phase other := by
  cases moved with
  | operate operation applied => simp [differs]
  | write found listed => simp [differs]
  | advanceFill found complete => simp [differs]
  | read found listed => simp [differs]
  | advanceUse found complete => simp [differs]

omit [Fintype T] in
/-- The thread goes on to use the buffer in the same way, or stops. -/
theorem Moved.user
    {thread : T}
    (moved : Moved layout len s thread s') :
    (s.phase thread).user ≠ none ∧
      ((s'.phase thread).user = (s.phase thread).user ∨
        (s'.phase thread).user = none) ∧
      ((s'.phase thread).offering = (s.phase thread).offering ∨
        (s'.phase thread).offering = none) := by
  cases moved with
  | @operate op phase values operation applied =>
      have after : (s.go thread phase).phase thread = phase := by
        rw [State.go_phase, Function.update_self]
      have user := operation.user
      rw [← after] at user
      exact user
  | write found listed => simp [found, Phase.user, Phase.offering]
  | advanceFill found complete => simp [found, Phase.user, Phase.offering]
  | read found listed => simp [found, Phase.user, Phase.offering]
  | advanceUse found complete => simp [found, Phase.user, Phase.offering]

omit [Fintype T] in
/-- No thread begins to use the buffer when another goes on. -/
theorem Moved.user_of_user
    {thread other : T}
    (moved : Moved layout len s thread s')
    {side : Side}
    (used : (s'.phase other).user = some side) :
    (s.phase other).user = some side := by
  by_cases same : other = thread
  · subst same
    rcases moved.user.2.1 with kept | stopped
    · rw [← kept]
      exact used
    · rw [stopped] at used
      cases used
  · rw [← moved.others same]
    exact used

omit [Fintype T] in
/-- Nor does it begin to offer an item. -/
theorem Moved.offering_of_offering
    {thread other : T}
    (moved : Moved layout len s thread s')
    {item : α}
    (offered : (s'.phase other).offering = some item) :
    (s.phase other).offering = some item := by
  by_cases same : other = thread
  · subst same
    rcases moved.user.2.2 with kept | stopped
    · rw [← kept]
      exact offered
    · rw [stopped] at offered
      cases offered
  · rw [← moved.others same]
    exact offered

omit [Fintype T] in
theorem Moved.user_eq_none
    {thread other : T}
    (moved : Moved layout len s thread s')
    (idle : (s.phase other).user = none) :
    (s'.phase other).user = none := by
  cases used : (s'.phase other).user with
  | none => rfl
  | some side =>
      rw [moved.user_of_user used] at idle
      cases idle

end RingBuffer
end CloudComputing
