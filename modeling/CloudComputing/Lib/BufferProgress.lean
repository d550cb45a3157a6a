import CloudComputing.Lib.RingBuffer

/-!
# Progress in a ring buffer

A thread that uses a buffer has a number of steps in front of it that falls
with each of them, so it is done after finitely many.  When no thread can take
one, they all stand in front of their first wait: the producers because the
buffer is full, the consumers because it is empty.
-/

namespace CloudComputing
namespace RingBuffer

variable {T α : Type*} [DecidableEq T]
  {layout : Layout α} {len : Nat} {s s' : State T α}

/-! ## Steps in front of a thread -/

/-- The steps in front of a thread at this point, for items with so many
fields. -/
def Point.remaining (fields : Nat) : Side → Point → Nat
  | _, .enter => fields + 5
  | _, .lock => fields + 4
  | _, .inside copied => fields - copied + 3
  | _, .unlock => 2
  | _, .leave => 1

/-- A producer that has not yet moved the index. -/
def Point.offers : Side → Point → Nat
  | .put, .enter => 1
  | .put, .lock => 1
  | .put, .inside _ => 1
  | _, _ => 0

/-- An operation on a semaphore is one of the steps. -/
theorem Operation.remaining
    {phase phase' : Phase α}
    {op : Semaphore.Op Unit}
    (operation : Operation phase op phase')
    (fields : Nat) :
    phase'.weight (Point.remaining fields) <
      phase.weight (Point.remaining fields) := by
  cases operation with
  | enter side item => exact Nat.lt_succ_self _
  | lock side item => exact Nat.lt_succ_self _
  | unlock side item => exact Nat.lt_succ_self _
  | leave side item => exact Nat.lt_succ_self _

theorem Operation.offers
    {phase phase' : Phase α}
    {op : Semaphore.Op Unit}
    (operation : Operation phase op phase') :
    phase'.weight Point.offers = phase.weight Point.offers := by
  cases operation with
  | enter side item => cases side <;> rfl
  | lock side item => cases side <;> rfl
  | unlock side item => cases side <;> rfl
  | leave side item => cases side <;> rfl

/-- A thread has fewer steps in front of it after each of them. -/
theorem Moved.remaining
    {thread : T}
    (moved : Moved layout len s thread s') :
    (s'.phase thread).weight (Point.remaining layout.moves.length) <
      (s.phase thread).weight (Point.remaining layout.moves.length) := by
  cases moved with
  | @operate op phase values operation applied =>
      have after : (s.go thread phase).phase thread = phase := by
        rw [State.go_phase, Function.update_self]
      change ((s.go thread phase).phase thread).weight _ < _
      rw [after]
      exact operation.remaining layout.moves.length
  | write found listed =>
      have below := (List.getElem?_eq_some_iff.mp listed).1
      rw [State.write_phase, Function.update_self, found]
      simp only [Phase.weight_active, Point.remaining]
      omega
  | advanceFill found complete =>
      rw [State.advanceFill_phase, Function.update_self, found]
      simp only [Phase.weight_active, Point.remaining]
      omega
  | read found listed =>
      have below := (List.getElem?_eq_some_iff.mp listed).1
      rw [State.read_phase, Function.update_self, found]
      simp only [Phase.weight_active, Point.remaining]
      omega
  | advanceUse found complete =>
      rw [State.advanceUse_phase, Function.update_self, found]
      simp only [Phase.weight_active, Point.remaining]
      omega

/-- The items that are offered or have been put in are the same before and after
a step. -/
theorem Moved.offers
    {thread : T}
    (moved : Moved layout len s thread s') :
    (s'.phase thread).weight Point.offers + s'.put.length =
      (s.phase thread).weight Point.offers + s.put.length := by
  cases moved with
  | @operate op phase values operation applied =>
      have after : (s.go thread phase).phase thread = phase := by
        rw [State.go_phase, Function.update_self]
      change ((s.go thread phase).phase thread).weight Point.offers +
        s.put.length = _
      rw [after, operation.offers]
  | write found listed =>
      rw [State.write_phase, Function.update_self, found]
      rfl
  | @advanceFill copied item found complete =>
      rw [State.advanceFill_phase, Function.update_self, found]
      change 0 + (s.put ++ [item]).length = 1 + s.put.length
      rw [List.length_append, List.length_singleton]
      omega
  | read found listed =>
      rw [State.read_phase, Function.update_self, found]
      rfl
  | advanceUse found complete =>
      rw [State.advanceUse_phase, Function.update_self, found]
      rfl

/-- A consumer does not stop without an item. -/
theorem Moved.user_of_idle
    {thread : T}
    (moved : Moved layout len s thread s')
    (idle : s'.phase thread = .idle none) :
    (s.phase thread).user = some .put := by
  cases moved with
  | @operate op phase values operation applied =>
      have after : (s.go thread phase).phase thread = phase := by
        rw [State.go_phase, Function.update_self]
      change (s.go thread phase).phase thread = .idle none at idle
      rw [after] at idle
      generalize s.phase thread = before at operation
      cases operation with
      | enter side item => cases idle
      | lock side item => cases idle
      | unlock side item => cases idle
      | leave side item =>
          cases side with
          | put => rfl
          | get => cases idle
  | write found listed =>
      rw [State.write_phase, Function.update_self] at idle
      cases idle
  | advanceFill found complete =>
      rw [State.advanceFill_phase, Function.update_self] at idle
      cases idle
  | read found listed =>
      rw [State.read_phase, Function.update_self] at idle
      cases idle
  | advanceUse found complete =>
      rw [State.advanceUse_phase, Function.update_self] at idle
      cases idle

section Totals

variable [Fintype T]

/-- A step changes a sum by the part of its own thread. -/
theorem Moved.total_add
    {thread : T}
    (moved : Moved layout len s thread s')
    (weight : Side → Point → Nat) :
    total s'.phase weight + (s.phase thread).weight weight =
      total s.phase weight + (s'.phase thread).weight weight := by
  have phases : s'.phase =
      Function.update s.phase thread (s'.phase thread) := by
    funext other
    by_cases same : other = thread
    · rw [same, Function.update_self]
    · rw [Function.update_of_ne same, moved.others same]
  rw [phases, total_update, Function.update_self]

/-- All threads together have fewer steps in front of them. -/
theorem Moved.total_remaining
    {thread : T}
    (moved : Moved layout len s thread s') :
    total s'.phase (Point.remaining layout.moves.length) <
      total s.phase (Point.remaining layout.moves.length) := by
  have own := moved.remaining
  have sum := moved.total_add (Point.remaining layout.moves.length)
  omega

theorem Moved.total_offers
    {thread : T}
    (moved : Moved layout len s thread s') :
    total s'.phase Point.offers + s'.put.length =
      total s.phase Point.offers + s.put.length := by
  have own := moved.offers
  have sum := moved.total_add Point.offers
  omega

end Totals

/-! ## Waiting threads -/

/-- What a thread on this side waits for in front of the lock. -/
def State.Blocks (len : Nat) (s : State T α) : Side → Prop
  | .put => s.put.length = len + s.taken.length
  | .get => s.put.length = s.taken.length

/-- A thread in the critical section can always go on. -/
theorem next_inside_ne_none
    {thread : T}
    {side : Side}
    {copied : Nat}
    {item : α}
    (found : s.phase thread = .active side (.inside copied) item) :
    s.next layout len thread ≠ none := by
  unfold State.next
  rw [found]
  cases side with
  | put =>
      dsimp only
      cases layout.moves[copied]? with
      | none => exact Option.some_ne_none _
      | some move => exact Option.some_ne_none _
  | get =>
      dsimp only
      cases layout.moves[copied]? with
      | none => exact Option.some_ne_none _
      | some move => exact Option.some_ne_none _

/-- A post never has to wait. -/
theorem next_leaving_ne_none
    {thread : T}
    {side : Side}
    {point : Point}
    {item : α}
    (found : s.phase thread = .active side point item)
    (leaving : point = .unlock ∨ point = .leave) :
    s.next layout len thread ≠ none := by
  unfold State.next
  rw [found]
  rcases leaving with rfl | rfl
  · cases side <;> exact Option.some_ne_none _
  · cases side <;> exact Option.some_ne_none _

/-- A wait goes on where there is a permit. -/
theorem operate_ne_none
    {thread : T}
    {slot : Semaphore.Slot}
    (permit : 0 < s.values () slot)
    (phase : Phase α) :
    s.operate thread (.wait () slot) phase ≠ none := by
  have applied : (Semaphore.Op.wait () slot).apply s.values =
      some (Semaphore.set s.values () slot (s.values () slot - 1)) :=
    if_pos permit
  unfold State.operate
  rw [applied]
  exact Option.some_ne_none _

/-- Where nobody can go on, a thread that uses the buffer is at one of its two
waits. -/
theorem point_of_rest
    (rest : ∀ thread, s.next layout len thread = none)
    {thread : T}
    {side : Side}
    {point : Point}
    {item : α}
    (found : s.phase thread = .active side point item) :
    point = .enter ∨ point = .lock := by
  cases point with
  | enter => exact .inl rfl
  | lock => exact .inr rfl
  | inside copied => exact absurd (rest thread) (next_inside_ne_none found)
  | unlock =>
      exact absurd (rest thread) (next_leaving_ne_none found (.inl rfl))
  | leave =>
      exact absurd (rest thread) (next_leaving_ne_none found (.inr rfl))

variable [Fintype T]

omit [DecidableEq T] in
/-- A sum is zero where every thread has nothing. -/
theorem total_eq_zero
    {phases : T → Phase α}
    {weight : Side → Point → Nat}
    (nothing : ∀ thread, (phases thread).weight weight = 0) :
    total phases weight = 0 :=
  Finset.sum_eq_zero fun thread _ => nothing thread

/-- Where nobody can go on, the mutex is free, so nobody waits for it. -/
theorem Inv.enter_of_rest
    (inv : Inv layout len s)
    (rest : ∀ thread, s.next layout len thread = none)
    {thread : T}
    {side : Side}
    {point : Point}
    {item : α}
    (found : s.phase thread = .active side point item) :
    point = .enter := by
  rcases point_of_rest rest found with enter | rfl
  · exact enter
  · exfalso
    have nobody : total s.phase (Point.holds .mutex) = 0 := by
      apply total_eq_zero
      intro other
      cases phase : s.phase other with
      | idle result => rfl
      | active side' point' item' =>
          rcases point_of_rest rest phase with rfl | rfl
          · cases side' <;> rfl
          · cases side' <;> rfl
    have free : 0 < s.values () .mutex := by
      have mutex := inv.mutex
      omega
    have stuck := rest thread
    unfold State.next at stuck
    rw [found] at stuck
    cases side with
    | put => exact operate_ne_none free _ stuck
    | get => exact operate_ne_none free _ stuck

/-- Where nobody can go on, all producers wait for room in a full buffer and all
consumers for an item in an empty one. -/
theorem Inv.blocks_of_rest
    (inv : Inv layout len s)
    (rest : ∀ thread, s.next layout len thread = none)
    {thread : T}
    {side : Side}
    {point : Point}
    {item : α}
    (found : s.phase thread = .active side point item) :
    point = .enter ∧ s.Blocks len side := by
  have nobody : ∀ slot, total s.phase (Point.holds slot) = 0 := by
    intro slot
    apply total_eq_zero
    intro other
    cases phase : s.phase other with
    | idle result => rfl
    | active side' point' item' =>
        rw [inv.enter_of_rest rest phase]
        cases side' <;> cases slot <;> rfl
  obtain rfl := inv.enter_of_rest rest found
  refine ⟨rfl, ?_⟩
  have stuck := rest thread
  unfold State.next at stuck
  rw [found] at stuck
  cases side with
  | put =>
      have none : ¬ 0 < s.values () .empty := fun permit =>
        operate_ne_none permit _ stuck
      have empty := inv.empty
      rw [nobody] at empty
      change s.put.length = len + s.taken.length
      omega
  | get =>
      have none : ¬ 0 < s.values () .full := fun permit =>
        operate_ne_none permit _ stuck
      have full := inv.full
      rw [nobody] at full
      change s.put.length = s.taken.length
      omega

omit [DecidableEq T] in
/-- An empty buffer: everything that has been put in is got out. -/
theorem Inv.taken_eq_put
    (inv : Inv layout len s)
    (empty : s.Blocks len .get) :
    s.taken = s.put :=
  inv.inOrder.eq_of_length empty.symm

end RingBuffer
end CloudComputing
