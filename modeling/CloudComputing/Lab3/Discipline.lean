import CloudComputing.Lab3.Execution

/-!
# The discipline of the coordinating thread

Every program of the coordinator takes each task lock and result lock in turn:
it posts a task, collects its result and only then posts the next one; it gives
a participant a task of `pWorking` only while `pRecovery` has none for it, and
the other way round; it stores a task only between `pGet` and `pRelease`, and
never touches a result.  `Prog.Follows` is this discipline, with one rule for
each way to build a program.
-/

namespace CloudComputing
namespace Lab3

open CloudComputing.Lab3.Parser

/-- How far the coordinating thread is with a port. -/
inductive Phase
  /-- It has neither lock, and no task is on its way. -/
  | idle
  /-- Between `pGet` and `pRelease`. -/
  | writing
  /-- Between `pRelease` and `cGet`. -/
  | posted
  /-- Between `cGet` and `cRelease`. -/
  | reading
  deriving DecidableEq, Repr

namespace Port

/-- The participant of a port. -/
def id : Port → Nat
  | .work id => id
  | .recov id => id

/-- The other port of the same participant. -/
def sibling : Port → Port
  | .work id => .recov id
  | .recov id => .work id

end Port

/-- The task of a port: `_ptask[id]` or `_pRtask[id]`. -/
def task (port : Port) (co : Coordinator) : Bytes :=
  match port with
  | .work id => (co.entry id).ptask
  | .recov id => (co.entry id).pRtask

/-- The access is the next one for the port, and starts no second task for the
participant. -/
def LockOp.Allowed (phase : Port → Phase) (port : Port) : LockOp → Prop
  | .pGet => phase port = .idle ∧ phase port.sibling = .idle
  | .pRelease => phase port = .writing
  | .cGet => phase port = .posted
  | .cRelease => phase port = .reading

/-- The phase after an access. -/
def LockOp.after : LockOp → Phase
  | .pGet => .writing
  | .pRelease => .posted
  | .cGet => .reading
  | .cRelease => .idle

/-- An assignment that leaves every result as it is, and every task but that
of a port which is being written. -/
structure Tame
    (phase : Port → Phase)
    (change : Coordinator → Coordinator) : Prop where
  results : ∀ co port, result port (change co) = result port co
  tasks : ∀ co port, phase port ≠ .writing →
    task port (change co) = task port co

namespace Prog

variable {α β : Type}

/-- A program that keeps the discipline, with a postcondition. -/
def Follows (post : α → (Port → Phase) → Prop) :
    (Port → Phase) → Prog α → Prop
  | phase, .ret value => post value phase
  | _, .fail => True
  | phase, .get next => ∀ co, (next co).Follows post phase
  | phase, .modify change next => Tame phase change ∧ next.Follows post phase
  | phase, .lock op port next =>
      op.Allowed phase port ∧
        next.Follows post (Function.update phase port op.after)

namespace Follows

theorem mono
    {post post' : α → (Port → Phase) → Prop}
    (weaker : ∀ value phase, post value phase → post' value phase)
    {phase : Port → Phase}
    {prog : Prog α}
    (follows : prog.Follows post phase) :
    prog.Follows post' phase := by
  induction prog generalizing phase with
  | ret value => exact weaker value phase follows
  | fail => trivial
  | get next inductionHypothesis =>
      exact fun co => inductionHypothesis co (follows co)
  | modify change next inductionHypothesis =>
      exact ⟨follows.1, inductionHypothesis follows.2⟩
  | lock op port next inductionHypothesis =>
      exact ⟨follows.1, inductionHypothesis follows.2⟩

/-- The rule of sequential composition. -/
theorem bind
    {middle : α → (Port → Phase) → Prop}
    {post : β → (Port → Phase) → Prop}
    {phase : Port → Phase}
    {first : Prog α}
    {second : α → Prog β}
    (before : first.Follows middle phase)
    (after : ∀ value phase, middle value phase →
      (second value).Follows post phase) :
    (first >>= second).Follows post phase := by
  change (Prog.bind first second).Follows post phase
  induction first generalizing phase with
  | ret value => exact after value phase before
  | fail => trivial
  | get next inductionHypothesis =>
      exact fun co => inductionHypothesis co (before co)
  | modify change next inductionHypothesis =>
      exact ⟨before.1, inductionHypothesis before.2⟩
  | lock op port next inductionHypothesis =>
      exact ⟨before.1, inductionHypothesis before.2⟩

theorem read
    {post : α → (Port → Phase) → Prop}
    {phase : Port → Phase}
    {next : Coordinator → Prog α}
    (after : ∀ co, (next co).Follows post phase) :
    (Prog.read >>= next).Follows post phase :=
  after

theorem write
    {post : α → (Port → Phase) → Prop}
    {phase : Port → Phase}
    {change : Coordinator → Coordinator}
    (tame : Tame phase change)
    {next : Unit → Prog α}
    (after : (next ()).Follows post phase) :
    (Prog.write change >>= next).Follows post phase :=
  ⟨tame, after⟩

theorem pure
    {post : α → (Port → Phase) → Prop}
    {phase : Port → Phase}
    {value : α}
    (holds : post value phase) :
    (Pure.pure value : Prog α).Follows post phase :=
  holds

end Follows
end Prog

/-! ## Assignments -/

/-- The tasks and results in an entry. -/
def Entry.slots (entry : Entry) : (Bytes × Int × Bytes) × Bytes × Int × Bytes :=
  ((entry.ptask, entry.pworkingRet, entry.pworkingDataRet),
    entry.pRtask, entry.precoveryRet, entry.preoveryDataRet)

theorem result_of_slots
    {co co' : Coordinator}
    {port : Port}
    (same : (co'.entry port.id).slots = (co.entry port.id).slots) :
    result port co' = result port co := by
  unfold Entry.slots at same
  simp only [Prod.mk.injEq] at same
  cases port with
  | work id => exact Prod.ext same.1.2.1 same.1.2.2
  | recov id => exact Prod.ext same.2.2.1 same.2.2.2

theorem task_of_slots
    {co co' : Coordinator}
    {port : Port}
    (same : (co'.entry port.id).slots = (co.entry port.id).slots) :
    task port co' = task port co := by
  unfold Entry.slots at same
  simp only [Prod.mk.injEq] at same
  cases port with
  | work id => exact same.1.1
  | recov id => exact same.2.1

/-- An assignment to other variables. -/
theorem Tame.of_slots
    {change : Coordinator → Coordinator}
    (same : ∀ co id, ((change co).entry id).slots = (co.entry id).slots)
    (phase : Port → Phase) :
    Tame phase change where
  results := fun co port => result_of_slots (same co port.id)
  tasks := fun co port _ => task_of_slots (same co port.id)

theorem Coordinator.setEntry_entry
    (co : Coordinator)
    (id other : Nat)
    (entry : Entry) :
    (co.setEntry id entry).entry other =
      if other = id then entry else co.entry other := by
  rw [setEntry]
  by_cases own : other = id
  · simp [own]
  · simp [own]

/-- An assignment to one entry that leaves its tasks and results. -/
theorem Coordinator.setEntry_slots
    (co : Coordinator)
    {id : Nat}
    {entry : Entry}
    (same : entry.slots = (co.entry id).slots)
    (other : Nat) :
    ((co.setEntry id entry).entry other).slots = (co.entry other).slots := by
  rw [setEntry_entry]
  split
  · rename_i own
    rw [own]
    exact same
  · rfl

/-- Storing the task of a port that is being written. -/
theorem Tame.setTask
    {phase : Port → Phase}
    {port : Port}
    (writing : phase port = .writing)
    (text : Bytes) :
    Tame phase (setTask port text) where
  results := by
    intro co other
    rcases port with id | id <;> rcases other with id' | id' <;>
      simp only [result, Lab3.setTask, Coordinator.setEntry_entry] <;>
      split <;> simp only [*]
  tasks := by
    intro co other idle
    have different : other ≠ port := fun same => idle (same ▸ writing)
    rcases port with id | id <;> rcases other with id' | id' <;>
      simp only [task, Lab3.setTask, Coordinator.setEntry_entry] <;>
      split <;> simp_all only [ne_eq, not_true_eq_false]

/-! ## Programs -/

/-- Tasks have been posted for these ports, and no other port is in use. -/
def postedOn (ports : List Port) : Port → Phase :=
  fun port => if port ∈ ports then .posted else .idle

theorem postedOn_congr
    {ports ports' : List Port}
    (same : ∀ port, port ∈ ports ↔ port ∈ ports') :
    postedOn ports = postedOn ports' := by
  funext port
  simp only [postedOn, same]

theorem update_postedOn (ports : List Port) (port : Port) :
    Function.update (postedOn ports) port .posted =
      postedOn (port :: ports) := by
  funext other
  unfold postedOn
  by_cases own : other = port
  · simp [own]
  · simp [own]

theorem update_postedOn_cons
    {ports : List Port}
    {port : Port}
    (fresh : port ∉ ports) :
    Function.update (postedOn (port :: ports)) port .idle = postedOn ports := by
  funext other
  unfold postedOn
  by_cases own : other = port
  · simp [own, fresh]
  · simp [own]

namespace Prog.Follows

/-- Posting a task. -/
theorem post
    {ports : List Port}
    {port : Port}
    (fresh : port ∉ ports)
    (single : port.sibling ∉ ports)
    (text : Bytes) :
    (Lab3.post port text).Follows
      (fun _ phase => phase = postedOn (port :: ports)) (postedOn ports) := by
  have different : port.sibling ≠ port := by
    cases port with
    | work id => simp [Port.sibling]
    | recov id => simp [Port.sibling]
  refine ⟨⟨?_, ?_⟩, .setTask ?_ text, ?_, ?_⟩
  · simp [postedOn, fresh]
  · simp [postedOn, single]
  · simp [LockOp.after]
  · simp [LockOp.Allowed, LockOp.after]
  · simp only [LockOp.after, Function.update_idem]
    exact update_postedOn ports port

/-- Collecting a result. -/
theorem collect
    {ports : List Port}
    {port : Port}
    (fresh : port ∉ ports) :
    (Lab3.collect port).Follows (fun _ phase => phase = postedOn ports)
      (postedOn (port :: ports)) := by
  refine ⟨?_, fun co => ⟨?_, ?_⟩⟩
  · simp [LockOp.Allowed, postedOn]
  · simp [LockOp.Allowed, LockOp.after]
  · simp only [LockOp.after, Function.update_idem]
    exact update_postedOn_cons fresh

/-- A task whose result is collected before anything else. -/
theorem postCollect
    {α : Type}
    (port : Port)
    (text : Bytes)
    {next : Int × Bytes → Prog α}
    {post : α → (Port → Phase) → Prop}
    (after : ∀ outcome, (next outcome).Follows post (postedOn [])) :
    (Lab3.post port text >>= fun _ => Lab3.collect port >>= next).Follows post
      (postedOn []) := by
  refine bind (Follows.post (by simp) (by simp) text) fun _ phase posted => ?_
  rw [posted]
  refine bind (collect (by simp)) fun outcome phase idle => ?_
  rw [idle]
  exact after outcome

/-- The kinds of ports: those of `pWorking` and those of `pRecovery`. -/
structure Kind (port : Nat → Port) : Prop where
  injective : Function.Injective port
  single : ∀ id id', (port id).sibling ≠ port id'

theorem Kind.work : Kind Port.work where
  injective := fun _ _ same => Port.work.inj same
  single := fun _ _ => Port.noConfusion

theorem Kind.recov : Kind Port.recov where
  injective := fun _ _ same => Port.recov.inj same
  single := fun _ _ => Port.noConfusion

/-- Tasks for participants that have none yet. -/
theorem postAll
    {port : Nat → Port}
    (kind : Kind port)
    (text : Bytes)
    {ids : List Nat}
    (nodup : ids.Nodup)
    (done : List Nat)
    (fresh : ∀ id ∈ ids, id ∉ done) :
    (Lab3.postAll port text ids).Follows
      (fun _ phase => phase = postedOn ((ids ++ done).map port))
      (postedOn (done.map port)) := by
  induction ids generalizing done with
  | nil => exact pure rfl
  | cons id ids inductionHypothesis =>
      obtain ⟨notLater, nodupRest⟩ := List.nodup_cons.mp nodup
      have notPosted : port id ∉ done.map port := by
        rw [List.mem_map_of_injective kind.injective]
        exact fresh id (by simp)
      have alone : (port id).sibling ∉ done.map port := by
        intro member
        obtain ⟨other, _, same⟩ := List.mem_map.mp member
        exact kind.single id other same.symm
      rw [Lab3.postAll]
      refine bind (Follows.post notPosted alone text) fun _ phase posted => ?_
      rw [posted]
      refine mono ?_ (inductionHypothesis nodupRest (id :: done) ?_)
      · intro _ phase' posted'
        rw [posted']
        apply postedOn_congr
        intro other
        simp only [List.map_append, List.map_cons, List.mem_append,
          List.mem_cons]
        tauto
      · intro other member
        rw [List.mem_cons, not_or]
        exact ⟨fun same => notLater (same ▸ member),
          fresh other (List.mem_cons_of_mem id member)⟩

/-- The loops that collect the results of all participants, where each round
continues with the next participant. -/
theorem collectAll
    {α σ : Type}
    {port : Nat → Port}
    (kind : Kind port)
    (loop : List Nat → σ → Prog α)
    (next : Nat → σ → Int × Bytes → Prog σ)
    (stop : ∀ state, (loop [] state).Follows
      (fun _ phase => phase = postedOn []) (postedOn []))
    (round : ∀ id ids state, loop (id :: ids) state =
      (Lab3.collect (port id) >>= fun outcome =>
        next id state outcome >>= loop ids))
    (tame : ∀ id state outcome phase, (next id state outcome).Follows
      (fun _ phase' => phase' = phase) phase)
    {ids : List Nat}
    (nodup : ids.Nodup)
    (state : σ) :
    (loop ids state).Follows (fun _ phase => phase = postedOn [])
      (postedOn (ids.map port)) := by
  induction ids generalizing state with
  | nil => exact stop state
  | cons id ids inductionHypothesis =>
      obtain ⟨notLater, nodupRest⟩ := List.nodup_cons.mp nodup
      have collected : port id ∉ ids.map port := by
        rw [List.mem_map_of_injective kind.injective]
        exact notLater
      rw [round]
      refine bind (collect collected) fun outcome phase taken => ?_
      refine bind (tame id state outcome phase) fun state' phase' same => ?_
      rw [same, taken]
      exact inductionHypothesis nodupRest state'

theorem collectVotes
    {ids : List Nat}
    (nodup : ids.Nodup)
    (vote : Bool) :
    (Lab3.collectVotes ids vote).Follows (fun _ phase => phase = postedOn [])
      (postedOn (ids.map .work)) :=
  collectAll .work Lab3.collectVotes
    (fun _ vote outcome => Pure.pure
      (vote || (outcome.1 = kvOk && outcome.2 = str "PRE")))
    (fun _ => rfl) (fun _ _ _ => rfl) (fun _ _ _ _ => rfl) nodup vote

theorem collectCommits
    {ids : List Nat}
    (nodup : ids.Nodup)
    (done : Bool × Bytes) :
    (Lab3.collectCommits ids done).Follows (fun _ phase => phase = postedOn [])
      (postedOn (ids.map .work)) :=
  collectAll .work Lab3.collectCommits
    (fun _ done outcome => Pure.pure
      (if outcome.1 = kvOk ∧ outcome.2 ≠ getErrorMessage then
        (true, outcome.2) else done))
    (fun _ => rfl) (fun _ _ _ => rfl) (fun _ _ _ _ => rfl) nodup done

/-- One round of the loop of `Recovery`, after the result is collected. -/
def storeTxid (id : Nat) (consistance : Bool) (outcome : Int × Bytes) :
    Prog Bool := do
  let co ← Prog.read
  if outcome.1 = kvOk ∧ outcome.2 ≠ [] then
    let max := Decimal.toUInt64 (Decimal.strtol outcome.2)
    Prog.write fun co => co.setEntry id
      { co.entry id with maxTxid := some max }
    return consistance && max = co.txid - 1
  else return consistance

theorem collectTxids_cons
    (id : Nat)
    (ids : List Nat)
    (consistance : Bool) :
    Lab3.collectTxids (id :: ids) consistance =
      (Lab3.collect (.recov id) >>= fun outcome =>
        storeTxid id consistance outcome >>= Lab3.collectTxids ids) := by
  rw [Lab3.collectTxids]
  congr 1
  funext outcome
  unfold storeTxid
  change Prog.get _ = Prog.get _
  congr 1
  funext co
  split
  · rfl
  · rfl

theorem collectTxids
    {ids : List Nat}
    (nodup : ids.Nodup)
    (consistance : Bool) :
    (Lab3.collectTxids ids consistance).Follows
      (fun _ phase => phase = postedOn []) (postedOn (ids.map .recov)) := by
  refine collectAll .recov Lab3.collectTxids storeTxid (fun _ => rfl)
    collectTxids_cons ?_ nodup consistance
  intro id consistance outcome phase
  refine read fun co => ?_
  split
  · refine write (.of_slots (fun co other => ?_) phase) (pure rfl)
    apply co.setEntry_slots
    rfl
  · exact pure rfl

theorem updateDB (resp : Bytes) :
    (Lab3.updateDB resp).Follows (fun _ phase => phase = postedOn [])
      (postedOn []) := by
  rw [Lab3.updateDB]
  refine read fun co => write (.of_slots (fun co id => ?_) _) ?_
  · rfl
  refine bind (postAll .work _ co.nodup_ids [] (by simp))
    fun _ phase posted => ?_
  rw [posted, List.append_nil]
  refine bind (collectVotes co.nodup_ids false) fun vote phase idle => ?_
  rw [idle]
  split
  · refine bind (postAll .work _ co.nodup_ids [] (by simp))
      fun _ phase posted => ?_
    rw [posted, List.append_nil]
    refine bind (collectCommits co.nodup_ids _) fun done phase idle => ?_
    rw [idle]
    dsimp only
    split
    · refine read fun co => ?_
      split
      · trivial
      · refine write (.of_slots (fun co id => ?_) _) (pure rfl)
        rfl
    · exact pure rfl
  · exact pure rfl

theorem requestFrom (resp : Bytes) (ids : List Nat) :
    (Lab3.requestFrom resp ids).Follows (fun _ phase => phase = postedOn [])
      (postedOn []) := by
  induction ids with
  | nil => exact pure rfl
  | cons id ids inductionHypothesis =>
      refine postCollect (.work id) _ fun outcome => ?_
      dsimp only
      split
      · exact pure rfl
      · exact inductionHypothesis

theorem request (resp : Bytes) :
    (Lab3.request resp).Follows (fun _ phase => phase = postedOn [])
      (postedOn []) :=
  read fun co => requestFrom resp co.ids

theorem pushAll (text : Bytes) (ids : List Nat) :
    (Lab3.pushAll text ids).Follows (fun _ phase => phase = postedOn [])
      (postedOn []) := by
  induction ids with
  | nil => exact pure rfl
  | cons id ids inductionHypothesis =>
      exact postCollect (.recov id) _ fun _ => inductionHypothesis

theorem pushRecord (tid : Nat) (ids : List Nat) :
    (Lab3.pushRecord tid ids).Follows (fun _ phase => phase = postedOn [])
      (postedOn []) := by
  induction ids with
  | nil => exact pure rfl
  | cons id ids inductionHypothesis =>
      refine read fun co => ?_
      split
      · trivial
      · exact postCollect (.recov id) _ fun _ => inductionHypothesis

theorem recoveryFromCLoop (ids : List Nat) (count tid : Nat) :
    (Lab3.recoveryFromCLoop ids count tid).Follows
      (fun _ phase => phase = postedOn []) (postedOn []) := by
  induction count generalizing tid with
  | zero => exact pure rfl
  | succ count inductionHypothesis =>
      refine bind (pushRecord tid ids) fun _ phase idle => ?_
      rw [idle]
      exact inductionHypothesis (tid + 1)

theorem recoveryFromC :
    Lab3.recoveryFromC.Follows (fun _ phase => phase = postedOn [])
      (postedOn []) :=
  read fun co => recoveryFromCLoop co.ids _ _

/-- Every way out of the loop, the `goto` too, leaves the locks free. -/
theorem fetchLoop (leader : Nat) (ids : List Nat) (count minID : Nat) :
    (Lab3.fetchLoop leader ids count minID).Follows
      (fun _ phase => phase = postedOn []) (postedOn []) := by
  induction count generalizing minID with
  | zero => exact pure rfl
  | succ count inductionHypothesis =>
      refine postCollect (.work leader) _ fun outcome => ?_
      dsimp only
      split
      · split
        · trivial
        · refine write (.of_slots (fun co id => ?_) _) ?_
          · split
            · rfl
            · rfl
          · refine bind (pushAll _ ids) fun _ phase idle => ?_
            rw [idle]
            exact inductionHypothesis (minID + 1)
      · exact pure rfl

theorem recoveryFromPLoop (ids : List Nat) (rounds minID : Nat) :
    (Lab3.recoveryFromPLoop ids rounds minID).Follows
      (fun _ phase => phase = postedOn []) (postedOn []) := by
  induction rounds generalizing minID with
  | zero => trivial
  | succ rounds inductionHypothesis =>
      refine read fun co => ?_
      dsimp only
      split
      · exact recoveryFromC
      · refine write (.of_slots (fun co other => ?_) _) ?_
        · apply co.setEntry_slots
          rfl
        refine bind (fetchLoop _ ids _ _) fun minID phase idle => ?_
        rw [idle]
        exact inductionHypothesis minID

theorem recoveryFromP (min : Nat) :
    (Lab3.recoveryFromP min).Follows (fun _ phase => phase = postedOn [])
      (postedOn []) :=
  read fun co => recoveryFromPLoop co.ids _ _

theorem recoveryBody (minID : Nat) :
    (Lab3.recoveryBody minID).Follows (fun _ phase => phase = postedOn [])
      (postedOn []) := by
  have leave : ∀ phase, Tame phase leaveRecovery :=
    Tame.of_slots fun co id => by
      unfold leaveRecovery
      dsimp only
      split
      · rfl
      · rfl
  rw [Lab3.recoveryBody]
  refine write (.of_slots (fun co id => ?_) _) (read fun co => ?_)
  · unfold enterRecovery
    dsimp only
    split
    · rfl
    · rfl
  refine bind (postAll .recov _ co.nodup_ids [] (by simp))
    fun _ phase posted => ?_
  rw [posted, List.append_nil]
  refine bind (collectTxids co.nodup_ids true) fun consistance phase idle => ?_
  rw [idle]
  split
  · exact ⟨leave _, rfl⟩
  · refine read fun co => ?_
    refine bind (recoveryFromP _) fun _ phase idle => ?_
    rw [idle]
    exact ⟨leave _, rfl⟩

end Prog.Follows

end Lab3
end CloudComputing
