import CloudComputing.Lab3.Threads

/-!
# What a program reads and writes

While a task is posted, its worker changes what belongs to the participant at
any time.  A program of the coordinating thread that neither reads nor writes
this until it has collected the result does not notice when the worker runs:
`Prog.Local` says so, for programs that run under `_workingMutex` only, while
`keepAlive` changes the states of participants, and for those that run under
both mutexes.
-/

namespace CloudComputing
namespace Lab3

open CloudComputing.Lab3.Parser

/-- Whose text a program is. -/
inductive Mode
  /-- `Working` has `_workingMutex`. -/
  | work
  /-- `Recovery` has both mutexes. -/
  | recovery
  deriving DecidableEq, Repr

/-- No task is on its way to a worker of the participant. -/
def Unposted (phase : Port → Phase) (id : Nat) : Prop :=
  phase (.work id) ≠ .posted ∧ phase (.recov id) ≠ .posted

theorem Unposted.of_port
    {phase : Port → Phase}
    {port : Port}
    (own : phase port ≠ .posted)
    (sibling : phase port.sibling ≠ .posted) :
    Unposted phase port.id := by
  cases port with
  | work id => exact ⟨own, sibling⟩
  | recov id => exact ⟨sibling, own⟩

theorem unposted_nil (id : Nat) : Unposted (postedOn []) id := by
  simp [Unposted, postedOn]

/-- Two coordinators agree on what a program may read: without the entries of
participants with a posted task and, for `Working`, without the states of
participants and their numbers in the table. -/
structure Agree
    (mode : Mode)
    (phase : Port → Phase)
    (co co' : Coordinator) : Prop where
  txid : co'.txid = co.txid
  lg : co'.lg = co.lg
  pnum : co'.pnum = co.pnum
  slots : ∀ id, Unposted phase id →
    (co'.entry id).slots = (co.entry id).slots
  entry : mode = .recovery → ∀ id, Unposted phase id →
    co'.entry id = co.entry id

namespace Agree

variable
  {mode : Mode}
  {phase : Port → Phase}
  {co co' : Coordinator}

theorem ids (agree : Agree mode phase co co') : co'.ids = co.ids := by
  rw [Coordinator.ids, Coordinator.ids, agree.pnum]

theorem result
    (agree : Agree mode phase co co')
    {port : Port}
    (unposted : Unposted phase port.id) :
    result port co' = result port co :=
  result_of_slots (agree.slots port.id unposted)

/-- Without posted tasks the entries agree, in a recovery. -/
theorem entries
    (agree : Agree .recovery (postedOn []) co co') :
    co'.entry = co.entry := by
  funext id
  exact agree.entry rfl id (unposted_nil id)

end Agree

/-- An assignment that keeps agreement.  It leaves participants with a posted
task alone, and one of `Working` leaves what `keepAlive` changes. -/
structure Confined
    (mode : Mode)
    (phase : Port → Phase)
    (change : Coordinator → Coordinator) : Prop where
  pnum : ∀ co, (change co).pnum = co.pnum
  forward : ∀ co, co.txid ≤ (change co).txid
  others : ∀ co co' : Coordinator, co'.cstate = co.cstate →
    co'.tmpNum = co.tmpNum → (change co').cstate = (change co).cstate ∧
      (change co').tmpNum = (change co).tmpNum
  posted : ∀ co id, ¬ Unposted phase id → (change co).entry id = co.entry id
  exact : ∀ co co', Agree .recovery phase co co' →
    Agree .recovery phase (change co) (change co')
  slots : mode = .work → ∀ co co', Agree .work phase co co' →
    Agree .work phase (change co) (change co')
  pstate : mode = .work → ∀ co id,
    ((change co).entry id).pstate = (co.entry id).pstate
  maxTxid : mode = .work → ∀ co id,
    ((change co).entry id).maxTxid = (co.entry id).maxTxid
  tmpNum : mode = .work → ∀ co, (change co).tmpNum = co.tmpNum

/-- The assignment keeps the agreement for its own mode. -/
theorem Confined.agree
    {mode : Mode}
    {phase : Port → Phase}
    {change : Coordinator → Coordinator}
    (confined : Confined mode phase change)
    {co co' : Coordinator}
    (agree : Agree mode phase co co') :
    Agree mode phase (change co) (change co') := by
  cases mode with
  | work => exact confined.slots rfl co co' agree
  | recovery => exact confined.exact co co' agree

namespace Prog

variable {α β : Type}

/-- A program that reads and writes only what it may, with a postcondition. -/
def Local (mode : Mode) (post : α → (Port → Phase) → Prop) :
    (Port → Phase) → Prog α → Prop
  | phase, .ret value => post value phase
  | _, .fail => True
  | phase, .get next =>
      (∀ co co', Agree mode phase co co' → next co' = next co) ∧
        ∀ co, (next co).Local mode post phase
  | phase, .modify change next =>
      Confined mode phase change ∧ next.Local mode post phase
  | phase, .lock op port next =>
      (mode = .work → port = .work port.id) ∧
        next.Local mode post (Function.update phase port op.after)

namespace Local

variable {mode : Mode}

theorem mono
    {post post' : α → (Port → Phase) → Prop}
    (weaker : ∀ value phase, post value phase → post' value phase)
    {phase : Port → Phase}
    {prog : Prog α}
    (isLocal : prog.Local mode post phase) :
    prog.Local mode post' phase := by
  induction prog generalizing phase with
  | ret value => exact weaker value phase isLocal
  | fail => trivial
  | get next inductionHypothesis =>
      exact ⟨isLocal.1, fun co => inductionHypothesis co (isLocal.2 co)⟩
  | modify change next inductionHypothesis =>
      exact ⟨isLocal.1, inductionHypothesis isLocal.2⟩
  | lock op port next inductionHypothesis =>
      exact ⟨isLocal.1, inductionHypothesis isLocal.2⟩

/-- The rule of sequential composition. -/
theorem bind
    {middle : α → (Port → Phase) → Prop}
    {post : β → (Port → Phase) → Prop}
    {phase : Port → Phase}
    {first : Prog α}
    {second : α → Prog β}
    (before : first.Local mode middle phase)
    (after : ∀ value phase, middle value phase →
      (second value).Local mode post phase) :
    (first >>= second).Local mode post phase := by
  change (Prog.bind first second).Local mode post phase
  induction first generalizing phase with
  | ret value => exact after value phase before
  | fail => trivial
  | get next inductionHypothesis =>
      refine ⟨fun co co' agree => ?_, fun co =>
        inductionHypothesis co (before.2 co)⟩
      exact congrArg (Prog.bind · second) (before.1 co co' agree)
  | modify change next inductionHypothesis =>
      exact ⟨before.1, inductionHypothesis before.2⟩
  | lock op port next inductionHypothesis =>
      exact ⟨before.1, inductionHypothesis before.2⟩

theorem read
    {post : α → (Port → Phase) → Prop}
    {phase : Port → Phase}
    {next : Coordinator → Prog α}
    (same : ∀ co co', Agree mode phase co co' → next co' = next co)
    (after : ∀ co, (next co).Local mode post phase) :
    (Prog.read >>= next).Local mode post phase :=
  ⟨same, after⟩

theorem write
    {post : α → (Port → Phase) → Prop}
    {phase : Port → Phase}
    {change : Coordinator → Coordinator}
    (confined : Confined mode phase change)
    {next : Unit → Prog α}
    (after : (next ()).Local mode post phase) :
    (Prog.write change >>= next).Local mode post phase :=
  ⟨confined, after⟩

theorem pure
    {post : α → (Port → Phase) → Prop}
    {phase : Port → Phase}
    {value : α}
    (holds : post value phase) :
    (Pure.pure value : Prog α).Local mode post phase :=
  holds

end Local
end Prog

/-! ## Assignments -/

/-- An assignment to `_lg` and `_TXID`, from `_lg` and `_TXID`. -/
theorem Confined.shared
    {change : Coordinator → Coordinator}
    (pnum : ∀ co, (change co).pnum = co.pnum)
    (forward : ∀ co, co.txid ≤ (change co).txid)
    (entry : ∀ co, (change co).entry = co.entry)
    (others : ∀ co, (change co).cstate = co.cstate ∧
      (change co).tmpNum = co.tmpNum)
    (txid : ∀ co co' : Coordinator, co'.txid = co.txid → co'.lg = co.lg →
      (change co').txid = (change co).txid)
    (lg : ∀ co co' : Coordinator, co'.txid = co.txid → co'.lg = co.lg →
      (change co').lg = (change co).lg)
    (mode : Mode)
    (phase : Port → Phase) :
    Confined mode phase change := by
  have agree : ∀ mode co co', Agree mode phase co co' →
      Agree mode phase (change co) (change co') := by
    intro mode co co' agree
    refine ⟨txid co co' agree.txid agree.lg, lg co co' agree.txid agree.lg,
      ?_, ?_, ?_⟩
    · rw [pnum, pnum]
      exact agree.pnum
    · rw [entry, entry]
      exact agree.slots
    · rw [entry, entry]
      exact agree.entry
  refine ⟨pnum, forward, ?_, ?_, agree .recovery, fun _ => agree .work, ?_, ?_,
    fun _ co => (others co).2⟩
  · intro co co' cstate tmpNum
    rw [(others co').1, (others co').2, (others co).1, (others co).2]
    exact ⟨cstate, tmpNum⟩
  · intro co id _
    rw [entry]
  · intro _ co id
    rw [entry]
  · intro _ co id
    rw [entry]

/-- An assignment to the entry of one participant without a posted task. -/
theorem Confined.setEntry
    {mode : Mode}
    {phase : Port → Phase}
    {id : Nat}
    (unposted : Unposted phase id)
    (change : Entry → Entry)
    (slots : ∀ entry entry' : Entry, entry'.slots = entry.slots →
      (change entry').slots = (change entry).slots)
    (pstate : mode = .work → ∀ entry, (change entry).pstate = entry.pstate)
    (maxTxid : mode = .work → ∀ entry, (change entry).maxTxid = entry.maxTxid) :
    Confined mode phase fun co => co.setEntry id (change (co.entry id)) := by
  have agree : ∀ mode co co', Agree mode phase co co' →
      Agree mode phase (co.setEntry id (change (co.entry id)))
        (co'.setEntry id (change (co'.entry id))) := by
    intro mode co co' agree
    refine ⟨agree.txid, agree.lg, agree.pnum, ?_, ?_⟩
    · intro other free
      rw [Coordinator.setEntry_entry, Coordinator.setEntry_entry]
      split
      · exact slots _ _ (agree.slots id unposted)
      · exact agree.slots other free
    · intro isRecovery other free
      rw [Coordinator.setEntry_entry, Coordinator.setEntry_entry]
      split
      · rw [agree.entry isRecovery id unposted]
      · exact agree.entry isRecovery other free
  refine ⟨fun _ => rfl, fun _ => le_rfl,
    fun _ _ cstate tmpNum => ⟨cstate, tmpNum⟩, ?_, agree .recovery, fun _ => agree .work, ?_, ?_, fun _ _ => rfl⟩
  · intro co other posted
    rw [Coordinator.setEntry_entry, if_neg]
    rintro rfl
    exact posted unposted
  · intro isWork co other
    rw [Coordinator.setEntry_entry]
    split
    · rename_i same
      rw [same]
      exact pstate isWork _
    · rfl
  · intro isWork co other
    rw [Coordinator.setEntry_entry]
    split
    · rename_i same
      rw [same]
      exact maxTxid isWork _
    · rfl

/-- Storing the task of a port for which none is posted. -/
theorem Confined.setTask
    {mode : Mode}
    {phase : Port → Phase}
    {port : Port}
    (unposted : Unposted phase port.id)
    (text : Bytes) :
    Confined mode phase (setTask port text) := by
  cases port with
  | work id =>
      refine Confined.setEntry unposted
        (fun entry => { entry with ptask := text }) ?_
        (fun _ _ => rfl) (fun _ _ => rfl)
      intro entry entry' same
      simp only [Entry.slots, Prod.mk.injEq] at same ⊢
      exact ⟨⟨trivial, same.1.2⟩, same.2⟩
  | recov id =>
      refine Confined.setEntry unposted
        (fun entry => { entry with pRtask := text }) ?_
        (fun _ _ => rfl) (fun _ _ => rfl)
      intro entry entry' same
      simp only [Entry.slots, Prod.mk.injEq] at same ⊢
      exact ⟨same.1, trivial, same.2.2⟩

/-- An assignment of `Recovery` while no task is posted. -/
theorem Confined.ofRecovery
    {change : Coordinator → Coordinator}
    (pnum : ∀ co, (change co).pnum = co.pnum)
    (forward : ∀ co, co.txid ≤ (change co).txid)
    (others : ∀ co co' : Coordinator, co'.cstate = co.cstate →
      co'.tmpNum = co.tmpNum → (change co').cstate = (change co).cstate ∧
        (change co').tmpNum = (change co).tmpNum)
    (txid : ∀ co co' : Coordinator, co'.txid = co.txid → co'.lg = co.lg →
      (change co').txid = (change co).txid)
    (lg : ∀ co co' : Coordinator, co'.txid = co.txid → co'.lg = co.lg →
      (change co').lg = (change co).lg)
    (entry : ∀ co co' : Coordinator, co'.txid = co.txid →
      co'.entry = co.entry → (change co').entry = (change co).entry) :
    Confined .recovery (postedOn []) change := by
  refine ⟨pnum, forward, others, fun _ id posted => absurd (unposted_nil id) posted, ?_,
    fun isWork => Mode.noConfusion isWork,
    fun isWork => Mode.noConfusion isWork,
    fun isWork => Mode.noConfusion isWork,
    fun isWork => Mode.noConfusion isWork⟩
  intro co co' agree
  have same := entry co co' agree.txid agree.entries
  refine ⟨txid co co' agree.txid agree.lg, lg co co' agree.txid agree.lg, ?_,
    fun id _ => by rw [same], fun _ id _ => by rw [same]⟩
  rw [pnum, pnum]
  exact agree.pnum

/-! ## Programs -/

namespace Prog.Local

variable {mode : Mode}

theorem unposted_of_ports
    {ports : List Port}
    (port : Port)
    (fresh : port ∉ ports)
    (single : port.sibling ∉ ports) :
    Unposted (postedOn ports) port.id := by
  apply Unposted.of_port
  · simp [postedOn, fresh]
  · simp [postedOn, single]

/-- An access to a port that has no posted task, and no sibling with one. -/
theorem unposted_update
    (ports : List Port)
    {port : Port}
    (single : port.sibling ∉ ports)
    {phase : Phase}
    (other : phase ≠ .posted) :
    Unposted (Function.update (postedOn ports) port phase) port.id := by
  have different : port.sibling ≠ port := by
    cases port with
    | work id => exact Port.noConfusion
    | recov id => exact Port.noConfusion
  apply Unposted.of_port
  · rw [Function.update_self]
    exact other
  · rw [Function.update_of_ne different]
    simp [postedOn, single]

/-- Posting a task. -/
theorem post
    {ports : List Port}
    {port : Port}
    (uses : mode = .work → port = .work port.id)
    (single : port.sibling ∉ ports)
    (text : Bytes) :
    (Lab3.post port text).Local mode
      (fun _ phase => phase = postedOn (port :: ports)) (postedOn ports) := by
  refine ⟨uses, .setTask ?_ text, uses, ?_⟩
  · exact unposted_update ports single Phase.noConfusion
  · simp only [LockOp.after, Function.update_idem]
    exact update_postedOn ports port

/-- Collecting a result. -/
theorem collect
    {ports : List Port}
    {port : Port}
    (uses : mode = .work → port = .work port.id)
    (fresh : port ∉ ports)
    (single : port.sibling ∉ ports) :
    (Lab3.collect port).Local mode (fun _ phase => phase = postedOn ports)
      (postedOn (port :: ports)) := by
  have different : port.sibling ≠ port := by
    cases port with
    | work id => exact Port.noConfusion
    | recov id => exact Port.noConfusion
  refine ⟨uses, ⟨fun co co' agree => ?_, fun co => ⟨uses, ?_⟩⟩⟩
  · have unposted : Unposted
        (Function.update (postedOn (port :: ports)) port .reading) port.id :=
      unposted_update _ (by simp [different, single]) Phase.noConfusion
    have same : result port co' = result port co := agree.result unposted
    change Prog.lock .cRelease port (.ret (result port co')) =
      .lock .cRelease port (.ret (result port co))
    rw [same]
  · simp only [LockOp.after, Function.update_idem]
    exact update_postedOn_cons fresh

/-- A task whose result is collected before anything else. -/
theorem postCollect
    {α : Type}
    (port : Port)
    (uses : mode = .work → port = .work port.id)
    (text : Bytes)
    {next : Int × Bytes → Prog α}
    {post : α → (Port → Phase) → Prop}
    (after : ∀ outcome, (next outcome).Local mode post (postedOn [])) :
    (Lab3.post port text >>= fun _ => Lab3.collect port >>= next).Local mode
      post (postedOn []) := by
  refine bind (Local.post uses (by simp) text) fun _ phase posted => ?_
  rw [posted]
  refine bind (collect uses (by simp) (by simp)) fun outcome phase idle => ?_
  rw [idle]
  exact after outcome

/-- Tasks for participants that have none yet. -/
theorem postAll
    {port : Nat → Port}
    (uses : mode = .work → ∀ id, port id = .work (port id).id)
    (kind : Follows.Kind port)
    (text : Bytes)
    (ids done : List Nat) :
    (Lab3.postAll port text ids).Local mode
      (fun _ phase => phase = postedOn ((ids ++ done).map port))
      (postedOn (done.map port)) := by
  induction ids generalizing done with
  | nil => exact pure rfl
  | cons id ids inductionHypothesis =>
      have alone : (port id).sibling ∉ done.map port := by
        intro member
        obtain ⟨other, _, same⟩ := List.mem_map.mp member
        exact kind.single id other same.symm
      rw [Lab3.postAll]
      refine bind (Local.post (fun isWork => uses isWork id) alone text)
        fun _ phase posted => ?_
      rw [posted]
      refine mono ?_ (inductionHypothesis (id :: done))
      intro _ phase' posted'
      rw [posted']
      apply postedOn_congr
      intro other
      simp only [List.map_append, List.map_cons, List.mem_append,
        List.mem_cons]
      tauto

/-- The loops that collect the results of all participants. -/
theorem collectAll
    {α σ : Type}
    {port : Nat → Port}
    (uses : mode = .work → ∀ id, port id = .work (port id).id)
    (kind : Follows.Kind port)
    (loop : List Nat → σ → Prog α)
    (next : Nat → σ → Int × Bytes → Prog σ)
    (stop : ∀ state, (loop [] state).Local mode
      (fun _ phase => phase = postedOn []) (postedOn []))
    (round : ∀ id ids state, loop (id :: ids) state =
      (Lab3.collect (port id) >>= fun outcome =>
        next id state outcome >>= loop ids))
    (confined : ∀ id (ids : List Nat) state outcome, id ∉ ids →
      (next id state outcome).Local mode
        (fun _ phase => phase = postedOn (ids.map port))
        (postedOn (ids.map port)))
    {ids : List Nat}
    (nodup : ids.Nodup)
    (state : σ) :
    (loop ids state).Local mode (fun _ phase => phase = postedOn [])
      (postedOn (ids.map port)) := by
  induction ids generalizing state with
  | nil => exact stop state
  | cons id ids inductionHypothesis =>
      obtain ⟨notLater, nodupRest⟩ := List.nodup_cons.mp nodup
      have collected : port id ∉ ids.map port := by
        rw [List.mem_map_of_injective kind.injective]
        exact notLater
      have alone : (port id).sibling ∉ ids.map port := by
        intro member
        obtain ⟨other, _, same⟩ := List.mem_map.mp member
        exact kind.single id other same.symm
      rw [round]
      refine bind (collect (fun isWork => uses isWork id) collected alone)
        fun outcome phase taken => ?_
      rw [taken]
      refine bind (confined id ids state outcome notLater)
        fun state' phase' same => ?_
      rw [same]
      exact inductionHypothesis nodupRest state'

theorem collectVotes
    {ids : List Nat}
    (nodup : ids.Nodup)
    (vote : Bool) :
    (Lab3.collectVotes ids vote).Local mode
      (fun _ phase => phase = postedOn []) (postedOn (ids.map .work)) :=
  collectAll (fun _ _ => rfl) .work Lab3.collectVotes
    (fun _ vote outcome => Pure.pure
      (vote || (outcome.1 = kvOk && outcome.2 = str "PRE")))
    (fun _ => rfl) (fun _ _ _ => rfl) (fun _ _ _ _ _ => rfl) nodup vote

theorem collectCommits
    {ids : List Nat}
    (nodup : ids.Nodup)
    (done : Bool × Bytes) :
    (Lab3.collectCommits ids done).Local mode
      (fun _ phase => phase = postedOn []) (postedOn (ids.map .work)) :=
  collectAll (fun _ _ => rfl) .work Lab3.collectCommits
    (fun _ done outcome => Pure.pure
      (if outcome.1 = kvOk ∧ outcome.2 ≠ getErrorMessage then
        (true, outcome.2) else done))
    (fun _ => rfl) (fun _ _ _ => rfl) (fun _ _ _ _ _ => rfl) nodup done

theorem collectTxids
    {ids : List Nat}
    (nodup : ids.Nodup)
    (consistance : Bool) :
    (Lab3.collectTxids ids consistance).Local .recovery
      (fun _ phase => phase = postedOn []) (postedOn (ids.map .recov)) := by
  refine collectAll (fun isWork => Mode.noConfusion isWork) .recov
    Lab3.collectTxids Follows.storeTxid (fun _ => rfl)
    Follows.collectTxids_cons ?_ nodup consistance
  intro id ids consistance outcome notLater
  refine read (fun co co' agree => ?_) fun co => ?_
  · rw [agree.txid]
  · split
    · refine write (.setEntry (unposted_of_ports (.recov id) ?_ ?_)
        (fun entry => { entry with maxTxid := some _ })
        (fun _ _ same => same) (fun isWork => Mode.noConfusion isWork)
        (fun isWork => Mode.noConfusion isWork)) (pure rfl)
      · rw [List.mem_map_of_injective Follows.Kind.recov.injective]
        exact notLater
      · simp [Port.sibling]
    · exact pure rfl

theorem updateDB (resp : Bytes) :
    (Lab3.updateDB resp).Local .work (fun _ phase => phase = postedOn [])
      (postedOn []) := by
  rw [Lab3.updateDB]
  refine read (fun co co' agree => ?_) fun co => ?_
  · rw [agree.txid, agree.ids]
  refine write (.shared (fun _ => ?_) (fun _ => ?_) (fun _ => ?_)
    (fun _ => ?_) (fun _ _ txid _ => ?_) (fun _ _ txid lg => ?_) _ _) ?_
  · rfl
  · exact le_rfl
  · rfl
  · exact ⟨rfl, rfl⟩
  · exact txid
  · dsimp only
    rw [txid, lg]
  refine bind (postAll (fun _ _ => rfl) .work _ _ []) fun _ phase posted => ?_
  rw [posted, List.append_nil]
  refine bind (collectVotes co.nodup_ids false) fun vote phase idle => ?_
  rw [idle]
  split
  · refine bind (postAll (fun _ _ => rfl) .work _ _ [])
      fun _ phase posted => ?_
    rw [posted, List.append_nil]
    refine bind (collectCommits co.nodup_ids _) fun done phase idle => ?_
    rw [idle]
    dsimp only
    split
    · refine read (fun co co' agree => ?_) fun co => ?_
      · rw [agree.txid, agree.lg]
      split
      · trivial
      refine write (.shared (fun _ => ?_) (fun _ => ?_) (fun _ => ?_)
        (fun _ => ?_) (fun _ _ txid _ => ?_) (fun _ _ _ _ => ?_) _ _) (pure rfl)
      · rfl
      · exact Nat.le_succ _
      · rfl
      · exact ⟨rfl, rfl⟩
      · dsimp only
        rw [txid]
      · rfl
    · exact pure rfl
  · exact pure rfl

theorem requestFrom (resp : Bytes) (ids : List Nat) :
    (Lab3.requestFrom resp ids).Local .work
      (fun _ phase => phase = postedOn []) (postedOn []) := by
  induction ids with
  | nil => exact pure rfl
  | cons id ids inductionHypothesis =>
      refine postCollect (.work id) (fun _ => rfl) _ fun outcome => ?_
      dsimp only
      split
      · exact pure rfl
      · exact inductionHypothesis

theorem request (resp : Bytes) :
    (Lab3.request resp).Local .work (fun _ phase => phase = postedOn [])
      (postedOn []) := by
  refine read (fun co co' agree => ?_) fun co => requestFrom resp co.ids
  rw [agree.ids]

theorem pushAll (text : Bytes) (ids : List Nat) :
    (Lab3.pushAll text ids).Local .recovery
      (fun _ phase => phase = postedOn []) (postedOn []) := by
  induction ids with
  | nil => exact pure rfl
  | cons id ids inductionHypothesis =>
      exact postCollect (.recov id)
        (fun isWork => Mode.noConfusion isWork) _
        fun _ => inductionHypothesis

theorem pushRecord (tid : Nat) (ids : List Nat) :
    (Lab3.pushRecord tid ids).Local .recovery
      (fun _ phase => phase = postedOn []) (postedOn []) := by
  induction ids with
  | nil => exact pure rfl
  | cons id ids inductionHypothesis =>
      refine read (fun co co' agree => ?_) fun co => ?_
      · rw [agree.lg]
      split
      · trivial
      · exact postCollect (.recov id)
          (fun isWork => Mode.noConfusion isWork) _
          fun _ => inductionHypothesis

theorem recoveryFromCLoop (ids : List Nat) (count tid : Nat) :
    (Lab3.recoveryFromCLoop ids count tid).Local .recovery
      (fun _ phase => phase = postedOn []) (postedOn []) := by
  induction count generalizing tid with
  | zero => exact pure rfl
  | succ count inductionHypothesis =>
      refine bind (pushRecord tid ids) fun _ phase idle => ?_
      rw [idle]
      exact inductionHypothesis (tid + 1)

theorem recoveryFromC :
    Lab3.recoveryFromC.Local .recovery (fun _ phase => phase = postedOn [])
      (postedOn []) := by
  refine read (fun co co' agree => ?_) fun co => recoveryFromCLoop co.ids _ _
  rw [agree.ids, agree.txid]

/-- The coordinator takes over a fetched record. -/
theorem confined_adopt (tempLog : Log) :
    Confined .recovery (postedOn []) fun co =>
      if tempLog.ID = co.txid then
        { co with lg := co.lg.writeLog tempLog, txid := co.txid + 1 }
      else co := by
  refine .ofRecovery (fun _ => ?_) (fun _ => ?_)
    (fun co co' cstate tmpNum => ?_) (fun _ _ txid _ => ?_)
    (fun _ _ txid lg => ?_) fun _ _ txid entry => ?_
  · split
    · rfl
    · rfl
  · split
    · exact Nat.le_succ _
    · exact le_rfl
  · have same : ∀ co : Coordinator,
        (if tempLog.ID = co.txid then
          { co with lg := co.lg.writeLog tempLog, txid := co.txid + 1 }
        else co).cstate = co.cstate ∧
        (if tempLog.ID = co.txid then
          { co with lg := co.lg.writeLog tempLog, txid := co.txid + 1 }
        else co).tmpNum = co.tmpNum := by
      intro co
      split
      · exact ⟨rfl, rfl⟩
      · exact ⟨rfl, rfl⟩
    rw [(same co).1, (same co).2, (same co').1, (same co').2]
    exact ⟨cstate, tmpNum⟩
  · rw [txid]
    split
    · rfl
    · exact txid
  · rw [txid]
    split
    · dsimp only
      rw [lg]
    · exact lg
  · rw [txid]
    split
    · exact entry
    · exact entry

theorem fetchLoop (leader : Nat) (ids : List Nat) (count minID : Nat) :
    (Lab3.fetchLoop leader ids count minID).Local .recovery
      (fun _ phase => phase = postedOn []) (postedOn []) := by
  induction count generalizing minID with
  | zero => exact pure rfl
  | succ count inductionHypothesis =>
      refine postCollect (.work leader)
        (fun isWork => Mode.noConfusion isWork) _ fun outcome => ?_
      dsimp only
      split
      · split
        · trivial
        · refine write (confined_adopt _) ?_
          refine bind (pushAll _ ids) fun _ phase idle => ?_
          rw [idle]
          exact inductionHypothesis (minID + 1)
      · exact pure rfl

theorem recoveryFromPLoop (ids : List Nat) (rounds minID : Nat) :
    (Lab3.recoveryFromPLoop ids rounds minID).Local .recovery
      (fun _ phase => phase = postedOn []) (postedOn []) := by
  induction rounds generalizing minID with
  | zero => trivial
  | succ rounds inductionHypothesis =>
      refine read (fun co co' agree => ?_) fun co => ?_
      · have same : co'.getRecoveryLeader = co.getRecoveryLeader := by
          rw [Coordinator.getRecoveryLeader, Coordinator.getRecoveryLeader,
            agree.ids, agree.txid, agree.entries]
        rw [same]
      dsimp only
      split
      · exact recoveryFromC
      · refine write (.ofRecovery (fun _ => ?_) (fun _ => ?_)
          (fun _ _ cstate tmpNum => ?_) (fun _ _ txid _ => ?_)
          (fun _ _ _ lg => ?_) fun _ _ _ entry => ?_) ?_
        · rfl
        · exact le_rfl
        · exact ⟨cstate, tmpNum⟩
        · exact txid
        · exact lg
        · simp only [Coordinator.setEntry, entry]
        refine bind (fetchLoop _ ids _ _) fun minID phase idle => ?_
        rw [idle]
        exact inductionHypothesis minID

theorem recoveryFromP (min : Nat) :
    (Lab3.recoveryFromP min).Local .recovery
      (fun _ phase => phase = postedOn []) (postedOn []) := by
  refine read (fun co co' agree => ?_) fun co => recoveryFromPLoop co.ids _ _
  rw [agree.ids, agree.pnum]

theorem confined_enterRecovery :
    Confined .recovery (postedOn []) enterRecovery := by
  refine .ofRecovery (fun _ => rfl) (fun _ => le_rfl)
    (fun _ _ cstate tmpNum => ⟨cstate, tmpNum⟩)
    (fun _ _ txid _ => txid) (fun _ _ _ lg => lg) fun co co' _ entry => ?_
  simp only [enterRecovery, entry]

theorem confined_leaveRecovery :
    Confined .recovery (postedOn []) leaveRecovery := by
  refine .ofRecovery (fun _ => rfl) (fun _ => le_rfl)
    (fun _ _ cstate _ => ⟨cstate, rfl⟩)
    (fun _ _ txid _ => txid) (fun _ _ _ lg => lg) fun co co' txid entry => ?_
  simp only [leaveRecovery, txid, entry]

theorem recoveryBody (minID : Nat) :
    (Lab3.recoveryBody minID).Local .recovery
      (fun _ phase => phase = postedOn []) (postedOn []) := by
  rw [Lab3.recoveryBody]
  refine write confined_enterRecovery
    (read (fun co co' agree => ?_) fun co => ?_)
  · rw [agree.ids]
  refine bind (postAll (fun isWork => Mode.noConfusion isWork) .recov _ _ [])
    fun _ phase posted => ?_
  rw [posted, List.append_nil]
  refine bind (collectTxids co.nodup_ids true) fun consistance phase idle => ?_
  rw [idle]
  split
  · exact ⟨confined_leaveRecovery, rfl⟩
  · refine read (fun co co' agree => ?_) fun co => ?_
    · have same : leastTxid co' minID = leastTxid co minID := by
        rw [leastTxid, leastTxid, agree.ids, agree.entries]
      rw [same]
    refine bind (recoveryFromP _) fun _ phase idle => ?_
    rw [idle]
    exact ⟨confined_leaveRecovery, rfl⟩

end Prog.Local

/-- The mode in which a function is called. -/
def Call.mode : Call → Mode
  | .update _ => .work
  | .request _ => .work
  | .recovery _ => .recovery

/-- Every function that is called reads and writes only what it may. -/
theorem local_call (call : Call) :
    call.prog.Local call.mode (fun _ phase => phase = postedOn [])
      (postedOn []) := by
  cases call with
  | update resp => exact .bind (.updateDB resp) fun _ _ idle => idle
  | request resp => exact .bind (.request resp) fun _ _ idle => idle
  | recovery minID => exact .recoveryBody minID

end Lab3
end CloudComputing
