import CloudComputing.Lab3.Locality
import CloudComputing.Lab3.Recovery

/-!
# Recovery promotes no waiting participant

A participant that waits may just be connected by `keepAlive`.  `Recovery` puts
a participant to work only if it is in the table, and enters one into the table
only after an exchange that succeeded, so one that waits stays so.  What a
worker may do in between is part of the argument: `Prog.Guarded` describes a
program from the variables that the thread has last seen.
-/

namespace CloudComputing
namespace Lab3

open CloudComputing.Lab3.Parser

/-- No participant that waits is in the table. -/
def Coordinator.Waits (co : Coordinator) : Prop :=
  ∀ id, (co.entry id).pstate = .waiting → (co.entry id).maxTxid = none

/-- The participant is neither in the table nor in recovery. -/
structure Entry.Unlisted (entry : Entry) : Prop where
  pstate : entry.pstate ≠ .recovery
  maxTxid : entry.maxTxid = none

/-- No participant has been put into the table or into recovery. -/
def Keeps (co co' : Coordinator) : Prop :=
  ∀ id, (co.entry id).Unlisted → (co'.entry id).Unlisted

/-- What workers with a posted task have made of the variables. -/
structure Rely
    (phase : Port → Phase)
    (seen co : Coordinator) : Prop where
  waits : co.Waits
  keeps : Keeps seen co
  entry : ∀ id, Unposted phase id → co.entry id = seen.entry id

/-- An assignment lets waiting participants wait. -/
structure Steady (co co' : Coordinator) : Prop where
  waiting : ∀ id, (co.entry id).pstate = .waiting →
    (co'.entry id).pstate = .waiting
  waits : co'.Waits

/-- A participant that has answered does not wait. -/
def Answered (port : Port) (co : Coordinator) : Prop :=
  (result port co).1 = kvOk → (co.entry port.id).pstate ≠ .waiting

theorem Answered.of_same
    {port : Port}
    {co co' : Coordinator}
    (answered : Answered port co)
    (same : co'.entry port.id = co.entry port.id) :
    Answered port co' := by
  unfold Answered at answered ⊢
  rw [result_of_slots (congrArg Entry.slots same), same]
  exact answered

namespace Rely

variable {phase : Port → Phase} {seen co : Coordinator}

theorem refl (waits : co.Waits) : Rely phase co co :=
  ⟨waits, fun _ unlisted => unlisted, fun _ _ => rfl⟩

/-- Without posted tasks nothing has changed. -/
theorem entries (rely : Rely (postedOn []) seen co) : co.entry = seen.entry := by
  funext id
  exact rely.entry id (unposted_nil id)

end Rely

theorem Keeps.trans
    {first second third : Coordinator}
    (before : Keeps first second)
    (after : Keeps second third) :
    Keeps first third :=
  fun id unlisted => after id (before id unlisted)

/-- The states and the table are as before. -/
theorem Steady.of_same
    {co co' : Coordinator}
    (waits : co.Waits)
    (pstate : ∀ id, (co'.entry id).pstate = (co.entry id).pstate)
    (maxTxid : ∀ id, (co'.entry id).maxTxid = (co.entry id).maxTxid) :
    Steady co co' where
  waiting := by
    intro id waiting
    rw [pstate]
    exact waiting
  waits := by
    intro id waiting
    rw [pstate] at waiting
    rw [maxTxid]
    exact waits id waiting

/-- One participant changes, and it does not wait. -/
theorem Steady.setEntry
    {co : Coordinator}
    (waits : co.Waits)
    {id : Nat}
    (awake : (co.entry id).pstate ≠ .waiting)
    {entry : Entry}
    (awake' : entry.pstate ≠ .waiting) :
    Steady co (co.setEntry id entry) where
  waiting := by
    intro other waiting
    rw [Coordinator.setEntry_entry, if_neg]
    · exact waiting
    · rintro rfl
      exact awake waiting
  waits := by
    intro other waiting
    rw [Coordinator.setEntry_entry] at waiting ⊢
    split at waiting
    · exact absurd waiting awake'
    · rename_i different
      rw [if_neg different]
      exact waits other waiting

namespace Prog

variable {α β : Type}

/-- A program that lets waiting participants wait and gives tasks of `pWorking`
only to participants outside the table, from the variables that it has seen,
with a postcondition. -/
def Guarded (post : α → (Port → Phase) → Coordinator → Prop) :
    (Port → Phase) → Coordinator → Prog α → Prop
  | phase, seen, .ret value => ∀ co, Rely phase seen co → post value phase co
  | _, _, .fail => True
  | phase, seen, .get next =>
      ∀ co, Rely phase seen co → (next co).Guarded post phase co
  | phase, seen, .modify change next =>
      ∀ co, Rely phase seen co →
        Steady co (change co) ∧ next.Guarded post phase (change co)
  | phase, seen, .lock op port next =>
      ∀ co, Rely phase seen co → (op = .cGet → Answered port co) →
        (op = .pRelease → ∀ id, port = .work id → (co.entry id).Unlisted) ∧
          next.Guarded post (Function.update phase port op.after) co

namespace Guarded

/-- Nothing is known of the variables but what the thread has seen. -/
theorem of_rely
    {post : α → (Port → Phase) → Coordinator → Prop}
    {phase : Port → Phase}
    {seen : Coordinator}
    {prog : Prog α}
    (guarded : ∀ co, Rely phase seen co → prog.Guarded post phase co) :
    prog.Guarded post phase seen := by
  cases prog with
  | ret value =>
      exact fun co rely => guarded co rely co (.refl rely.waits)
  | fail => trivial
  | get next => exact fun co rely => guarded co rely co (.refl rely.waits)
  | modify change next =>
      exact fun co rely => guarded co rely co (.refl rely.waits)
  | lock op port next =>
      exact fun co rely => guarded co rely co (.refl rely.waits)

/-- The rule of sequential composition. -/
theorem bind
    {middle : α → (Port → Phase) → Coordinator → Prop}
    {post : β → (Port → Phase) → Coordinator → Prop}
    {phase : Port → Phase}
    {seen : Coordinator}
    {first : Prog α}
    {second : α → Prog β}
    (before : first.Guarded middle phase seen)
    (after : ∀ value phase co, middle value phase co →
      (second value).Guarded post phase co) :
    (first >>= second).Guarded post phase seen := by
  change (Prog.bind first second).Guarded post phase seen
  induction first generalizing phase seen with
  | ret value =>
      exact of_rely fun co rely => after value phase co (before co rely)
  | fail => trivial
  | get next inductionHypothesis =>
      exact fun co rely => inductionHypothesis co (before co rely)
  | modify change next inductionHypothesis =>
      intro co rely
      obtain ⟨steady, rest⟩ := before co rely
      exact ⟨steady, inductionHypothesis rest⟩
  | lock op port next inductionHypothesis =>
      intro co rely answered
      obtain ⟨unlisted, rest⟩ := before co rely answered
      exact ⟨unlisted, inductionHypothesis rest⟩

theorem mono
    {post post' : α → (Port → Phase) → Coordinator → Prop}
    (weaker : ∀ value phase co, post value phase co → post' value phase co)
    {phase : Port → Phase}
    {seen : Coordinator}
    {prog : Prog α}
    (guarded : prog.Guarded post phase seen) :
    prog.Guarded post' phase seen := by
  induction prog generalizing phase seen with
  | ret value =>
      exact fun co rely => weaker value phase co (guarded co rely)
  | fail => trivial
  | get next inductionHypothesis =>
      exact fun co rely => inductionHypothesis co (guarded co rely)
  | modify change next inductionHypothesis =>
      intro co rely
      obtain ⟨steady, rest⟩ := guarded co rely
      exact ⟨steady, inductionHypothesis rest⟩
  | lock op port next inductionHypothesis =>
      intro co rely answered
      obtain ⟨unlisted, rest⟩ := guarded co rely answered
      exact ⟨unlisted, inductionHypothesis rest⟩

theorem pure
    {post : α → (Port → Phase) → Coordinator → Prop}
    {phase : Port → Phase}
    {seen : Coordinator}
    {value : α}
    (holds : ∀ co, post value phase co) :
    (Pure.pure value : Prog α).Guarded post phase seen :=
  fun co _ => holds co

theorem read
    {post : α → (Port → Phase) → Coordinator → Prop}
    {phase : Port → Phase}
    {seen : Coordinator}
    {next : Coordinator → Prog α}
    (after : ∀ co, Rely phase seen co → (next co).Guarded post phase co) :
    (Prog.read >>= next).Guarded post phase seen :=
  after

theorem write
    {post : α → (Port → Phase) → Coordinator → Prop}
    {phase : Port → Phase}
    {seen : Coordinator}
    {change : Coordinator → Coordinator}
    (steady : ∀ co, Rely phase seen co → Steady co (change co))
    {next : Unit → Prog α}
    (after : ∀ co, Rely phase seen co →
      (next ()).Guarded post phase (change co)) :
    (Prog.write change >>= next).Guarded post phase seen :=
  fun co rely => ⟨steady co rely, after co rely⟩

/-! ## The programs of a recovery -/

/-- The coordinating thread has the locks of no port. -/
abbrev free (_ : α) (phase : Port → Phase) (_ : Coordinator) : Prop :=
  phase = postedOn []

/-- Storing a task changes neither a state nor the table. -/
theorem setTask_same
    (port : Port)
    (text : Bytes)
    (co : Coordinator)
    (id : Nat) :
    ((setTask port text co).entry id).pstate = (co.entry id).pstate ∧
      ((setTask port text co).entry id).maxTxid = (co.entry id).maxTxid := by
  cases port with
  | work other =>
      simp only [setTask, Coordinator.setEntry_entry]
      split
      · rename_i same
        rw [same]
        exact ⟨rfl, rfl⟩
      · exact ⟨rfl, rfl⟩
  | recov other =>
      simp only [setTask, Coordinator.setEntry_entry]
      split
      · rename_i same
        rw [same]
        exact ⟨rfl, rfl⟩
      · exact ⟨rfl, rfl⟩

/-- Posting a task. -/
theorem post
    (ports : List Port)
    (port : Port)
    (text : Bytes)
    {seen : Coordinator}
    (unlisted : ∀ id, port = .work id → (seen.entry id).Unlisted) :
    (Lab3.post port text).Guarded
      (fun _ phase co => phase = postedOn (port :: ports) ∧ Keeps seen co)
      (postedOn ports) seen := by
  intro co₁ rely₁ _
  refine ⟨fun isRelease => LockOp.noConfusion isRelease, fun co₂ rely₂ => ?_⟩
  have same := setTask_same port text co₂
  have stored : Keeps co₂ (setTask port text co₂) := by
    intro id outside
    obtain ⟨pstate, maxTxid⟩ := same id
    exact ⟨fun recovering => outside.pstate (pstate.symm.trans recovering),
      maxTxid.trans outside.maxTxid⟩
  refine ⟨.of_same rely₂.waits (fun id => (same id).1) fun id => (same id).2,
    fun co₃ rely₃ _ => ?_⟩
  have kept : Keeps seen co₃ :=
    ((rely₁.keeps.trans rely₂.keeps).trans stored).trans rely₃.keeps
  refine ⟨fun _ id own => kept id (unlisted id own), fun co₄ rely₄ => ⟨?_, ?_⟩⟩
  · simp only [LockOp.after, Function.update_idem]
    exact update_postedOn ports port
  · exact kept.trans rely₄.keeps

/-- Collecting a result: the participant does not wait, if it has answered. -/
theorem collect
    {ports : List Port}
    {port : Port}
    (fresh : port ∉ ports)
    (single : port.sibling ∉ ports)
    (seen : Coordinator) :
    (Lab3.collect port).Guarded
      (fun outcome phase co => phase = postedOn ports ∧
        (outcome.1 = kvOk → (co.entry port.id).pstate ≠ .waiting) ∧
        Keeps seen co)
      (postedOn (port :: ports)) seen := by
  have different : port.sibling ≠ port := by
    cases port with
    | work id => exact Port.noConfusion
    | recov id => exact Port.noConfusion
  have reading : Unposted
      (Function.update (postedOn (port :: ports)) port .reading) port.id :=
    Local.unposted_update _ (by simp [different, single]) Phase.noConfusion
  have idle : Function.update (Function.update (postedOn (port :: ports)) port
      .reading) port .idle = postedOn ports := by
    rw [Function.update_idem]
    exact update_postedOn_cons fresh
  intro co₁ rely₁ answered
  refine ⟨fun isRelease => LockOp.noConfusion isRelease, ?_⟩
  intro co₂ rely₂ co₃ rely₃ _
  refine ⟨fun isRelease => LockOp.noConfusion isRelease, ?_⟩
  intro co₄ rely₄
  have phase : Function.update (Function.update (postedOn (port :: ports)) port
      LockOp.cGet.after) port LockOp.cRelease.after = postedOn ports := idle
  refine ⟨phase, fun isOk => ?_, ((rely₁.keeps.trans rely₂.keeps).trans
    rely₃.keeps).trans rely₄.keeps⟩
  rw [phase] at rely₄
  have entry₂ := rely₂.entry port.id reading
  have entry₃ := rely₃.entry port.id reading
  have entry₄ := rely₄.entry port.id (Local.unposted_of_ports port fresh single)
  have same : result port co₂ = result port co₁ := by
    apply result_of_slots
    rw [entry₂]
  rw [entry₄, entry₃, entry₂]
  refine answered rfl ?_
  rw [← same]
  exact isOk

/-- A task whose result is collected before anything else. -/
theorem postCollect
    (port : Port)
    (text : Bytes)
    {next : Int × Bytes → Prog α}
    {post : α → (Port → Phase) → Coordinator → Prop}
    {seen : Coordinator}
    (unlisted : ∀ id, port = .work id → (seen.entry id).Unlisted)
    (after : ∀ outcome co, Keeps seen co →
      (next outcome).Guarded post (postedOn []) co) :
    (Lab3.post port text >>= fun _ => Lab3.collect port >>= next).Guarded
      post (postedOn []) seen := by
  refine bind (Guarded.post [] port text unlisted) fun _ phase co posted => ?_
  rw [posted.1]
  refine bind (collect (by simp) (by simp) co) fun outcome phase co' idle => ?_
  rw [idle.1]
  exact after outcome co' (posted.2.trans idle.2.2)

theorem postAll
    (text : Bytes)
    (ids done : List Nat)
    (seen : Coordinator) :
    (Lab3.postAll .recov text ids).Guarded
      (fun _ phase _ => phase = postedOn ((ids ++ done).map .recov))
      (postedOn (done.map .recov)) seen := by
  induction ids generalizing done seen with
  | nil => exact pure fun _ => rfl
  | cons id ids inductionHypothesis =>
      rw [Lab3.postAll]
      refine bind (Guarded.post (done.map .recov) (.recov id) text
        fun _ own => Port.noConfusion own) fun _ phase co posted => ?_
      rw [posted.1]
      refine mono ?_ (inductionHypothesis (id :: done) co)
      intro _ phase' _ posted'
      rw [posted']
      apply postedOn_congr
      intro other
      simp only [List.map_append, List.map_cons, List.mem_append,
        List.mem_cons]
      tauto

/-- Only participants that have answered get into the table. -/
theorem collectTxids
    {ids : List Nat}
    (nodup : ids.Nodup)
    (consistance : Bool)
    (seen : Coordinator) :
    (Lab3.collectTxids ids consistance).Guarded free
      (postedOn (ids.map .recov)) seen := by
  induction ids generalizing consistance seen with
  | nil => exact pure fun _ => rfl
  | cons id ids inductionHypothesis =>
      obtain ⟨notLater, nodupRest⟩ := List.nodup_cons.mp nodup
      have fresh : Port.recov id ∉ ids.map .recov := by
        rw [List.mem_map_of_injective Follows.Kind.recov.injective]
        exact notLater
      have single : (Port.recov id).sibling ∉ ids.map .recov := by
        simp [Port.sibling]
      have unposted : Unposted (postedOn (ids.map .recov)) id :=
        Local.unposted_of_ports (.recov id) fresh single
      rw [Follows.collectTxids_cons]
      refine bind (collect fresh single seen) fun outcome phase co done => ?_
      rw [done.1]
      have stored : (Follows.storeTxid id consistance outcome).Guarded
          (fun _ phase _ => phase = postedOn (ids.map .recov))
          (postedOn (ids.map .recov)) co := by
        refine read fun co₁ rely₁ => ?_
        split
        · rename_i answered
          refine write (fun co₂ rely₂ => ?_) fun _ _ => pure fun _ => rfl
          have awake : (co₂.entry id).pstate ≠ .waiting := by
            rw [rely₂.entry id unposted, rely₁.entry id unposted]
            exact done.2.1 answered.1
          exact .setEntry rely₂.waits awake awake
        · exact pure fun _ => rfl
      refine bind stored fun consistance phase co same => ?_
      rw [same]
      exact inductionHypothesis nodupRest consistance co

theorem pushAll (text : Bytes) (ids : List Nat) (seen : Coordinator) :
    (Lab3.pushAll text ids).Guarded
      (fun _ phase co => phase = postedOn [] ∧ Keeps seen co) (postedOn [])
      seen := by
  induction ids generalizing seen with
  | nil => exact fun co rely => ⟨rfl, rely.keeps⟩
  | cons id ids inductionHypothesis =>
      refine postCollect (.recov id) text (fun _ own => Port.noConfusion own)
        fun _ co kept => ?_
      refine mono ?_ (inductionHypothesis co)
      exact fun _ _ _ done => ⟨done.1, kept.trans done.2⟩

theorem pushRecord (tid : Nat) (ids : List Nat) (seen : Coordinator) :
    (Lab3.pushRecord tid ids).Guarded free (postedOn []) seen := by
  induction ids generalizing seen with
  | nil => exact pure fun _ => rfl
  | cons id ids inductionHypothesis =>
      refine read fun co _ => ?_
      split
      · trivial
      · exact postCollect (.recov id) _ (fun _ own => Port.noConfusion own)
          fun _ co _ => inductionHypothesis co

theorem recoveryFromCLoop
    (ids : List Nat)
    (count tid : Nat)
    (seen : Coordinator) :
    (Lab3.recoveryFromCLoop ids count tid).Guarded free (postedOn []) seen := by
  induction count generalizing tid seen with
  | zero => exact pure fun _ => rfl
  | succ count inductionHypothesis =>
      refine bind (pushRecord tid ids seen) fun _ phase co idle => ?_
      rw [idle]
      exact inductionHypothesis (tid + 1) co

theorem recoveryFromC (seen : Coordinator) :
    Lab3.recoveryFromC.Guarded free (postedOn []) seen :=
  fun co _ => recoveryFromCLoop co.ids _ _ co

/-- The leader stays outside the table: its `pRecovery` skips the records. -/
theorem fetchLoop
    (leader : Nat)
    (ids : List Nat)
    (count minID : Nat)
    {seen : Coordinator}
    (unlisted : (seen.entry leader).Unlisted) :
    (Lab3.fetchLoop leader ids count minID).Guarded free (postedOn [])
      seen := by
  induction count generalizing minID seen with
  | zero => exact pure fun _ => rfl
  | succ count inductionHypothesis =>
      refine postCollect (.work leader) _ ?_ fun outcome co kept => ?_
      · rintro id ⟨rfl⟩
        exact unlisted
      dsimp only
      split
      · split
        · trivial
        · refine write (fun co' rely => ?_) fun co' rely => ?_
          · split
            · exact .of_same rely.waits (fun _ => rfl) fun _ => rfl
            · exact .of_same rely.waits (fun _ => rfl) fun _ => rfl
          · refine bind (pushAll _ ids _) fun _ phase co'' done => ?_
            rw [done.1]
            refine inductionHypothesis (minID + 1) (done.2 leader ?_)
            have before := rely.keeps leader (kept leader unlisted)
            split
            · exact before
            · exact before
      · exact pure fun _ => rfl

/-- A leader is in the table. -/
theorem recoveryFromPLoop
    (ids : List Nat)
    (rounds minID : Nat)
    (seen : Coordinator) :
    (Lab3.recoveryFromPLoop ids rounds minID).Guarded free (postedOn [])
      seen := by
  induction rounds generalizing minID seen with
  | zero => trivial
  | succ rounds inductionHypothesis =>
      refine read fun co rely => ?_
      dsimp only
      split
      · exact recoveryFromC co
      · rename_i isLeader
        refine write (fun co' rely' => ?_) fun co' _ => ?_
        · obtain ⟨max, leader, found, _, choice⟩ := getRecoveryLeader_spec co
          rw [found] at isLeader ⊢
          rcases choice with ⟨none, _⟩ | ⟨_, _, number, _⟩
          · exact absurd none isLeader
          · have awake : (co'.entry leader).pstate ≠ .waiting := by
              intro waiting
              have absent := rely'.waits leader waiting
              rw [rely'.entries, number] at absent
              cases absent
            exact .setEntry rely'.waits awake PState.noConfusion
        · refine bind (fetchLoop _ ids _ _ ?_) fun minID phase co'' idle => ?_
          · rw [Coordinator.setEntry_entry, if_pos rfl]
            exact ⟨PState.noConfusion, rfl⟩
          · rw [idle]
            exact inductionHypothesis minID co''

theorem recoveryFromP (min : Nat) (seen : Coordinator) :
    (Lab3.recoveryFromP min).Guarded free (postedOn []) seen :=
  fun co _ => recoveryFromPLoop co.ids _ _ co

theorem steady_enterRecovery
    {co : Coordinator}
    (waits : co.Waits) :
    Steady co (enterRecovery co) := by
  have kept : ∀ id, (co.entry id).pstate = .waiting →
      (enterRecovery co).entry id = co.entry id := by
    intro id waiting
    simp [enterRecovery, waiting]
  constructor
  · intro id waiting
    rw [kept id waiting]
    exact waiting
  · intro id waiting
    have before : (co.entry id).pstate = .waiting := by
      unfold enterRecovery at waiting
      dsimp only at waiting
      split at waiting
      · cases waiting
      · exact waiting
    rw [kept id before]
    exact waits id before

theorem steady_leaveRecovery
    {co : Coordinator}
    (waits : co.Waits) :
    Steady co (leaveRecovery co) := by
  have kept : ∀ id, (co.entry id).pstate = .waiting →
      (leaveRecovery co).entry id = co.entry id := by
    intro id waiting
    simp [leaveRecovery, waits id waiting]
  constructor
  · intro id waiting
    rw [kept id waiting]
    exact waiting
  · intro id waiting
    have before : (co.entry id).pstate = .waiting := by
      unfold leaveRecovery at waiting
      dsimp only at waiting
      split at waiting
      · cases waiting
      · exact waiting
    rw [kept id before]
    exact waits id before

theorem recoveryBody (minID : Nat) (seen : Coordinator) :
    (Lab3.recoveryBody minID).Guarded free (postedOn []) seen := by
  rw [Lab3.recoveryBody]
  refine write (fun co rely => steady_enterRecovery rely.waits) fun co _ => ?_
  refine read fun co₁ _ => ?_
  refine bind (postAll _ _ [] co₁) fun _ phase co₂ posted => ?_
  rw [posted, List.append_nil]
  refine bind (collectTxids co₁.nodup_ids true co₂)
    fun consistance phase co₃ idle => ?_
  rw [show phase = postedOn [] from idle]
  split
  · exact write (fun co rely => steady_leaveRecovery rely.waits)
      fun _ _ => pure fun _ => rfl
  · refine read fun co₄ _ => ?_
    refine bind (recoveryFromP _ co₄) fun _ phase co₅ idle => ?_
    rw [show phase = postedOn [] from idle]
    exact write (fun co rely => steady_leaveRecovery rely.waits)
      fun _ _ => pure fun _ => rfl

end Guarded
end Prog

end Lab3
end CloudComputing
