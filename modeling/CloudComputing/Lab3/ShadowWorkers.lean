import CloudComputing.Lab3.ShadowProgram

/-!
# Steps of the workers beside prompt workers

When a worker leaves its task, the fate of its exchange is known, and the
participant has done the same in both executions.
-/

namespace CloudComputing
namespace Lab3

open CloudComputing.Lab3.Parser Network

/-! ## Entries -/

/-- A worker has put nobody into the table who waits or is not in recovery. -/
structure Entry.Calm (entry entry' : Entry) : Prop where
  waits : (entry.pstate = .waiting → entry.maxTxid = none) →
    entry'.pstate = .waiting → entry'.maxTxid = none
  unlisted : entry.Unlisted → entry'.Unlisted

namespace Entry

theorem Calm.of_same
    {entry entry' : Entry}
    (pstate : entry'.pstate = entry.pstate)
    (maxTxid : entry'.maxTxid = entry.maxTxid) :
    Calm entry entry' where
  waits := by
    rw [pstate, maxTxid]
    exact id
  unlisted := by
    intro unlisted
    constructor
    · rw [pstate]
      exact unlisted.pstate
    · rw [maxTxid]
      exact unlisted.maxTxid

theorem Calm.trans
    {first second third : Entry}
    (before : Calm first second)
    (after : Calm second third) :
    Calm first third where
  waits := fun waits => after.waits (before.waits waits)
  unlisted := fun unlisted => after.unlisted (before.unlisted unlisted)

theorem calm_admits
    {port : Port}
    {entry entry' : Entry}
    {goesOn : Bool}
    (admitted : entry.admits port = some (goesOn, entry')) :
    Calm entry entry' := by
  cases port with
  | work id =>
      simp only [admits, Option.some.injEq, Prod.mk.injEq] at admitted
      exact admitted.2 ▸ .of_same rfl rfl
  | recov id =>
      by_cases recovering : entry.pstate = .recovery
      · have same := (admits_recov admitted).1
        constructor
        · intro _ waiting
          rw [same, recovering] at waiting
          cases waiting
        · exact fun unlisted => absurd recovering unlisted.pstate
      · simp only [admits, if_pos recovering, Option.some.injEq,
          Prod.mk.injEq] at admitted
        exact admitted.2 ▸ .of_same rfl rfl

theorem calm_skip (port : Port) (entry : Entry) :
    Calm entry (entry.skip port) := by
  cases port with
  | work id => exact .of_same rfl rfl
  | recov id => exact .of_same rfl rfl

/-- A failed participant leaves the table, if it has been in it. -/
theorem calm_store
    {port : Port}
    {entry : Entry}
    (recovering : ∀ id, port = .recov id → entry.pstate = .recovery)
    (leads : ∀ id, port = .work id → entry.Unlisted)
    (rc : Int)
    (rmsg : Bytes) :
    Calm entry (entry.store port rc rmsg) := by
  cases port with
  | work id =>
      have unlisted := leads id rfl
      simp only [store]
      split
      · exact ⟨fun _ _ => unlisted.maxTxid,
          fun _ => ⟨PState.noConfusion, unlisted.maxTxid⟩⟩
      · exact .of_same rfl rfl
  | recov id =>
      have same := recovering id rfl
      constructor
      · intro _ waiting
        simp only [store] at waiting ⊢
        split
        · rfl
        · rename_i isOk
          rw [if_neg isOk] at waiting
          split at waiting
          · rw [same] at waiting
            cases waiting
          · rw [same] at waiting
            cases waiting
      · exact fun unlisted => absurd same unlisted.pstate

end Entry

namespace Threads

variable
  {mode : Mode}
  {post : Sys → Prop}
  {t t' : Threads}
  {port : Port}
  {base : Coordinator}
  {node : Nat → Node}

/-! ## Between two tasks -/

/-- A worker goes on outside its task. -/
theorem Sim.move
    (sim : t.Sim mode post)
    (before : (t.worker port).Outside)
    {pc : WorkerPc}
    (outside : pc.Outside)
    {sems : Semaphore.Values (Port × Side)}
    (own : sems (port, .task) .full + pc.undone port =
      t.sems (port, .task) .full + (t.worker port).undone port)
    (frame : ∀ other side, other ≠ port →
      sems (other, side) .full = t.sems (other, side) .full) :
    Sim mode post
      { t with sems := sems, worker := Function.update t.worker port pc } := by
  refine sim.frame rfl rfl rfl rfl (fun other => ?_) fun other number text => ?_
  · unfold Busy
    by_cases isOwn : other = port
    · simp only [isOwn, Function.update_self, own]
    · simp only [Function.update_of_ne isOwn, frame other .task isOwn]
  · change Function.update t.worker port pc other = .exchange number text ↔ _
    by_cases isOwn : other = port
    · rw [isOwn, Function.update_self]
      exact iff_of_false (outside number text) (before number text)
    · rw [Function.update_of_ne isOwn]

theorem Sim.acquire
    (sim : t.Sim mode post)
    (ok : t.Ok)
    {op : Semaphore.Op (Port × Side)}
    {rest : List (Semaphore.Op (Port × Side))}
    (isLocking : t.worker port = .locking (op :: rest))
    {sems : Semaphore.Values (Port × Side)}
    (applied : op.apply t.sems = some sems) :
    Sim mode post
      { t with
        sems := sems
        worker := Function.update t.worker port (.locking rest) } := by
  have placed := (ok.ports port).placed
  rw [isLocking] at placed
  have suffix : op :: rest <:+ port.acquires := by
    cases placed with
    | locking suffix => exact suffix
  obtain ⟨token, gives, _, _⟩ := Port.acquire_token suffix
  have balance := Semaphore.Op.balance applied (port, .task) .full
  refine sim.move ?_ (WorkerPc.outside_locking rest) ?_
    (frame_full applied (.inl (suffix.subset (List.mem_cons_self ..))))
  · rw [isLocking]
    exact WorkerPc.outside_locking _
  · rw [isLocking]
    change sems (port, .task) .full + (WorkerPc.locking rest).token port =
      t.sems (port, .task) .full + (WorkerPc.locking (op :: rest)).token port
    omega

theorem Sim.release
    (sim : t.Sim mode post)
    (ok : t.Ok)
    {op : Semaphore.Op (Port × Side)}
    {rest : List (Semaphore.Op (Port × Side))}
    (isReleasing : t.worker port = .releasing (op :: rest))
    {sems : Semaphore.Values (Port × Side)}
    (applied : op.apply t.sems = some sems) :
    Sim mode post
      { t with
        sems := sems
        worker := Function.update t.worker port (.releasing rest) } := by
  have placed := (ok.ports port).placed
  rw [isReleasing] at placed
  have suffix : op :: rest <:+ port.releases := by
    cases placed with
    | releasing suffix => exact suffix
  obtain ⟨_, _, takes, gives⟩ := Port.release_token suffix
  have balance := Semaphore.Op.balance applied (port, .task) .full
  refine sim.move ?_ (WorkerPc.outside_releasing rest) ?_
    (frame_full applied (.inr (suffix.subset (List.mem_cons_self ..))))
  · rw [isReleasing]
    exact WorkerPc.outside_releasing _
  · rw [isReleasing]
    change sems (port, .task) .full + 0 = t.sems (port, .task) .full + 0
    omega

theorem Sim.again
    (sim : t.Sim mode post)
    (isReleasing : t.worker port = .releasing []) :
    Sim mode post
      { t with
        worker := Function.update t.worker port (.locking port.acquires) } := by
  refine sim.move ?_ (WorkerPc.outside_locking _) ?_ fun _ _ _ => rfl
  · rw [isReleasing]
    exact WorkerPc.outside_releasing []
  · rw [isReleasing]
    simp [WorkerPc.undone, Port.acquires, Semaphore.cGet]

/-! ## The end of a task -/

theorem Ok.busy_finish
    (ok : t.Ok)
    (token : (t.worker port).token port = 1)
    (number : Nat)
    (outcome : Outcome)
    (entry : Entry)
    (line : Line)
    (other : Port) :
    (t.finish port number outcome entry line).Busy other ↔
      t.Busy other ∧ other ≠ port := by
  unfold Busy Threads.finish
  by_cases own : other = port
  · have sum := (ok.ports port).token
    subst own
    simp only [Function.update_self, WorkerPc.undone, ne_eq, not_true_eq_false,
      and_false, iff_false]
    omega
  · simp only [Function.update_of_ne own, ne_eq, own, not_false_eq_true,
      and_true]

/-- Another port with a task belongs to another participant. -/
theorem Ok.other_id
    (ok : t.Ok)
    (posted : t.phase port = .posted)
    {other : Port}
    (posted' : t.phase other = .posted)
    (different : other ≠ port) :
    other.id ≠ port.id := by
  intro same
  rcases Port.eq_or_sibling same with rfl | rfl
  · exact different rfl
  · rcases ok.single port with idle | idle
    · rw [posted] at idle
      cases idle
    · rw [posted'] at idle
      cases idle

/-- No participant is put to work by a calm change of an entry. -/
theorem Lags.calm_waits
    (lags : t.Lags mode base node)
    {entry : Entry}
    (calm : mode = .recovery → (t.co.entry port.id).Calm entry)
    (isRecovery : mode = .recovery) :
    (t.co.setEntry port.id entry).Waits := by
  intro id
  rw [Coordinator.setEntry_entry]
  split
  · exact (calm isRecovery).waits (lags.waits isRecovery port.id)
  · exact lags.waits isRecovery id

/-- A calm change of an entry leaves the leader out of the table. -/
theorem Lags.calm_leads
    (lags : t.Lags mode base node)
    {entry : Entry}
    (calm : mode = .recovery → (t.co.entry port.id).Calm entry)
    (isRecovery : mode = .recovery)
    (id : Nat)
    (posted : t.phase (.work id) = .posted) :
    ((t.co.setEntry port.id entry).entry id).Unlisted := by
  have before := lags.leads isRecovery id posted
  rw [Coordinator.setEntry_entry]
  split
  · rename_i own
    subst own
    exact (calm isRecovery).unlisted before
  · exact before

/-- The program may rely on what it has seen after a calm change of an entry
that it waits for. -/
theorem Lags.calm_seen
    (lags : t.Lags mode base node)
    {entry : Entry}
    (calm : mode = .recovery → (t.co.entry port.id).Calm entry)
    (posted : t.phase port = .posted)
    (isRecovery : mode = .recovery) :
    ∃ seen, Rely t.phase seen (t.co.setEntry port.id entry) ∧
      t.prog.Guarded (fun _ _ _ => True) t.phase seen := by
  obtain ⟨seen, rely, guarded⟩ := lags.seen isRecovery
  refine ⟨seen, ⟨lags.calm_waits calm isRecovery, fun id unlisted => ?_,
    fun id unposted => ?_⟩, guarded⟩
  · have before := rely.keeps id unlisted
    rw [Coordinator.setEntry_entry]
    split
    · rename_i own
      subst own
      exact (calm isRecovery).unlisted before
    · exact before
  · rw [Coordinator.setEntry_entry, if_neg]
    · exact rely.entry id unposted
    · rintro rfl
      cases port with
      | work id => exact unposted.1 posted
      | recov id => exact unposted.2 posted

/-- A worker leaves its task. -/
theorem Lags.finish
    (lags : t.Lags mode base node)
    (ok : t.Ok)
    (token : (t.worker port).token port = 1)
    {number : Nat}
    {outcome : Outcome}
    {done entry : Entry}
    {after : Node}
    {line : Line}
    (stands : Stands mode done after entry line)
    (calm : mode = .recovery → (t.co.entry port.id).Calm entry)
    (answered : (entry.result port).1 = kvOk → entry.pstate ≠ .waiting) :
    (t.finish port number outcome entry line).Lags mode
      (base.setEntry port.id done) (Function.update node port.id after) := by
  have posted := ((ok.ports port).posted token).1
  have busy := ok.busy_finish token number outcome entry line
  refine ⟨lags.txid, lags.lg, lags.pnum, lags.isLocal, lags.uses, ?_, ?_, ?_,
    lags.calm_waits calm, ?_, lags.calm_leads calm, lags.calm_seen calm posted⟩
  · intro other isBusy
    obtain ⟨before, different⟩ := (busy other).mp isBusy
    have elsewhere := ok.other_id posted ((ok.ports other).of_busy before).1
      different
    rw [Coordinator.setEntry_entry, if_neg elsewhere]
    exact lags.admitted other before
  · intro id outside
    simp only [Threads.finish, Coordinator.setEntry_entry,
      Function.update_apply]
    split
    · exact stands
    · rename_i elsewhere
      refine lags.stands id fun other own number text same => ?_
      refine outside other own number text ?_
      simp only [Threads.finish]
      rw [Function.update_of_ne, same]
      rintro rfl
      exact elsewhere own.symm
  · intro other number' text exchange
    have different : other ≠ port := by
      rintro rfl
      simp only [Threads.finish, Function.update_self] at exchange
      cases exchange
    simp only [Threads.finish, Function.update_of_ne different] at exchange
    have elsewhere := ok.elsewhere token different exchange
    simp only [Threads.finish, Coordinator.setEntry_entry, if_neg elsewhere,
      Function.update_of_ne elsewhere]
    exact lags.flies other number' text exchange
  · intro isRecovery other posted' idle
    by_cases own : other = port
    · subst own
      unfold Answered
      change (result other (t.co.setEntry other.id entry)).1 = kvOk →
        ((t.co.setEntry other.id entry).entry other.id).pstate ≠ .waiting
      rw [Entry.result_setEntry, Coordinator.setEntry_entry, if_pos rfl]
      exact answered
    · have elsewhere := ok.other_id posted posted' own
      have same : (t.co.setEntry port.id entry).entry other.id =
          t.co.entry other.id := by
        rw [Coordinator.setEntry_entry, if_neg elsewhere]
      exact (lags.done isRecovery other posted'
        fun isBusy => idle ((busy other).mpr ⟨isBusy, own⟩)).of_same same

/-- The execution behind has done the same, with these fates. -/
theorem Ok.prompt_finish
    (ok : t.Ok)
    (busy : t.Busy port)
    (token : (t.worker port).token port = 1)
    (number : Nat)
    (outcome : Outcome)
    (entry : Entry)
    (line : Line)
    {done : Entry}
    {after : Node}
    {fates fates' : Nat → List Fate}
    (others : ∀ id, id ≠ port.id → fates' id = fates id)
    (ran : port.body (base.entry port.id)
        ((node port.id).withFates (fates port.id)) =
      some (done, after.withFates (fates' port.id))) :
    (t.finish port number outcome entry line).prompt
        (base.setEntry port.id done) (Function.update node port.id after)
        fates' =
      t.prompt base node fates := by
  have isBusy := ok.busy_finish token number outcome entry line
  have peer : (t.finish port number outcome entry line).promptPeer
      (base.setEntry port.id done) (Function.update node port.id after)
      fates' = t.promptPeer base node fates := by
    funext id
    by_cases own : id = port.id
    · subst own
      rw [promptPeer_of_idle, promptPeer_of_busy ok busy, Port.run, ran,
        Coordinator.setEntry_entry, if_pos rfl, Function.update_self]
      · rfl
      · intro other same both
        obtain ⟨before, different⟩ := (isBusy other).mp both
        exact ok.other_id ((ok.ports port).of_busy busy).1
          ((ok.ports other).of_busy before).1 different same
    · refine promptPeer_congr (fun other isId => ?_) ?_ ?_ (others id own)
      · rw [isBusy, and_iff_left]
        rintro rfl
        exact own isId.symm
      · rw [Coordinator.setEntry_entry, if_neg own]
      · rw [Function.update_of_ne own]
  unfold prompt
  rw [peer]
  rfl

/-- A worker leaves its task after an exchange with a known fate, or without
one. -/
theorem Sim.finish
    (lags : t.Lags mode base node)
    (runs : ∀ fates, ∃ s,
      t.prog.exec (t.prompt base node fates) = some ((), s) ∧ post s)
    (ok : t.Ok)
    (busy : t.Busy port)
    (token : (t.worker port).token port = 1)
    {number : Nat}
    {outcome : Outcome}
    {done entry : Entry}
    {after : Node}
    {line : Line}
    (taken : List Fate)
    (ran : ∀ fates, port.body (base.entry port.id)
        ((node port.id).withFates (taken ++ fates)) =
      some (done, after.withFates fates))
    (stands : Stands mode done after entry line)
    (calm : mode = .recovery → (t.co.entry port.id).Calm entry)
    (answered : (entry.result port).1 = kvOk → entry.pstate ≠ .waiting) :
    (t.finish port number outcome entry line).Sim mode post := by
  refine ⟨base.setEntry port.id done, Function.update node port.id after,
    lags.finish ok token stands calm answered, fun fates => ?_⟩
  have others : ∀ id, id ≠ port.id → fates id =
      Function.update fates port.id (taken ++ fates port.id) id :=
    fun id other => (Function.update_of_ne other ..).symm
  rw [ok.prompt_finish busy token number outcome entry line others]
  · exact runs _
  · rw [Function.update_self]
    exact ran (fates port.id)

/-- A worker that is at its task has not done it. -/
theorem Ok.busy_of_token
    (ok : t.Ok)
    (undone : (t.worker port).undone port = 1) :
    t.Busy port ∧ (t.worker port).token port = 1 := by
  refine ⟨(ok.ports port).busy undone, ?_⟩
  have le := WorkerPc.undone_le_token port (t.worker port)
  have sum := (ok.ports port).token
  omega

/-- A port in use belongs to `pWorking`, outside a recovery. -/
theorem Lags.uses_of_posted
    (lags : t.Lags mode base node)
    (posted : t.phase port = .posted) :
    mode = .work → port = .work port.id := by
  intro isWork
  cases port with
  | work id => rfl
  | recov id =>
      rw [lags.uses isWork id] at posted
      cases posted

/-- The exchange of a worker is in flight in the execution behind. -/
theorem Lags.calm_store
    (lags : t.Lags mode base node)
    (ok : t.Ok)
    {number : Nat}
    {text : Bytes}
    (exchange : t.worker port = .exchange number text)
    (rc : Int)
    (rmsg : Bytes) :
    mode = .recovery → (t.co.entry port.id).Calm
      ((t.co.entry port.id).store port rc rmsg) := by
  intro isRecovery
  have posted :=
    ((ok.ports port).of_busy ((ok.ports port).busy_of_exchange exchange)).1
  obtain ⟨started, admitted, _, alike⟩ :=
    (lags.flies port number text exchange).admitted
  apply Entry.calm_store
  · rintro id rfl
    obtain ⟨same, recovering⟩ := Entry.admits_recov admitted
    rw [alike.pstate, same]
    exact recovering rfl
  · rintro id rfl
    exact lags.leads isRecovery id posted

/-- `sendAndRecv` of a worker fails. -/
theorem Sim.fail
    (sim : t.Sim mode post)
    (ok : t.Ok)
    {error : NetError}
    {part : Bytes}
    {arrives : Nat}
    (taken : t.fail port error part arrives = some t') :
    t'.Sim mode post := by
  obtain ⟨base, node, lags, runs⟩ := sim
  unfold Threads.fail at taken
  split at taken
  · rename_i number text exchange
    cases taken
    have undone : (t.worker port).undone port = 1 := by
      rw [exchange]
      rfl
    obtain ⟨busy, token⟩ := ok.busy_of_token undone
    obtain ⟨fate, after, done, ran, stands⟩ :=
      (lags.flies port number text exchange).fail error part arrives
    refine Sim.finish lags runs ok busy token [fate] ran stands
      (lags.calm_store ok exchange error.code part) ?_
    rw [Entry.result_store]
    exact fun isOk => absurd isOk error.code_ne_kvOk
  · cases taken

/-- `sendAndRecv` of a worker succeeds. -/
theorem Sim.receive
    (sim : t.Sim mode post)
    (ok : t.Ok)
    {reads : List Nat}
    (taken : t.receive port reads = some t') :
    t'.Sim mode post := by
  obtain ⟨base, node, lags, runs⟩ := sim
  unfold Threads.receive at taken
  split at taken
  · rename_i number text exchange
    obtain ⟨⟨rmsg, reads', rest⟩, received, isNext⟩ :=
      Option.bind_eq_some_iff.mp taken
    cases isNext
    have undone : (t.worker port).undone port = 1 := by
      rw [exchange]
      rfl
    obtain ⟨busy, token⟩ := ok.busy_of_token undone
    have flight := lags.flies port number text exchange
    obtain ⟨fate, after, done, ran, stands⟩ := flight.receive received
    refine Sim.finish lags runs ok busy token [fate] ran stands
      (lags.calm_store ok exchange kvOk rmsg) ?_
    intro _
    rw [Entry.pstate_store, if_neg (by simp)]
    exact flight.started
  · cases taken

/-! ## The start of a task -/

/-- A worker starts its exchange. -/
theorem Lags.begin
    (lags : t.Lags mode base node)
    (ok : t.Ok)
    (isLocking : t.worker port = .locking [])
    {entry : Entry}
    (admitted : (t.co.entry port.id).admits port = some (true, entry))
    {number : Nat}
    {text : Bytes}
    {line : Line}
    (flight : InFlight mode port text (base.entry port.id) (node port.id)
      entry line) :
    ({ t with
      co := t.co.setEntry port.id entry
      line := Function.update t.line port.id line
      worker := Function.update t.worker port (.exchange number text) } :
        Threads).Lags mode base node := by
  have undone : (t.worker port).undone port = 1 := by
    rw [isLocking]
    simp [WorkerPc.undone]
  obtain ⟨isBusy, token⟩ := ok.busy_of_token undone
  have posted := ((ok.ports port).of_busy isBusy).1
  have calm : mode = .recovery → (t.co.entry port.id).Calm entry :=
    fun _ => Entry.calm_admits admitted
  have busy : ∀ other, Busy
      { t with
        co := t.co.setEntry port.id entry
        line := Function.update t.line port.id line
        worker := Function.update t.worker port (.exchange number text) }
      other ↔ t.Busy other := by
    intro other
    change t.sems (other, .task) .full +
      (Function.update t.worker port (.exchange number text) other).undone
        other = 1 ↔ _
    unfold Busy
    by_cases own : other = port
    · rw [own, Function.update_self, undone]
      rfl
    · rw [Function.update_of_ne own]
  refine ⟨lags.txid, lags.lg, lags.pnum, lags.isLocal, lags.uses,
    fun other isBusy' => lags.admitted other ((busy other).mp isBusy'), ?_, ?_,
    lags.calm_waits calm, ?_, lags.calm_leads calm, lags.calm_seen calm posted⟩
  · intro id outside
    have elsewhere : id ≠ port.id := by
      rintro rfl
      refine outside port rfl number text ?_
      exact Function.update_self ..
    simp only [Coordinator.setEntry_entry, if_neg elsewhere,
      Function.update_of_ne elsewhere]
    refine lags.stands id fun other own number' text' same => ?_
    refine outside other own number' text' ?_
    change Function.update t.worker port _ other = _
    rw [Function.update_of_ne, same]
    rintro rfl
    exact elsewhere own.symm
  · intro other number' text' exchange
    by_cases own : other = port
    · subst own
      simp only [Function.update_self] at exchange ⊢
      cases exchange
      rw [Coordinator.setEntry_entry, if_pos rfl]
      exact flight
    · simp only [Function.update_of_ne own] at exchange
      have elsewhere := ok.elsewhere token own exchange
      simp only [Coordinator.setEntry_entry, if_neg elsewhere,
        Function.update_of_ne elsewhere]
      exact lags.flies other number' text' exchange
  · intro isRecovery other posted' idle
    have different : other ≠ port := by
      rintro rfl
      exact idle ((busy other).mpr isBusy)
    have elsewhere := ok.other_id posted posted' different
    have same : (t.co.setEntry port.id entry).entry other.id =
        t.co.entry other.id := by
      rw [Coordinator.setEntry_entry, if_neg elsewhere]
    exact (lags.done isRecovery other posted'
      fun isBusy' => idle ((busy other).mpr isBusy')).of_same same

/-- What a worker finds at the start of its task. -/
theorem Lags.resting_entry
    (lags : t.Lags mode base node)
    (ok : t.Ok)
    (isLocking : t.worker port = .locking []) :
    t.Busy port ∧ (t.worker port).token port = 1 ∧
      (mode = .work → port = .work port.id) ∧
      Stands mode (base.entry port.id) (node port.id) (t.co.entry port.id)
        (t.line port.id) ∧ (t.line port.id).Quiet := by
  have undone : (t.worker port).undone port = 1 := by
    rw [isLocking]
    simp [WorkerPc.undone]
  obtain ⟨busy, token⟩ := ok.busy_of_token undone
  have outside : (t.worker port).Outside := by
    rw [isLocking]
    exact WorkerPc.outside_locking []
  refine ⟨busy, token,
    lags.uses_of_posted ((ok.ports port).of_busy busy).1, ?_,
    ok.quiet_of_token token outside⟩
  refine lags.stands port.id fun other own => ?_
  rcases Port.eq_or_sibling own with rfl | rfl
  · exact outside
  · exact ok.sibling_outside token

/-- A worker can start its task: the assertions before it hold. -/
theorem Lags.admits
    (lags : t.Lags mode base node)
    (ok : t.Ok)
    (isLocking : t.worker port = .locking []) :
    (t.co.entry port.id).admits port ≠ none := by
  obtain ⟨busy, _, uses, stands, _⟩ := lags.resting_entry ok isLocking
  rcases Stands.work_or_recovery uses with isWork | rfl
  · rw [isWork]
    exact Option.some_ne_none _
  · obtain ⟨node', behind, _⟩ := stands
    rw [behind.exact]
    exact lags.admitted port busy

/-- A worker starts its task. -/
theorem Sim.begin
    (sim : t.Sim mode post)
    (ok : t.Ok)
    (isLocking : t.worker port = .locking [])
    (taken : t.begin port = some t') :
    t'.Sim mode post := by
  obtain ⟨base, node, lags, runs⟩ := sim
  obtain ⟨busy, token, uses, stands, quiet⟩ := lags.resting_entry ok isLocking
  obtain ⟨⟨goesOn, entry⟩, admitted, isNext⟩ :=
    Option.bind_eq_some_iff.mp taken
  have isTask : (t.co.entry port.id).task port = task port t.co := by
    cases port with
    | work id => rfl
    | recov id => rfl
  dsimp only at isNext
  split at isNext
  · rename_i skips
    subst skips
    cases isNext
    obtain ⟨done, ran, skipped⟩ := stands.skip uses admitted
    refine Sim.finish lags runs ok busy token [] ran skipped (fun _ => ?_) ?_
    · exact (Entry.calm_admits admitted).trans (Entry.calm_skip port entry)
    · intro isOk
      rw [Entry.result_skip] at isOk
      exact absurd isOk (by decide)
  · rename_i goes
    have isTrue : goesOn = true := by simpa using goes
    subst isTrue
    obtain ⟨linked, flight⟩ :=
      stands.begin uses admitted quiet ⟨port, t.number port⟩
    split at isNext
    · rename_i unlinked
      rw [linked] at unlinked
      cases unlinked
    · cases isNext
      rw [isTask] at flight
      refine ⟨base, node, lags.begin ok isLocking admitted flight,
        fun fates => ?_⟩
      have same : prompt
          { t with
            co := t.co.setEntry port.id entry
            line := Function.update t.line port.id
              ((t.line port.id).send ⟨port, t.number port⟩ (task port t.co))
            worker := Function.update t.worker port
              (.exchange (t.number port) (task port t.co)) }
          base node fates = t.prompt base node fates := by
        refine prompt_congr (fun other => ?_) base node fates
        unfold Busy
        by_cases own : other = port
        · simp only [own, Function.update_self, isLocking]
          simp [WorkerPc.undone]
        · simp only [Function.update_of_ne own]
      rw [same]
      exact runs fates

/-- A step of a worker outside `sendAndRecv`. -/
theorem Sim.work
    (sim : t.Sim mode post)
    (ok : t.Ok)
    (taken : t.work port = some t') :
    t'.Sim mode post := by
  unfold Threads.work at taken
  split at taken
  · rename_i isLocking
    exact sim.begin ok isLocking taken
  · rename_i op rest isLocking
    obtain ⟨sems, applied, isNext⟩ := Option.bind_eq_some_iff.mp taken
    cases isNext
    exact sim.acquire ok isLocking applied
  · cases taken
  · rename_i isReleasing
    cases taken
    exact sim.again isReleasing
  · rename_i op rest isReleasing
    obtain ⟨sems, applied, isNext⟩ := Option.bind_eq_some_iff.mp taken
    cases isNext
    exact sim.release ok isReleasing applied

/-! ## Participants and connections -/

theorem Sim.onLine
    (sim : t.Sim mode post)
    {id : Nat}
    {change : Line → Option Line}
    (stands : ∀ {entry node entry' line},
      (∀ port : Port, port.id = id → (t.worker port).Outside) →
      change (t.line id) = some line →
      Stands mode entry node entry' (t.line id) → t.co.entry id = entry' →
      Stands mode entry node entry' line)
    (flies : ∀ {port text entry node line}, port.id = id →
      change (t.line id) = some line →
      InFlight mode port text entry node (t.co.entry id) (t.line id) →
      InFlight mode port text entry node (t.co.entry id) line)
    (taken : t.onLine id change = some t') :
    t'.Sim mode post := by
  obtain ⟨line, changed, rfl⟩ := onLine_eq taken
  obtain ⟨base, node, lags, runs⟩ := sim
  refine ⟨base, node, { lags with stands := ?_, flies := ?_ }, fun fates => ?_⟩
  · intro other outside
    simp only [Function.update_apply]
    split
    · rename_i own
      subst own
      exact stands outside changed (lags.stands other outside) rfl
    · exact lags.stands other outside
  · intro port number text exchange
    have flight := lags.flies port number text exchange
    simp only [Function.update_apply]
    split
    · rename_i own
      rw [own] at flight ⊢
      exact flies own changed flight
    · exact flight
  · exact runs fates

theorem Sim.crash
    (sim : t.Sim mode post)
    {id : Nat}
    (taken : t.onLine id (fun line => some line.crash) = some t') :
    t'.Sim mode post := by
  refine sim.onLine ?_ ?_ taken
  · rintro _ _ _ _ _ ⟨rfl⟩ stands _
    exact stands.crash
  · rintro _ _ _ _ _ _ ⟨rfl⟩ flight
    exact flight.onLine rfl rfl Way.crash

theorem Sim.hangUp
    (sim : t.Sim mode post)
    {id : Nat}
    (taken : t.onLine id (fun line => some line.hangUp) = some t') :
    t'.Sim mode post := by
  refine sim.onLine ?_ ?_ taken
  · rintro _ _ _ _ _ ⟨rfl⟩ stands _
    exact stands.hangUp
  · rintro _ _ _ _ _ _ ⟨rfl⟩ flight
    exact flight.onLine rfl flight.old Way.hangUp

/-- A participant handles a message only during an exchange. -/
theorem Sim.serve
    (sim : t.Sim mode post)
    (ok : t.Ok)
    {id : Nat}
    {reads : List Nat}
    (taken : t.onLine id (fun line => line.serve reads) = some t') :
    t'.Sim mode post := by
  refine sim.onLine ?_ ?_ taken
  · intro _ _ _ line outside served _ _
    have quiet := ok.quiet id outside
    unfold Line.serve at served
    rw [quiet.up, Line.recv_nil] at served
    cases served
  · intro _ _ _ _ line _ served flight
    obtain ⟨linked, old⟩ := Line.serve_same served
    refine flight.onLine linked ?_ (Way.serve · served)
    rcases old with same | none
    · exact same.trans flight.old
    · exact none

theorem Sim.drain
    (sim : t.Sim mode post)
    {id : Nat}
    {reads : List Nat}
    (taken : t.onLine id (fun line => line.drain reads) = some t') :
    t'.Sim mode post := by
  refine sim.onLine ?_ ?_ taken
  · intro _ _ _ line _ drained stands _
    exact stands.drain drained
  · intro _ _ _ _ line _ drained flight
    unfold Line.drain at drained
    rw [flight.old] at drained
    cases drained

/-- `keepAlive` connects to a participant that waits. -/
theorem Sim.connect
    (sim : t.Sim mode post)
    {id : Nat}
    (waiting : (t.co.entry id).pstate = .waiting)
    (taken : t.onLine id Line.reconnect = some t') :
    t'.Sim mode post := by
  refine sim.onLine ?_ ?_ taken
  · rintro _ _ _ line _ connected stands rfl
    exact (stands.connect waiting connected).1
  · intro _ _ _ _ line _ _ flight
    exact absurd waiting flight.started

/-! ## `keepAlive` and the variables of the other threads -/

/-- `keepAlive` changes the state of a connected participant. -/
theorem Sim.join
    (sim : t.Sim .work post)
    {id : Nat}
    (waiting : (t.co.entry id).pstate = .waiting)
    (linked : (t.line id).link = true)
    (old : (t.line id).old = none) :
    Sim .work post
      { t with
        co := t.co.setEntry id { t.co.entry id with pstate := .temp } } := by
  obtain ⟨base, node, lags, runs⟩ := sim
  refine ⟨base, node, ⟨lags.txid, lags.lg, lags.pnum, lags.isLocal, lags.uses,
    lags.admitted, ?_, ?_, ?_, ?_, ?_, ?_⟩, runs⟩
  · intro other outside
    have stands := lags.stands other outside
    simp only [Coordinator.setEntry_entry]
    split
    · rename_i own
      subst own
      exact stands.join rfl waiting linked old
    · exact stands
  · intro port number text exchange
    have flight := lags.flies port number text exchange
    simp only [Coordinator.setEntry_entry]
    rw [if_neg]
    · exact flight
    · rintro rfl
      exact flight.started waiting
  · exact fun isRecovery => Mode.noConfusion isRecovery
  · exact fun isRecovery => Mode.noConfusion isRecovery
  · exact fun isRecovery => Mode.noConfusion isRecovery
  · exact fun isRecovery => Mode.noConfusion isRecovery

/-- Outside a recovery the table, `_cstate` and `_tmpNum` are assigned. -/
theorem Sim.assign
    (sim : t.Sim .work post)
    {co : Coordinator}
    (txid : co.txid = t.co.txid)
    (lg : co.lg = t.co.lg)
    (pnum : co.pnum = t.co.pnum)
    (slots : ∀ id, (co.entry id).slots = (t.co.entry id).slots)
    (pstate : ∀ id, (co.entry id).pstate = (t.co.entry id).pstate) :
    Sim .work post { t with co := co } := by
  obtain ⟨base, node, lags, runs⟩ := sim
  refine ⟨base, node, ⟨txid.trans lags.txid, lg.trans lags.lg,
    pnum.trans lags.pnum, lags.isLocal, lags.uses, lags.admitted, ?_, ?_, ?_,
    ?_, ?_, ?_⟩, runs⟩
  · intro id outside
    have stands := lags.stands id outside
    have same : (t.co.entry id).slots = (base.entry id).slots := by
      obtain ⟨node', behind, _⟩ := stands
      exact behind.slots
    refine stands.reassign ((slots id).trans same)
      (fun _ => ⟨rfl, pstate id⟩) fun isRecovery => Mode.noConfusion isRecovery
  · intro port number text exchange
    have flight := lags.flies port number text exchange
    obtain ⟨started, admitted, isText, alike⟩ := flight.admitted
    refine ⟨⟨started, admitted, isText, (slots _).trans alike.slots,
      (pstate _).trans alike.pstate,
      fun isRecovery => Mode.noConfusion isRecovery⟩, ?_, flight.linked,
      flight.old, flight.way⟩
    rw [pstate]
    exact flight.started
  · exact fun isRecovery => Mode.noConfusion isRecovery
  · exact fun isRecovery => Mode.noConfusion isRecovery
  · exact fun isRecovery => Mode.noConfusion isRecovery
  · exact fun isRecovery => Mode.noConfusion isRecovery

end Threads
end Lab3
end CloudComputing
