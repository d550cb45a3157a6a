import CloudComputing.Lab3.Shadow

/-!
# Steps of the coordinating thread beside prompt workers

The coordinating thread does the same in both executions.  A task that it posts
is done at once in the one behind.
-/

namespace CloudComputing
namespace Lab3

open CloudComputing.Lab3.Parser Network

namespace Threads

variable
  {mode : Mode}
  {post : Sys → Prop}
  {t t' : Threads}
  {port : Port}
  {base : Coordinator}
  {node : Nat → Node}

/-! ## Steps that do nothing to participants -/

/-- Semaphores and workers between two tasks do not matter. -/
theorem Lags.frame
    (lags : t.Lags mode base node)
    (co : t'.co = t.co)
    (line : t'.line = t.line)
    (prog : t'.prog = t.prog)
    (phase : t'.phase = t.phase)
    (busy : ∀ port, t'.Busy port ↔ t.Busy port)
    (exchange : ∀ port number text,
      t'.worker port = .exchange number text ↔
        t.worker port = .exchange number text) :
    t'.Lags mode base node where
  txid := co ▸ lags.txid
  lg := co ▸ lags.lg
  pnum := co ▸ lags.pnum
  isLocal := by
    rw [prog, phase]
    exact lags.isLocal
  uses := by
    rw [phase]
    exact lags.uses
  admitted := fun port isBusy => lags.admitted port ((busy port).mp isBusy)
  stands := by
    intro id outside
    rw [co, line]
    refine lags.stands id fun port own number text same => ?_
    exact outside port own number text ((exchange port number text).mpr same)
  flies := by
    intro port number text same
    rw [co, line]
    exact lags.flies port number text ((exchange port number text).mp same)
  waits := by
    rw [co]
    exact lags.waits
  done := by
    intro isRecovery port posted idle
    rw [phase] at posted
    rw [busy] at idle
    rw [co]
    exact lags.done isRecovery port posted idle
  leads := by
    rw [co, phase]
    exact lags.leads
  seen := by
    rw [co, prog, phase]
    exact lags.seen

theorem Sim.frame
    (sim : t.Sim mode post)
    (co : t'.co = t.co)
    (line : t'.line = t.line)
    (prog : t'.prog = t.prog)
    (phase : t'.phase = t.phase)
    (busy : ∀ port, t'.Busy port ↔ t.Busy port)
    (exchange : ∀ port number text,
      t'.worker port = .exchange number text ↔
        t.worker port = .exchange number text) :
    t'.Sim mode post := by
  obtain ⟨base, node, lags, runs⟩ := sim
  refine ⟨base, node, lags.frame co line prog phase busy exchange,
    fun fates => ?_⟩
  rw [prog, prompt_congr busy]
  exact runs fates

/-! ## Reading and assigning -/

/-- The thread reads the variables. -/
theorem Sim.get
    (sim : t.Sim mode post)
    (ok : t.Ok)
    {next : Coordinator → Prog Unit}
    (isGet : t.prog = .get next) :
    Sim mode post { t with prog := next t.co } := by
  obtain ⟨base, node, lags, runs⟩ := sim
  have isLocal := lags.isLocal
  rw [isGet] at isLocal
  refine ⟨base, node, { lags with isLocal := isLocal.2 t.co, seen := ?_ },
    fun fates => ?_⟩
  · intro isRecovery
    obtain ⟨seen, rely, guarded⟩ := lags.seen isRecovery
    rw [isGet] at guarded
    exact ⟨t.co, .refl rely.waits, guarded t.co rely⟩
  · obtain ⟨s, executed, holds⟩ := runs fates
    refine ⟨s, ?_, holds⟩
    rw [isGet] at executed
    rw [← executed]
    change (next t.co).exec (t.prompt base node fates) =
      (next (t.prompt base node fates).co).exec (t.prompt base node fates)
    rw [isLocal.1 _ _ (lags.agree_prompt ok fates)]

/-- An assignment commutes with tasks that are not done. -/
theorem Ok.prompt_modify
    (ok : t.Ok)
    {change : Coordinator → Coordinator}
    (confined : Confined mode t.phase change)
    (prog : Prog Unit)
    (base : Coordinator)
    (node : Nat → Node)
    (fates : Nat → List Fate) :
    prompt { t with co := change t.co, prog := prog } (change base) node
        fates =
      { t.prompt base node fates with
        co := change (t.prompt base node fates).co } := by
  have agree := confined.exact _ _ (ok.agree_prompt base node fates)
  obtain ⟨cstate, tmpNum⟩ := confined.others base
    (t.prompt base node fates).co rfl rfl
  have peer : ∀ id, promptPeer { t with co := change t.co, prog := prog }
      (change base) node fates id =
        ((change (t.prompt base node fates).co).entry id,
          (t.promptPeer base node fates id).2) := by
    intro id
    by_cases unposted : Unposted t.phase id
    · have idle : ∀ port : Port, port.id = id → ¬ t.Busy port :=
        fun _ own => ok.unposted unposted own
      rw [promptPeer_of_idle idle, agree.entry rfl id unposted]
      exact promptPeer_of_idle idle (change base) node fates
    · rw [confined.posted _ id unposted]
      exact promptPeer_congr (fun _ _ => Iff.rfl)
        (confined.posted base id unposted) rfl rfl
  have same : ∀ co : Coordinator, co.txid = (change base).txid →
      co.lg = (change base).lg → co.pnum = (change base).pnum →
      co.cstate = (change base).cstate → co.tmpNum = (change base).tmpNum →
      { change base with entry := co.entry } = co := by
    rintro ⟨⟩ txid lg pnum cstate tmpNum
    simp only at txid lg pnum cstate tmpNum
    simp only [txid, lg, pnum, cstate, tmpNum]
  unfold prompt
  simp only [peer]
  rw [same _ agree.txid agree.lg agree.pnum cstate tmpNum]
  rfl

/-- The thread assigns to the variables. -/
theorem Sim.modify
    (sim : t.Sim mode post)
    (ok : t.Ok)
    {change : Coordinator → Coordinator}
    {next : Prog Unit}
    (isModify : t.prog = .modify change next) :
    Sim mode post { t with co := change t.co, prog := next } := by
  obtain ⟨base, node, lags, runs⟩ := sim
  have isLocal := lags.isLocal
  rw [isModify] at isLocal
  obtain ⟨confined, rest⟩ := isLocal
  have agree := confined.agree (lags.agree ok)
  have posted : ∀ {port : Port}, t.phase port = .posted →
      ∀ co, (change co).entry port.id = co.entry port.id := by
    intro port isPosted co
    apply confined.posted
    intro unposted
    cases port with
    | work id => exact unposted.1 isPosted
    | recov id => exact unposted.2 isPosted
  have steady : mode = .recovery → Steady t.co (change t.co) ∧
      next.Guarded (fun _ _ _ => True) t.phase (change t.co) := by
    intro isRecovery
    obtain ⟨seen, rely, guarded⟩ := lags.seen isRecovery
    rw [isModify] at guarded
    exact guarded t.co rely
  refine ⟨change base, node, ⟨agree.txid.symm, agree.lg.symm, agree.pnum.symm,
    rest, lags.uses, ?_, ?_, ?_, ?_, ?_, ?_, ?_⟩, fun fates => ?_⟩
  · intro port busy
    rw [posted ((ok.ports port).of_busy busy).1]
    exact lags.admitted port busy
  · intro id outside
    have stands := lags.stands id outside
    by_cases unposted : Unposted t.phase id
    · refine stands.reassign (agree.slots id unposted).symm
        (fun isWork => ?_) fun isRecovery => ?_
      · exact ⟨confined.pstate isWork base id, confined.pstate isWork t.co id⟩
      · exact ⟨(agree.entry isRecovery id unposted).symm,
          (steady isRecovery).1.waiting id⟩
    · change Stands mode ((change base).entry id) (node id)
        ((change t.co).entry id) (t.line id)
      rw [confined.posted _ id unposted, confined.posted _ id unposted]
      exact stands
  · intro port number text exchange
    have isPosted :=
      ((ok.ports port).of_busy ((ok.ports port).busy_of_exchange exchange)).1
    change InFlight mode port text ((change base).entry port.id)
      (node port.id) ((change t.co).entry port.id) (t.line port.id)
    rw [posted isPosted, posted isPosted]
    exact lags.flies port number text exchange
  · exact fun isRecovery => (steady isRecovery).1.waits
  · intro isRecovery port isPosted idle
    exact (lags.done isRecovery port isPosted idle).of_same
      (posted isPosted t.co)
  · intro isRecovery id isPosted
    have same : (change t.co).entry id = t.co.entry id :=
      posted isPosted t.co
    change ((change t.co).entry id).Unlisted
    rw [same]
    exact lags.leads isRecovery id isPosted
  · intro isRecovery
    obtain ⟨isSteady, guarded⟩ := steady isRecovery
    exact ⟨change t.co, .refl isSteady.waits, guarded⟩
  · obtain ⟨s, executed, holds⟩ := runs fates
    refine ⟨s, ?_, holds⟩
    rw [isModify] at executed
    rw [ok.prompt_modify confined]
    exact executed

/-! ## Locks -/

/-- The first operation of an access. -/
theorem Sim.enter
    (sim : t.Sim mode post)
    {op : LockOp}
    {sems : Semaphore.Values (Port × Side)}
    (applied : (op.ops port).1.apply t.sems = some sems) :
    Sim mode post { t with sems := sems, half := true } := by
  refine sim.frame rfl rfl rfl rfl (fun other => ?_) fun _ _ _ => Iff.rfl
  obtain ⟨_, _, takes, gives⟩ := op.first_token port other
  have balance := Semaphore.Op.balance applied (other, .task) .full
  change sems (other, .task) .full + (t.worker other).undone other = 1 ↔
    t.sems (other, .task) .full + (t.worker other).undone other = 1
  omega

/-- Only the release of a task makes a worker busy. -/
theorem Ok.busy_complete
    (ok : t.Ok)
    {op : LockOp}
    {next : Prog Unit}
    (isLock : t.prog = .lock op port next)
    (half : t.half = true)
    {sems : Semaphore.Values (Port × Side)}
    (applied : (op.ops port).2.apply t.sems = some sems)
    (other : Port) :
    (complete { t with sems := sems, prog := next } op port).Busy other ↔
      t.Busy other ∨ op = .pRelease ∧ other = port := by
  have allowed := ok.follows
  rw [isLock] at allowed
  obtain ⟨_, idle, _⟩ := (ok.ports port).alone
    (holds_of_leaving isLock half allowed.1)
  have undone := WorkerPc.undone_le_token port (t.worker port)
  obtain ⟨gives, takes, _, _⟩ := op.second_token port other
  have balance := Semaphore.Op.balance applied (other, .task) .full
  have sum := (ok.ports other).token
  have undone' := WorkerPc.undone_le_token other (t.worker other)
  rw [complete_eq]
  unfold Busy
  change sems (other, .task) .full + (t.worker other).undone other = 1 ↔ _
  by_cases released : op = .pRelease ∧ port = other
  · obtain ⟨rfl, rfl⟩ := released
    rw [if_pos ⟨rfl, rfl⟩] at gives
    simp only [and_self, or_true, iff_true]
    omega
  · rw [if_neg released] at gives
    have different : ¬ (op = .pRelease ∧ other = port) := by
      rintro ⟨isRelease, same⟩
      exact released ⟨isRelease, same.symm⟩
    rw [or_iff_left different]
    omega

/-- The second operation of an access. -/
theorem Lags.complete
    (lags : t.Lags mode base node)
    (ok : t.Ok)
    {op : LockOp}
    {next : Prog Unit}
    (isLock : t.prog = .lock op port next)
    (half : t.half = true)
    {sems : Semaphore.Values (Port × Side)}
    (applied : (op.ops port).2.apply t.sems = some sems)
    (admitted : op = .pRelease → (base.entry port.id).admits port ≠ none) :
    (Threads.complete { t with sems := sems, prog := next } op port).Lags mode
      base node := by
  have busy := ok.busy_complete isLock half applied
  have isLocal := lags.isLocal
  have follows := ok.follows
  rw [isLock] at isLocal follows
  have guarded : mode = .recovery →
      (op = .pRelease → ∀ id, port = .work id → (t.co.entry id).Unlisted) ∧
        next.Guarded (fun _ _ _ => True)
          (Function.update t.phase port op.after) t.co := by
    intro isRecovery
    obtain ⟨seen, rely, guarded⟩ := lags.seen isRecovery
    rw [isLock] at guarded
    refine guarded t.co rely fun isGet => ?_
    subst isGet
    have holds := holds_of_leaving isLock half follows.1
    exact lags.done isRecovery port follows.1 ((ok.ports port).not_busy holds)
  have notPosted : ∀ other, Function.update t.phase port op.after other =
      .posted → ¬ (op = .pRelease ∧ other = port) → t.phase other = .posted := by
    intro other posted different
    rw [Function.update_apply] at posted
    split at posted
    · rename_i own
      cases op with
      | pRelease => exact absurd ⟨rfl, own⟩ different
      | pGet => cases posted
      | cGet => cases posted
      | cRelease => cases posted
    · exact posted
  rw [complete_eq] at busy ⊢
  refine ⟨lags.txid, lags.lg, lags.pnum, isLocal.2, ?_, ?_, lags.stands,
    lags.flies, lags.waits, ?_, ?_, ?_⟩
  · intro isWork id
    have own := isLocal.1 isWork
    have different : Port.recov id ≠ port := by
      rw [own]
      exact Port.noConfusion
    change Function.update t.phase port op.after (.recov id) = .idle
    rw [Function.update_of_ne different]
    exact lags.uses isWork id
  · intro other isBusy
    rcases (busy other).mp isBusy with before | ⟨isRelease, rfl⟩
    · exact lags.admitted other before
    · exact admitted isRelease
  · intro isRecovery other posted idle
    rw [busy] at idle
    have different : ¬ (op = .pRelease ∧ other = port) :=
      fun released => idle (.inr released)
    exact lags.done isRecovery other (notPosted other posted different)
      fun before => idle (.inl before)
  · intro isRecovery id posted
    by_cases released : op = .pRelease ∧ Port.work id = port
    · exact (guarded isRecovery).1 released.1 id released.2.symm
    · exact lags.leads isRecovery id (notPosted _ posted released)
  · intro isRecovery
    exact ⟨t.co, .refl (lags.waits isRecovery), (guarded isRecovery).2⟩

/-- The second operation of an access: the release of a task executes it. -/
theorem Sim.complete
    (sim : t.Sim mode post)
    (ok : t.Ok)
    {op : LockOp}
    {next : Prog Unit}
    (isLock : t.prog = .lock op port next)
    (half : t.half = true)
    {sems : Semaphore.Values (Port × Side)}
    (applied : (op.ops port).2.apply t.sems = some sems) :
    Sim mode post
      (Threads.complete { t with sems := sems, prog := next } op port) := by
  obtain ⟨base, node, lags, runs⟩ := sim
  have busy := ok.busy_complete isLock half applied
  have prog : (Threads.complete { t with sems := sems, prog := next } op
      port).prog = next := by
    rw [complete_eq]
  rw [isLock] at runs
  by_cases isRelease : op = .pRelease
  · subst isRelease
    have allowed := ok.follows
    rw [isLock] at allowed
    have holds := holds_of_leaving isLock half allowed.1
    have idle : ∀ other : Port, other.id = port.id → ¬ t.Busy other := by
      intro other own isBusy
      rcases Port.eq_or_sibling own with rfl | rfl
      · exact (ok.ports other).not_busy holds isBusy
      · have posted := ((ok.ports port.sibling).of_busy isBusy).1
        rw [ok.sibling_of_allowed allowed.1] at posted
        cases posted
    -- What the worker makes of the task in the execution behind.
    have served : ∀ fates, ∃ done, port.body (base.entry port.id)
        ((node port.id).withFates (fates port.id)) = some done ∧
        ∃ s, next.exec ((t.prompt base node fates).setPeer port.id done) =
          some ((), s) ∧ post s := by
      intro fates
      obtain ⟨s, executed, holds⟩ := runs fates
      change ((t.prompt base node fates).serve port).bind next.exec = _
        at executed
      obtain ⟨s', served, executed⟩ := Option.bind_eq_some_iff.mp executed
      rw [Sys.serve_eq] at served
      obtain ⟨done, isDone, rfl⟩ := Option.map_eq_some_iff.mp served
      change port.body (t.promptPeer base node fates port.id).1
        (t.promptPeer base node fates port.id).2 = some done at isDone
      rw [promptPeer_of_idle idle] at isDone
      exact ⟨done, isDone, s, executed, holds⟩
    have admitted : (base.entry port.id).admits port ≠ none := by
      obtain ⟨done, isDone, _⟩ := served fun _ => []
      intro fails
      rw [Port.body, fails] at isDone
      cases isDone
    have lags' := lags.complete ok isLock half applied fun _ => admitted
    have ok' := ok.leave isLock half applied
    refine ⟨base, node, lags', fun fates => ?_⟩
    obtain ⟨done, isDone, s, executed, holds⟩ := served fates
    refine ⟨s, ?_, holds⟩
    rw [prog, ← executed]
    congr 1
    have peer : (Threads.complete { t with sems := sems, prog := next }
        .pRelease port).promptPeer base node fates =
          Function.update (t.promptPeer base node fates) port.id done := by
      funext id
      by_cases own : id = port.id
      · rw [own, Function.update_self, promptPeer_of_busy ok'
          ((busy port).mpr (.inr ⟨rfl, rfl⟩)), Port.run, isDone]
        rfl
      · rw [Function.update_of_ne own]
        refine promptPeer_congr (fun other isId => ?_) rfl rfl rfl
        rw [busy, or_iff_left]
        rintro ⟨_, rfl⟩
        exact own isId.symm
    unfold prompt
    rw [peer, Sys.setPeer_eq]
    rfl
  · refine ⟨base, node, lags.complete ok isLock half applied
      fun released => absurd released isRelease, fun fates => ?_⟩
    obtain ⟨s, executed, holds⟩ := runs fates
    refine ⟨s, ?_, holds⟩
    rw [prog, prompt_congr fun other => (busy other).trans
      (or_iff_left fun released => isRelease released.1), ← executed]
    cases op with
    | pRelease => exact absurd rfl isRelease
    | pGet => rfl
    | cGet => rfl
    | cRelease => rfl

/-- A step of the coordinating thread. -/
theorem Sim.coordinate
    (sim : t.Sim mode post)
    (ok : t.Ok)
    (taken : t.coordinate = some t') :
    t'.Sim mode post := by
  unfold Threads.coordinate at taken
  split at taken
  · cases taken
  · cases taken
  · rename_i next isGet
    cases taken
    exact sim.get ok isGet
  · rename_i change next isModify
    cases taken
    exact sim.modify ok isModify
  · rename_i op port next isLock
    split at taken
    · rename_i half
      obtain ⟨sems, applied, isNext⟩ := Option.bind_eq_some_iff.mp taken
      cases isNext
      exact sim.enter applied
    · rename_i half
      obtain ⟨sems, applied, isNext⟩ := Option.bind_eq_some_iff.mp taken
      cases isNext
      exact sim.complete ok isLock (by simpa using half) applied

/-- The program that runs never fails an assertion. -/
theorem Sim.not_fail
    (sim : t.Sim mode post) :
    t.prog ≠ .fail := by
  obtain ⟨base, node, lags, runs⟩ := sim
  obtain ⟨s, executed, _⟩ := runs fun _ => []
  intro fails
  rw [fails] at executed
  cases executed

end Threads
end Lab3
end CloudComputing
