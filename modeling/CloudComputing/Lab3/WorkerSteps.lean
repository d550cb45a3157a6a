import CloudComputing.Lab3.Tokens

/-!
# Steps of the workers

The workers keep the invariant of the tokens.  A worker that has the token is
alone with its participant, so the answer that it receives is the one to its
request; it stores only its own result.
-/

namespace CloudComputing
namespace Lab3

open CloudComputing.Lab3.Parser Network

/-! ## Entries -/

namespace Entry

/-- The task of a port in the entry of its participant. -/
def task (port : Port) (entry : Entry) : Bytes :=
  match port with
  | .work _ => entry.ptask
  | .recov _ => entry.pRtask

/-- The result of a port in the entry of its participant. -/
def result (port : Port) (entry : Entry) : Int × Bytes :=
  match port with
  | .work _ => (entry.pworkingRet, entry.pworkingDataRet)
  | .recov _ => (entry.precoveryRet, entry.preoveryDataRet)

/-- Between the two entries a worker of this port has left the tasks, and the
result of its sibling. -/
structure Touched (port : Port) (entry entry' : Entry) : Prop where
  tasks : ∀ other, entry'.task other = entry.task other
  sibling : entry'.result port.sibling = entry.result port.sibling

theorem Touched.of_slots
    (port : Port)
    {entry entry' : Entry}
    (same : entry'.slots = entry.slots) :
    Touched port entry entry' := by
  simp only [slots, Prod.mk.injEq] at same
  obtain ⟨⟨ptask, workRet, workData⟩, pRtask, recovRet, recovData⟩ := same
  constructor
  · intro other
    cases other with
    | work id => exact ptask
    | recov id => exact pRtask
  · cases port with
    | work id => exact Prod.ext recovRet recovData
    | recov id => exact Prod.ext workRet workData

theorem Touched.trans
    {port : Port}
    {first second third : Entry}
    (before : Touched port first second)
    (after : Touched port second third) :
    Touched port first third where
  tasks := fun other => (after.tasks other).trans (before.tasks other)
  sibling := after.sibling.trans before.sibling

theorem touched_skip (port : Port) (entry : Entry) :
    Touched port entry (entry.skip port) := by
  constructor
  · intro other
    cases port <;> cases other <;> rfl
  · cases port <;> rfl

theorem result_skip (port : Port) (entry : Entry) :
    ((entry.skip port).result port).1 = retSkip := by
  cases port <;> rfl

theorem touched_store
    (port : Port)
    (rc : Int)
    (rmsg : Bytes)
    (entry : Entry) :
    Touched port entry (entry.store port rc rmsg) := by
  constructor
  · intro other
    cases port <;> cases other <;> simp only [store, task] <;> grind
  · cases port <;> simp only [store, result, Port.sibling] <;> grind

/-- Both slots are written, whatever the code. -/
theorem result_store
    (port : Port)
    (rc : Int)
    (rmsg : Bytes)
    (entry : Entry) :
    (entry.store port rc rmsg).result port = (rc, rmsg) := by
  cases port <;> simp only [store, result] <;> grind

/-- The lookups at the start of a task write neither tasks nor results. -/
theorem admits_slots
    {port : Port}
    {entry entry' : Entry}
    {goesOn : Bool}
    (admitted : entry.admits port = some (goesOn, entry')) :
    entry'.slots = entry.slots := by
  cases port with
  | work id =>
      simp only [admits] at admitted
      cases admitted
      rfl
  | recov id =>
      simp only [admits] at admitted
      split at admitted
      · cases admitted
        rfl
      · obtain ⟨l, _, isEntry⟩ := Option.bind_eq_some_iff.mp admitted
        split at isEntry
        · cases isEntry
          rfl
        · cases isEntry
          rfl

/-- A worker stores an entry of its participant. -/
theorem Touched.task_setEntry
    {port : Port}
    {co : Coordinator}
    {entry : Entry}
    (touched : Touched port (co.entry port.id) entry)
    (other : Port) :
    Lab3.task other (co.setEntry port.id entry) = Lab3.task other co := by
  have same := touched.tasks other
  cases other with
  | work id =>
      simp only [Lab3.task, Coordinator.setEntry_entry]
      split
      · rename_i isOwn
        rw [isOwn]
        exact same
      · rfl
  | recov id =>
      simp only [Lab3.task, Coordinator.setEntry_entry]
      split
      · rename_i isOwn
        rw [isOwn]
        exact same
      · rfl

theorem result_setEntry
    (port : Port)
    (co : Coordinator)
    (entry : Entry) :
    Lab3.result port (co.setEntry port.id entry) = entry.result port := by
  cases port with
  | work id =>
      simp only [Lab3.result, Port.id, Coordinator.setEntry_entry, if_pos,
        result]
  | recov id =>
      simp only [Lab3.result, Port.id, Coordinator.setEntry_entry, if_pos,
        result]

theorem Touched.result_setEntry
    {port other : Port}
    {co : Coordinator}
    {entry : Entry}
    (touched : Touched port (co.entry port.id) entry)
    (different : other ≠ port) :
    Lab3.result other (co.setEntry port.id entry) = Lab3.result other co := by
  have isResult : ∀ co, Lab3.result other co =
      (co.entry other.id).result other := by
    intro co
    cases other <;> rfl
  rw [isResult, isResult, Coordinator.setEntry_entry]
  split
  · rename_i isOwn
    rcases Port.eq_or_sibling isOwn with same | same
    · exact absurd same different
    · rw [isOwn, same]
      exact touched.sibling
  · rfl

end Entry

/-- The body of a worker, without interruption: the tests, `sendAndRecv` and
storing its result. -/
def Port.body (port : Port) (entry : Entry) (node : Node) :
    Option (Entry × Node) := do
  let (goesOn, entry) ← entry.admits port
  if goesOn = false then some (entry.skip port, node)
  else
    let (rc, rmsg, node) := node.sendAndRecv (entry.task port)
    some (entry.store port rc rmsg, node)

theorem body_work (id : Nat) (entry : Entry) (node : Node) :
    (Port.work id).body entry node = some (pWorking entry node) := by
  unfold pWorking
  split
  · rename_i waiting
    simp [Port.body, Entry.admits, Entry.skip, waiting]
  · rename_i working
    simp only [Port.body, Entry.admits, decide_eq_true (of_not_not working),
      Option.bind_eq_bind, Option.bind_some, Bool.true_eq_false, if_false]
    rfl

theorem body_recov (id : Nat) (entry : Entry) (node : Node) :
    (Port.recov id).body entry node = pRecovery entry node := by
  unfold pRecovery
  split
  · rename_i waiting
    simp [Port.body, Entry.admits, Entry.skip, waiting]
  · rename_i recovering
    simp only [Port.body, Entry.admits, if_neg recovering]
    cases Log.strToLog entry.pRtask with
    | none => rfl
    | some l =>
        simp only [Option.bind_eq_bind, Option.bind_some]
        split
        · by_cases next : l.ID = entry.maxTxid.getD 0 + 1
          · simp [next, pRecoverySend, Entry.store, Entry.task]
            grind
          · simp [next, Entry.skip]
        · simp [pRecoverySend, Entry.store, Entry.task]
          grind

/-- The prompt workers of `Prog.exec` run these bodies. -/
theorem Sys.serve_eq (s : Sys) (port : Port) :
    s.serve port =
      (port.body (s.co.entry port.id) (s.node port.id)).map
        (s.setPeer port.id) := by
  cases port with
  | work id =>
      rw [body_work]
      rfl
  | recov id =>
      rw [body_recov]
      rfl

namespace Threads

variable {t t' : Threads} {port : Port}

/-! ## The workers -/

/-- A step of one worker. -/
theorem Ok.worker
    (ok : t.Ok)
    (port : Port)
    (prog : t'.prog = t.prog)
    (half : t'.half = t.half)
    (phase : t'.phase = t.phase)
    (own : t'.PortOk port)
    (others : ∀ other, other ≠ port → SamePort t t' other)
    (line : ∀ id, id ≠ port.id → t'.line id = t.line id)
    (quiet : (t'.worker port).Outside → (t.worker port.sibling).Outside →
      (t'.line port.id).Quiet) :
    t'.Ok where
  follows := by
    rw [prog, phase]
    exact ok.follows
  begun := by
    rw [half, prog]
    exact ok.begun
  single := by
    rw [phase]
    exact ok.single
  ports := by
    intro other
    by_cases isOwn : other = port
    · rw [isOwn]
      exact own
    · exact (ok.ports other).same (others other isOwn)
  quiet := by
    intro id outside
    by_cases isOwn : id = port.id
    · subst isOwn
      refine quiet (outside port rfl) ?_
      have isSibling : port.sibling.id = port.id := by
        cases port <;> rfl
      have sibling := outside port.sibling isSibling
      rw [(others port.sibling port.sibling_ne).worker] at sibling
      exact sibling
    · rw [line id isOwn]
      apply ok.quiet id
      intro other isId
      rw [← (others other ?_).worker]
      · exact outside other isId
      · intro same
        rw [← isId, same] at isOwn
        exact isOwn rfl

/-- A worker goes on outside `sendAndRecv`. -/
theorem Ok.move
    (ok : t.Ok)
    (before : (t.worker port).Outside)
    {sems : Semaphore.Values (Port × Side)}
    (frame : ∀ other side, other ≠ port →
      sems (other, side) .full = t.sems (other, side) .full)
    {pc : WorkerPc}
    (placed : pc.Placed t port)
    (outside : pc.Outside)
    (token : t.holds port + sems (port, .task) .full + pc.token port +
      sems (port, .ret) .full = 1)
    (released : ∀ rest, pc = .releasing rest → pc.token port = 1 →
      t.Ready port)
    (full : 0 < sems (port, .ret) .full → t.Ready port) :
    ({ t with sems := sems, worker := Function.update t.worker port pc } :
      Threads).Ok := by
  have own := ok.ports port
  refine ok.worker port rfl rfl rfl ⟨?_, ?_, own.asked, ?_, ?_⟩ ?_
    (fun _ _ => rfl) ?_
  · simp only [Function.update_self]
    exact placed_outside placed outside
  · simp only [Function.update_self]
    exact token
  · intro ready
    apply own.settled
    cases ready with
    | releasing worker held =>
        simp only [Function.update_self] at worker
        exact released _ worker (worker ▸ held)
    | full positive => exact full positive
    | entering posted holds => exact .entering posted holds
    | reading reading => exact .reading reading
  · intro number text worker
    simp only [Function.update_self] at worker
    exact absurd worker (outside number text)
  · intro other different
    exact
      { phase := rfl
        holds := rfl
        full := fun side => frame other side different
        worker := Function.update_of_ne different ..
        number := rfl
        asked := rfl
        outcome := rfl
        task := fun _ => rfl
        result := rfl
        handled := fun _ member => member
        carries := fun _ _ _ carries => carries }
  · intro _ sibling
    apply ok.quiet port.id
    intro other isId
    rcases Port.eq_or_sibling isId with rfl | rfl
    · exact before
    · exact sibling

/-- An operation of a worker leaves the tokens of the other ports. -/
theorem frame_full
    {op : Semaphore.Op (Port × Side)}
    {sems : Semaphore.Values (Port × Side)}
    (applied : op.apply t.sems = some sems)
    (member : op ∈ port.acquires ∨ op ∈ port.releases)
    (other : Port)
    (side : Side)
    (different : other ≠ port) :
    sems (other, side) .full = t.sems (other, side) .full := by
  obtain ⟨takes, gives⟩ := Port.frame_op member different side .full
  have balance := Semaphore.Op.balance applied (other, side) .full
  omega

/-- A semaphore operation of a worker before its task. -/
theorem Ok.acquire
    (ok : t.Ok)
    {op : Semaphore.Op (Port × Side)}
    {rest : List (Semaphore.Op (Port × Side))}
    (isLocking : t.worker port = .locking (op :: rest))
    {sems : Semaphore.Values (Port × Side)}
    (applied : op.apply t.sems = some sems) :
    ({ t with
      sems := sems
      worker := Function.update t.worker port (.locking rest) } :
        Threads).Ok := by
  have placed := (ok.ports port).placed
  have sum := (ok.ports port).token
  rw [isLocking] at placed sum
  have suffix : op :: rest <:+ port.acquires := by
    cases placed with
    | locking suffix => exact suffix
  obtain ⟨token, givesTask, takesRet, givesRet⟩ := Port.acquire_token suffix
  have retBalance := Semaphore.Op.balance applied (port, .ret) .full
  have taskBalance := Semaphore.Op.balance applied (port, .task) .full
  apply ok.move
  · rw [isLocking]
    exact WorkerPc.outside_locking _
  · exact frame_full applied (.inl (suffix.subset (List.mem_cons_self ..)))
  · exact .locking ((List.suffix_cons op rest).trans suffix)
  · exact WorkerPc.outside_locking rest
  · omega
  · intro _ isReleasing
    cases isReleasing
  · intro positive
    exact .full (by omega)

/-- A semaphore operation of a worker after its task. -/
theorem Ok.release
    (ok : t.Ok)
    {op : Semaphore.Op (Port × Side)}
    {rest : List (Semaphore.Op (Port × Side))}
    (isReleasing : t.worker port = .releasing (op :: rest))
    {sems : Semaphore.Values (Port × Side)}
    (applied : op.apply t.sems = some sems) :
    ({ t with
      sems := sems
      worker := Function.update t.worker port (.releasing rest) } :
        Threads).Ok := by
  have placed := (ok.ports port).placed
  have sum := (ok.ports port).token
  rw [isReleasing] at placed sum
  have suffix : op :: rest <:+ port.releases := by
    cases placed with
    | releasing suffix => exact suffix
  obtain ⟨token, takesRet, takesTask, givesTask⟩ := Port.release_token suffix
  have retBalance := Semaphore.Op.balance applied (port, .ret) .full
  have taskBalance := Semaphore.Op.balance applied (port, .task) .full
  apply ok.move
  · rw [isReleasing]
    exact WorkerPc.outside_releasing _
  · exact frame_full applied (.inr (suffix.subset (List.mem_cons_self ..)))
  · exact .releasing ((List.suffix_cons op rest).trans suffix)
  · exact WorkerPc.outside_releasing rest
  · omega
  · intro _ _ held
    exact .releasing isReleasing (by omega)
  · intro positive
    by_cases had : 0 < t.sems (port, .ret) .full
    · exact .full had
    · -- The worker has just given the token to the result lock.
      exact .releasing isReleasing (by omega)

/-- A worker starts its loop again. -/
theorem Ok.again
    (ok : t.Ok)
    (isReleasing : t.worker port = .releasing []) :
    ({ t with
      worker := Function.update t.worker port (.locking port.acquires) } :
        Threads).Ok := by
  have sum := (ok.ports port).token
  rw [isReleasing] at sum
  have token : (WorkerPc.locking port.acquires).token port = 0 := by
    simp [WorkerPc.token, Port.acquires, Semaphore.cGet]
  change ({ t with sems := t.sems, worker := _ } : Threads).Ok
  refine ok.move ?_ (fun _ _ _ => rfl) (.locking List.suffix_rfl)
    (WorkerPc.outside_locking _) ?_ ?_ .full
  · rw [isReleasing]
    exact WorkerPc.outside_releasing []
  · rw [token]
    exact sum
  · intro _ isReleasing
    cases isReleasing

/-- The worker that has the token, and its participant's other worker. -/
theorem Ok.sibling_outside
    (ok : t.Ok)
    (token : (t.worker port).token port = 1) :
    (t.worker port.sibling).Outside := by
  intro number text exchange
  have idle := ok.sibling_idle token
  rw [exchange] at idle
  cases idle

/-- Any other exchange is one with another participant. -/
theorem Ok.elsewhere
    (ok : t.Ok)
    (token : (t.worker port).token port = 1)
    {other : Port}
    (different : other ≠ port)
    {number : Nat}
    {text : Bytes}
    (exchange : t.worker other = .exchange number text) :
    other.id ≠ port.id := by
  intro isId
  rcases Port.eq_or_sibling isId with same | same
  · exact different same
  · rw [same] at exchange
    exact ok.sibling_outside token number text exchange

/-- Outside the exchange of the worker that has the token, the connection is
empty. -/
theorem Ok.quiet_of_token
    (ok : t.Ok)
    (token : (t.worker port).token port = 1)
    (outside : (t.worker port).Outside) :
    (t.line port.id).Quiet := by
  apply ok.quiet port.id
  intro other isId
  rcases Port.eq_or_sibling isId with rfl | rfl
  · exact outside
  · exact ok.sibling_outside token

/-- A worker leaves its task. -/
theorem Ok.finish
    (ok : t.Ok)
    (token : (t.worker port).token port = 1)
    {outcome : Outcome}
    {entry : Entry}
    {line : Line}
    (touched : Entry.Touched port (t.co.entry port.id) entry)
    (stored : outcome.Matches (entry.result port))
    (replied : ∀ reply, outcome = .replied reply →
      ∃ execution ∈ line.handled,
        execution.ticket = ⟨port, t.number port⟩ ∧
        execution.message = t.asked port ∧ execution.reply = reply)
    (handled : ∀ execution ∈ (t.line port.id).handled,
      execution ∈ line.handled)
    (quiet : line.Quiet) :
    (t.finish port (t.number port) outcome entry line).Ok := by
  have own := ok.ports port
  obtain ⟨posted, none, noRet⟩ := own.posted token
  have starts : (WorkerPc.releasing port.releases).token port = 1 := by
    cases port <;>
      simp [WorkerPc.token, Port.releases, Semaphore.cRelease,
        Semaphore.pRelease]
  refine ok.worker port rfl rfl rfl ⟨?_, ?_, ?_, ?_, ?_⟩ ?_ ?_ ?_
  · simp only [Threads.finish, Function.update_self]
    exact .releasing List.suffix_rfl
  · have sum := own.token
    simp only [Threads.finish, Function.update_self, starts]
    rw [token] at sum
    exact sum
  · intro isPosted
    simp only [Threads.finish, touched.task_setEntry]
    exact own.asked isPosted
  · intro _
    refine ⟨outcome, ?_, ?_, ?_⟩
    · simp only [Threads.finish, Function.update_self]
    · simp only [Threads.finish, Entry.result_setEntry]
      exact stored
    · simp only [Threads.finish, Function.update_self]
      exact replied
  · intro number text worker
    simp only [Threads.finish, Function.update_self] at worker
    cases worker
  · intro other different
    refine
      { phase := rfl
        holds := rfl
        full := fun _ => rfl
        worker := Function.update_of_ne different ..
        number := rfl
        asked := rfl
        outcome := Function.update_of_ne different ..
        task := fun _ => touched.task_setEntry other
        result := touched.result_setEntry different
        handled := ?_
        carries := ?_ }
    · simp only [Threads.finish, Function.update_apply]
      split
      · rename_i isOwn
        rw [isOwn]
        exact handled
      · exact fun _ member => member
    · intro number text exchange carries
      have elsewhere := ok.elsewhere token different exchange
      simp only [Threads.finish, Function.update_of_ne elsewhere]
      exact carries
  · intro id different
    exact Function.update_of_ne different ..
  · intro _ _
    simp only [Threads.finish, Function.update_self]
    exact quiet

/-- A worker starts its task. -/
theorem Ok.begin
    (ok : t.Ok)
    (isLocking : t.worker port = .locking [])
    (taken : t.begin port = some t') :
    t'.Ok := by
  have own := ok.ports port
  have token : (t.worker port).token port = 1 := by
    rw [isLocking]
    simp [WorkerPc.token]
  have outside : (t.worker port).Outside := by
    rw [isLocking]
    exact WorkerPc.outside_locking []
  obtain ⟨posted, none, noRet⟩ := own.posted token
  have quiet := ok.quiet_of_token token outside
  obtain ⟨⟨goesOn, entry⟩, admitted, isNext⟩ :=
    Option.bind_eq_some_iff.mp taken
  have same := Entry.admits_slots admitted
  have touched := Entry.Touched.of_slots port same
  dsimp only at isNext
  split at isNext
  · cases isNext
    exact ok.finish token (touched.trans (Entry.touched_skip port entry))
      (Entry.result_skip port entry) (fun _ => Outcome.noConfusion)
      (fun _ member => member) quiet
  · split at isNext
    · cases isNext
      refine ok.finish token
        (touched.trans (Entry.touched_store port kvNetwork [] entry)) ?_
        (fun _ => Outcome.noConfusion) (fun _ member => member) (.close _ 0)
      rw [Entry.result_store]
      rfl
    · cases isNext
      refine ok.worker port rfl rfl rfl ⟨?_, ?_, ?_, ?_, ?_⟩ ?_ ?_
        ?_
      · simp only [Function.update_self]
        rw [own.asked posted]
        exact .exchange
      · have sum := own.token
        rw [token] at sum
        simp only [Function.update_self]
        exact sum
      · intro isPosted
        simp only [touched.task_setEntry]
        exact own.asked isPosted
      · intro ready
        cases ready with
        | releasing worker _ =>
            simp only [Function.update_self] at worker
            cases worker
        | full positive =>
            rw [noRet] at positive
            cases positive
        | entering _ holds =>
            change t.holds port = 1 at holds
            rw [none] at holds
            cases holds
        | reading reading =>
            change t.phase port = .reading at reading
            rw [posted] at reading
            cases reading
      · intro number text worker
        simp only [Function.update_self] at worker ⊢
        cases worker
        exact quiet.send _ _
      · intro other different
        refine
          { phase := rfl
            holds := rfl
            full := fun _ => rfl
            worker := Function.update_of_ne different ..
            number := rfl
            asked := rfl
            outcome := rfl
            task := fun _ => touched.task_setEntry other
            result := touched.result_setEntry different
            handled := ?_
            carries := ?_ }
        · simp only [Function.update_apply]
          split
          · rename_i isOwn
            rw [isOwn]
            unfold Line.send
            split
            · exact fun _ member => member
            · exact fun _ member => member
          · exact fun _ member => member
        · intro number text exchange carries
          have elsewhere := ok.elsewhere token different exchange
          simp only [Function.update_of_ne elsewhere]
          exact carries
      · intro id different
        exact Function.update_of_ne different ..
      · intro exchanging _
        simp only [Function.update_self] at exchanging
        exact absurd rfl (exchanging _ _)

/-- In an exchange a worker has the token, and the latest task. -/
theorem PortOk.exchanging
    (ok : t.PortOk port)
    {number : Nat}
    {text : Bytes}
    (exchange : t.worker port = .exchange number text) :
    (t.worker port).token port = 1 ∧ number = t.number port ∧
      text = t.asked port := by
  have placed := ok.placed
  rw [exchange] at placed ⊢
  cases placed
  exact ⟨rfl, rfl, rfl⟩

/-- `sendAndRecv` of a worker fails. -/
theorem Ok.fail
    (ok : t.Ok)
    {error : NetError}
    {part : Bytes}
    {arrives : Nat}
    (taken : t.fail port error part arrives = some t') :
    t'.Ok := by
  unfold Threads.fail at taken
  split at taken
  · rename_i number text exchange
    obtain ⟨token, rfl, rfl⟩ := (ok.ports port).exchanging exchange
    cases taken
    refine ok.finish token (Entry.touched_store port error.code part _) ?_
      (fun _ => Outcome.noConfusion) (fun _ member => member)
      (.close _ arrives)
    rw [Entry.result_store]
    rfl
  · cases taken

/-- `sendAndRecv` of a worker succeeds. -/
theorem Ok.receive
    (ok : t.Ok)
    {reads : List Nat}
    (taken : t.receive port reads = some t') :
    t'.Ok := by
  unfold Threads.receive at taken
  split at taken
  · rename_i number text exchange
    obtain ⟨token, rfl, rfl⟩ := (ok.ports port).exchanging exchange
    obtain ⟨⟨rmsg, reads', rest⟩, received, isNext⟩ :=
      Option.bind_eq_some_iff.mp taken
    cases isNext
    obtain ⟨answer, quiet⟩ :=
      ((ok.ports port).carries _ _ exchange).receive received
    refine ok.finish token (Entry.touched_store port kvOk rmsg _) ?_ ?_
      (fun _ member => member) quiet
    · exact Entry.result_store port kvOk rmsg _
    · intro reply isReply
      cases isReply
      exact answer
  · cases taken

/-- A step of a worker outside `sendAndRecv`. -/
theorem Ok.work
    (ok : t.Ok)
    (taken : t.work port = some t') :
    t'.Ok := by
  unfold Threads.work at taken
  split at taken
  · rename_i isLocking
    exact ok.begin isLocking taken
  · rename_i op rest isLocking
    obtain ⟨sems, applied, isNext⟩ := Option.bind_eq_some_iff.mp taken
    cases isNext
    exact ok.acquire isLocking applied
  · cases taken
  · rename_i isReleasing
    cases taken
    exact ok.again isReleasing
  · rename_i op rest isReleasing
    obtain ⟨sems, applied, isNext⟩ := Option.bind_eq_some_iff.mp taken
    cases isNext
    exact ok.release isReleasing applied

end Threads
end Lab3
end CloudComputing
