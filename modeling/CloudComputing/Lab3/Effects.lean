import CloudComputing.Lab3.ShadowCalls

/-!
# What a step does to the states of participants

Between the steps of `keepAlive` a participant that waits goes on waiting, with
its connection.  Outside a recovery no other state is entered, and the table
and `_tmpNum` are left alone.
-/

namespace CloudComputing
namespace Lab3

open CloudComputing.Lab3.Parser Network

namespace Entry

/-- What a worker does to the state of its participant and to the table. -/
structure Moved (mode : Mode) (entry entry' : Entry) : Prop where
  waiting : entry.pstate = .waiting → entry'.pstate = .waiting
  maxTxid : mode = .work → entry'.maxTxid = entry.maxTxid
  pstate : mode = .work →
    entry'.pstate = entry.pstate ∨ entry'.pstate = .waiting

theorem Moved.of_same
    (mode : Mode)
    {entry entry' : Entry}
    (pstate : entry'.pstate = entry.pstate)
    (maxTxid : entry'.maxTxid = entry.maxTxid) :
    Moved mode entry entry' :=
  ⟨fun waiting => pstate.trans waiting, fun _ => maxTxid, fun _ => .inl pstate⟩

theorem Moved.trans
    {mode : Mode}
    {first second third : Entry}
    (before : Moved mode first second)
    (after : Moved mode second third) :
    Moved mode first third where
  waiting := fun waiting => after.waiting (before.waiting waiting)
  maxTxid := fun isWork =>
    (after.maxTxid isWork).trans (before.maxTxid isWork)
  pstate := by
    intro isWork
    rcases after.pstate isWork with same | waiting
    · rw [same]
      exact before.pstate isWork
    · exact .inr waiting

variable
  {mode : Mode}
  {port : Port}
  {entry entry' : Entry}

theorem moved_admits
    (uses : mode = .work → port = .work port.id)
    {goesOn : Bool}
    (admitted : entry.admits port = some (goesOn, entry')) :
    Moved mode entry entry' := by
  cases port with
  | work id =>
      simp only [admits, Option.some.injEq, Prod.mk.injEq] at admitted
      exact admitted.2 ▸ .of_same mode rfl rfl
  | recov id =>
      have same := (admits_recov admitted).1
      refine ⟨fun waiting => same.trans waiting, fun isWork => ?_,
        fun _ => .inl same⟩
      cases uses isWork

theorem moved_skip (mode : Mode) (port : Port) (entry : Entry) :
    Moved mode entry (entry.skip port) := by
  cases port with
  | work id => exact .of_same mode rfl rfl
  | recov id => exact .of_same mode rfl rfl

theorem moved_store
    (uses : mode = .work → port = .work port.id)
    (rc : Int)
    (rmsg : Bytes) :
    Moved mode entry (entry.store port rc rmsg) where
  waiting := by
    intro waiting
    rw [pstate_store]
    split
    · rfl
    · exact waiting
  maxTxid := by
    intro isWork
    rw [uses isWork]
    simp only [store]
    split
    · rfl
    · rfl
  pstate := by
    intro _
    rw [pstate_store]
    split
    · exact .inr rfl
    · exact .inl rfl

end Entry

/-- A step keeps this of the variables and connections. -/
structure Kept (mode : Mode) (t t' : Threads) : Prop where
  pnum : t'.co.pnum = t.co.pnum
  forward : t.co.txid ≤ t'.co.txid
  waiting : ∀ id, (t.co.entry id).pstate = .waiting →
    (t'.co.entry id).pstate = .waiting
  linked : ∀ id, (t.co.entry id).pstate = .waiting →
    (t.line id).link = true ∧ (t.line id).old = none →
    (t'.line id).link = true ∧ (t'.line id).old = none
  tmpNum : mode = .work → t'.co.tmpNum = t.co.tmpNum
  maxTxid : mode = .work → ∀ id,
    (t'.co.entry id).maxTxid = (t.co.entry id).maxTxid
  pstate : mode = .work → ∀ id,
    (t'.co.entry id).pstate = (t.co.entry id).pstate ∨
      (t'.co.entry id).pstate = .waiting

namespace Kept

variable {mode : Mode} {t t' : Threads}

theorem ids (kept : Kept mode t t') : t'.co.ids = t.co.ids := by
  rw [Coordinator.ids, Coordinator.ids, kept.pnum]

/-- Neither a state nor a connection has changed. -/
theorem of_same
    (mode : Mode)
    (co : t'.co = t.co)
    (line : t'.line = t.line) :
    Kept mode t t' where
  pnum := by rw [co]
  forward := by rw [co]
  waiting := by
    rw [co]
    exact fun _ waiting => waiting
  linked := by
    rw [line]
    exact fun _ _ linked => linked
  tmpNum := by
    rw [co]
    exact fun _ => rfl
  maxTxid := by
    rw [co]
    exact fun _ _ => rfl
  pstate := by
    rw [co]
    exact fun _ _ => .inl rfl

/-- One participant has changed. -/
theorem of_entry
    {id : Nat}
    {entry : Entry}
    (co : t'.co = t.co.setEntry id entry)
    (moved : (t.co.entry id).Moved mode entry)
    {line : Line}
    (isLine : t'.line = Function.update t.line id line)
    (linked : (t.co.entry id).pstate = .waiting →
      (t.line id).link = true ∧ (t.line id).old = none →
      line.link = true ∧ line.old = none) :
    Kept mode t t' where
  pnum := by
    rw [co]
    rfl
  forward := by
    rw [co]
    exact le_rfl
  waiting := by
    intro other waiting
    rw [co, Coordinator.setEntry_entry]
    split
    · rename_i own
      exact moved.waiting (own ▸ waiting)
    · exact waiting
  linked := by
    intro other waiting isLinked
    rw [isLine, Function.update_apply]
    split
    · rename_i own
      exact linked (own ▸ waiting) (own ▸ isLinked)
    · exact isLinked
  tmpNum := by
    rw [co]
    exact fun _ => rfl
  maxTxid := by
    intro isWork other
    rw [co, Coordinator.setEntry_entry]
    split
    · rename_i own
      rw [own]
      exact moved.maxTxid isWork
    · rfl
  pstate := by
    intro isWork other
    rw [co, Coordinator.setEntry_entry]
    split
    · rename_i own
      rw [own]
      exact moved.pstate isWork
    · exact .inl rfl

end Kept

namespace Threads

variable
  {mode : Mode}
  {post : Sys → Prop}
  {t t' : Threads}
  {port : Port}
  {base : Coordinator}
  {node : Nat → Node}

/-! ## The coordinating thread -/

theorem Sim.kept_coordinate
    (sim : t.Sim mode post)
    (taken : t.coordinate = some t') :
    Kept mode t t' := by
  obtain ⟨base, node, lags, _⟩ := sim
  have isLocal := lags.isLocal
  unfold Threads.coordinate at taken
  split at taken
  · cases taken
  · cases taken
  · cases taken
    exact .of_same mode rfl rfl
  · rename_i change next isModify
    cases taken
    rw [isModify] at isLocal
    have confined := isLocal.1
    refine ⟨confined.pnum t.co, confined.forward t.co, fun id waiting => ?_,
      fun _ _ linked => linked, fun isWork => confined.tmpNum isWork t.co,
      fun isWork => confined.maxTxid isWork t.co,
      fun isWork id => .inl (confined.pstate isWork t.co id)⟩
    cases mode with
    | work => exact (confined.pstate rfl t.co id).trans waiting
    | recovery =>
        obtain ⟨seen, rely, guarded⟩ := lags.seen rfl
        rw [isModify] at guarded
        exact (guarded t.co rely).1.waiting id waiting
  · rename_i op port next isLock
    split at taken
    · obtain ⟨sems, _, isNext⟩ := Option.bind_eq_some_iff.mp taken
      cases isNext
      exact .of_same mode rfl rfl
    · obtain ⟨sems, _, isNext⟩ := Option.bind_eq_some_iff.mp taken
      cases isNext
      rw [complete_eq]
      exact .of_same mode rfl rfl

/-! ## The workers -/

/-- An exchange is one of a participant that does not wait. -/
theorem Lags.kept_store
    (lags : t.Lags mode base node)
    (ok : t.Ok)
    {number : Nat}
    {text : Bytes}
    (exchange : t.worker port = .exchange number text)
    (rc : Int)
    (rmsg : Bytes)
    (outcome : Outcome)
    (line : Line) :
    Kept mode t
      (t.finish port number outcome
        ((t.co.entry port.id).store port rc rmsg) line) := by
  have posted :=
    ((ok.ports port).of_busy ((ok.ports port).busy_of_exchange exchange)).1
  have flight := lags.flies port number text exchange
  exact .of_entry rfl
    (Entry.moved_store (lags.uses_of_posted posted) rc rmsg) rfl
    fun waiting => absurd waiting flight.started

theorem Sim.kept_begin
    (sim : t.Sim mode post)
    (ok : t.Ok)
    (isLocking : t.worker port = .locking [])
    (taken : t.begin port = some t') :
    Kept mode t t' := by
  obtain ⟨base, node, lags, _⟩ := sim
  obtain ⟨_, _, uses, stands, quiet⟩ := lags.resting_entry ok isLocking
  obtain ⟨⟨goesOn, entry⟩, admitted, isNext⟩ :=
    Option.bind_eq_some_iff.mp taken
  have moved := Entry.moved_admits uses admitted
  dsimp only at isNext
  split at isNext
  · cases isNext
    exact .of_entry rfl (moved.trans (Entry.moved_skip mode port entry)) rfl
      fun _ linked => linked
  · rename_i goes
    have isTrue : goesOn = true := by simpa using goes
    subst isTrue
    obtain ⟨linked, flight⟩ :=
      stands.begin uses admitted quiet ⟨port, t.number port⟩
    split at isNext
    · rename_i unlinked
      rw [linked] at unlinked
      cases unlinked
    · cases isNext
      exact .of_entry rfl moved rfl
        fun waiting => absurd (moved.waiting waiting) flight.started

theorem Sim.kept_work
    (sim : t.Sim mode post)
    (ok : t.Ok)
    (taken : t.work port = some t') :
    Kept mode t t' := by
  unfold Threads.work at taken
  split at taken
  · rename_i isLocking
    exact sim.kept_begin ok isLocking taken
  · obtain ⟨sems, _, isNext⟩ := Option.bind_eq_some_iff.mp taken
    cases isNext
    exact .of_same mode rfl rfl
  · cases taken
  · cases taken
    exact .of_same mode rfl rfl
  · obtain ⟨sems, _, isNext⟩ := Option.bind_eq_some_iff.mp taken
    cases isNext
    exact .of_same mode rfl rfl

/-! ## Participants and connections -/

theorem kept_onLine
    (mode : Mode)
    {id : Nat}
    {change : Line → Option Line}
    (linked : ∀ line, change (t.line id) = some line →
      (t.line id).link = true ∧ (t.line id).old = none →
      line.link = true ∧ line.old = none)
    (taken : t.onLine id change = some t') :
    Kept mode t t' := by
  obtain ⟨line, changed, rfl⟩ := onLine_eq taken
  have same : t.co = t.co.setEntry id (t.co.entry id) := by
    rw [Coordinator.setEntry, Function.update_eq_self]
  exact .of_entry same (.of_same mode rfl rfl) rfl fun _ => linked line changed

/-! ## Acts -/

/-- A step of a worker, in the execution behind and for the states. -/
theorem Sim.worker
    (sim : t.Sim mode post)
    (ok : t.Ok)
    {act : Act}
    (isWorker : act.isWorker = true)
    (taken : t.step act = some t') :
    t'.Sim mode post ∧ Kept mode t t' := by
  cases act with
  | work port =>
      simp only [Threads.step] at taken
      split at taken
      · exact ⟨sim.work ok taken, sim.kept_work ok taken⟩
      · cases taken
  | fail port error part arrives =>
      refine ⟨sim.fail ok taken, ?_⟩
      obtain ⟨base, node, lags, _⟩ := sim
      change t.fail port error part arrives = some t' at taken
      unfold Threads.fail at taken
      split at taken
      · rename_i number text exchange
        cases taken
        exact lags.kept_store ok exchange error.code part _ _
      · cases taken
  | receive port reads =>
      refine ⟨sim.receive ok taken, ?_⟩
      obtain ⟨base, node, lags, _⟩ := sim
      change t.receive port reads = some t' at taken
      unfold Threads.receive at taken
      split at taken
      · rename_i number text exchange
        obtain ⟨⟨rmsg, reads', rest⟩, _, isNext⟩ :=
          Option.bind_eq_some_iff.mp taken
        cases isNext
        exact lags.kept_store ok exchange kvOk rmsg _ _
      · cases taken
  | _ => cases isWorker

/-- What happens outside the coordinator, in the execution behind and for the
states. -/
theorem Sim.outside
    (sim : t.Sim mode post)
    (ok : t.Ok)
    {act : Act}
    (isOutside : act.isOutside = true)
    (taken : t.step act = some t') :
    t'.Sim mode post ∧ Kept mode t t' := by
  cases act with
  | serve id reads =>
      change t.onLine id (fun line => line.serve reads) = some t' at taken
      refine ⟨sim.serve ok taken, kept_onLine mode ?_ taken⟩
      intro line served linked
      obtain ⟨link, old⟩ := Line.serve_same served
      refine ⟨link.trans linked.1, ?_⟩
      rcases old with same | none
      · exact same.trans linked.2
      · exact none
  | drain id reads =>
      change t.onLine id (fun line => line.drain reads) = some t' at taken
      refine ⟨sim.drain taken, kept_onLine mode ?_ taken⟩
      intro line drained linked
      unfold Line.drain at drained
      rw [linked.2] at drained
      cases drained
  | crash id =>
      change t.onLine id (fun line => some line.crash) = some t' at taken
      refine ⟨sim.crash taken, kept_onLine mode ?_ taken⟩
      rintro line ⟨rfl⟩ linked
      exact ⟨linked.1, rfl⟩
  | hangUp id =>
      change t.onLine id (fun line => some line.hangUp) = some t' at taken
      refine ⟨sim.hangUp taken, kept_onLine mode ?_ taken⟩
      rintro line ⟨rfl⟩ linked
      exact linked
  | _ => cases isOutside

end Threads
end Lab3
end CloudComputing
