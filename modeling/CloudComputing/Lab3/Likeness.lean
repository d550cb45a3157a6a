import CloudComputing.Lab3.Addresses
import CloudComputing.Lab3.Flights
import CloudComputing.Lab3.Locality

/-!
# Executions of like systems

Two systems are alike for a program when they differ only in what it neither
reads nor changes: participants that do not exist, `_cstate`, `_tmpNum`, and
for `Working` the table of transaction numbers.  Executions of the program from
like systems end in like systems with the same value.
-/

namespace CloudComputing
namespace Lab3

open CloudComputing.Lab3.Parser

/-- Two systems that a program treats alike. -/
structure Sys.Like (mode : Mode) (s s' : Sys) : Prop where
  txid : s'.co.txid = s.co.txid
  lg : s'.co.lg = s.co.lg
  pnum : s'.co.pnum = s.co.pnum
  entry : ∀ id, Entry.Alike mode (s.co.entry id) (s'.co.entry id)
  node : ∀ id ∈ s.co.ids, s'.node id = s.node id

/-- The worker of a port does the same with like entries. -/
theorem Entry.Alike.body
    {mode : Mode}
    {entry entry' : Entry}
    (alike : Entry.Alike mode entry entry')
    {port : Port}
    (uses : mode = .work → port = .work port.id)
    {node : Node}
    {peer : Entry × Node}
    (done : port.body entry node = some peer) :
    ∃ next, port.body entry' node = some (next, peer.2) ∧
      Entry.Alike mode peer.1 next := by
  cases mode with
  | recovery =>
      rw [alike.exact rfl]
      exact ⟨peer.1, done, rfl, rfl, fun _ => rfl⟩
  | work =>
      rw [uses rfl] at done ⊢
      simp only [Port.body, Entry.admits, Option.bind_eq_bind,
        Option.bind_some, alike.pstate] at done ⊢
      split
      · rename_i idle
        rw [if_pos idle] at done
        cases done
        have slots := alike.slots
        simp only [Entry.slots, Prod.mk.injEq] at slots
        refine ⟨_, rfl, ?_, alike.pstate,
          fun isRecovery => Mode.noConfusion isRecovery⟩
        simp only [Entry.skip, Entry.slots, slots]
      · rename_i working
        rw [if_neg working] at done
        cases done
        rw [Entry.task_of_slots alike.slots]
        exact ⟨_, rfl, alike.store (.work port.id) _ _⟩

namespace Sys.Like

variable
  {mode : Mode}
  {s s' : Sys}

theorem refl (mode : Mode) (s : Sys) : s.Like mode s :=
  ⟨rfl, rfl, rfl, fun _ => ⟨rfl, rfl, fun _ => rfl⟩, fun _ _ => rfl⟩

theorem ids (like : s.Like mode s') : s'.co.ids = s.co.ids := by
  rw [Coordinator.ids, Coordinator.ids, like.pnum]

/-- A program reads the same from like systems. -/
theorem agree
    (like : s.Like mode s')
    (phase : Port → Phase) :
    Agree mode phase s.co s'.co :=
  ⟨like.txid, like.lg, like.pnum, fun id _ => (like.entry id).slots,
    fun isRecovery id _ => (like.entry id).exact isRecovery⟩

/-- An assignment of the program keeps the systems alike. -/
theorem modify
    (like : s.Like mode s')
    {phase : Port → Phase}
    {change : Coordinator → Coordinator}
    (confined : Confined mode phase change) :
    Like mode { s with co := change s.co }
      { s' with co := change s'.co } := by
  have agree := confined.agree (like.agree phase)
  refine ⟨agree.txid, agree.lg, agree.pnum, fun id => ?_, fun id inside => ?_⟩
  · change Entry.Alike mode ((change s.co).entry id) ((change s'.co).entry id)
    by_cases unposted : Unposted phase id
    · refine ⟨agree.slots id unposted, ?_,
        fun isRecovery => agree.entry isRecovery id unposted⟩
      cases mode with
      | work =>
          rw [confined.pstate rfl, confined.pstate rfl]
          exact (like.entry id).pstate
      | recovery => rw [agree.entry rfl id unposted]
    · rw [confined.posted _ id unposted, confined.posted _ id unposted]
      exact like.entry id
  · refine like.node id ?_
    rw [Coordinator.ids, ← confined.pnum]
    exact inside

/-- A worker keeps the systems alike. -/
theorem serve
    (like : s.Like mode s')
    {port : Port}
    (uses : mode = .work → port = .work port.id)
    (inside : port.id ∈ s.co.ids)
    {t : Sys}
    (served : s.serve port = some t) :
    ∃ t', s'.serve port = some t' ∧ t.Like mode t' ∧ t.co.ids = s.co.ids := by
  have own : ∀ s : Sys, s.serve port =
      (port.body (s.co.entry port.id) (s.node port.id)).map
        fun peer => s.setPeer port.id peer := by
    intro s
    cases port with
    | work id => rw [body_work]; rfl
    | recov id => rw [body_recov]; rfl
  rw [own] at served
  obtain ⟨peer, done, rfl⟩ := Option.map_eq_some_iff.mp served
  obtain ⟨next, done', alike⟩ := (like.entry port.id).body uses done
  refine ⟨s'.setPeer port.id (next, peer.2), ?_, ⟨like.txid, like.lg,
    like.pnum, fun id => ?_, fun id member => ?_⟩, rfl⟩
  · rw [own, like.node port.id inside, done']
    rfl
  · simp only [Sys.setPeer, Coordinator.setEntry_entry]
    split
    · exact alike
    · exact like.entry id
  · simp only [Sys.setPeer, Function.update_apply]
    split
    · rfl
    · exact like.node id member

end Sys.Like

/-- Executions of a program from like systems end in like systems. -/
theorem Prog.exec_like
    {α : Type}
    {mode : Mode}
    {post : α → (Port → Phase) → Prop}
    {phase : Port → Phase}
    {prog : Prog α}
    (isLocal : prog.Local mode post phase)
    {s s' t : Sys}
    (among : prog.Among s.co.ids)
    (like : s.Like mode s')
    {value : α}
    (executed : prog.exec s = some (value, t)) :
    ∃ t', prog.exec s' = some (value, t') ∧ t.Like mode t' := by
  induction prog generalizing phase s s' with
  | ret result =>
      cases executed
      exact ⟨s', rfl, like⟩
  | fail => cases executed
  | get next inductionHypothesis =>
      have same : next s'.co = next s.co :=
        isLocal.1 _ _ (like.agree phase)
      change ∃ t', (next s'.co).exec s' = some (value, t') ∧ _
      rw [same]
      exact inductionHypothesis s.co (isLocal.2 s.co) (among s.co rfl) like
        executed
  | modify change next inductionHypothesis =>
      have ids : (change s.co).ids = s.co.ids := by
        rw [Coordinator.ids, Coordinator.ids, isLocal.1.pnum]
      have among' : next.Among (change s.co).ids := by
        rw [ids]
        exact among
      exact inductionHypothesis isLocal.2 among' (like.modify isLocal.1)
        executed
  | lock op port next inductionHypothesis =>
      obtain ⟨uses, isLocal⟩ := isLocal
      obtain ⟨inside, among⟩ := among
      cases op with
      | pRelease =>
          obtain ⟨u, served, rest⟩ := Option.bind_eq_some_iff.mp executed
          obtain ⟨u', served', like', ids⟩ := like.serve uses inside served
          obtain ⟨t', executed', like''⟩ :=
            inductionHypothesis isLocal (ids ▸ among) like' rest
          refine ⟨t', ?_, like''⟩
          change (s'.serve port).bind next.exec = _
          rw [served']
          exact executed'
      | pGet => exact inductionHypothesis isLocal among like executed
      | cGet => exact inductionHypothesis isLocal among like executed
      | cRelease => exact inductionHypothesis isLocal among like executed

end Lab3
end CloudComputing
