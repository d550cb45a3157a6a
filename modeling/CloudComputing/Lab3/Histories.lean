import CloudComputing.Lab3.Agreement
import CloudComputing.Lab3.Convergence

/-!
# Histories

The logs of a run against the updates that its clients sent.  Every record in
a log, the coordinator's or a participant's, is an update that the run served,
under the number it was served with, and no update is in a log twice.  Until
the coordinator restarts, a log also keeps the order in which the run served
its updates: it is that sequence with updates left out.
-/

namespace CloudComputing
namespace Lab3

open CloudComputing.Lab3.Parser Network

namespace World

/-- The update that an event serves, as the record that its commit requests
ask for. -/
def submits (w : World) : Event → List Log
  | .serve _ =>
      match w.pending with
      | some task =>
          if isUpdate task then
            [⟨w.sys.co.txid, .commit, getRESPArry task⟩]
          else []
      | none => []
  | _ => []

/-- The updates that events serve, in their order. -/
def submitted : World → List Event → List Log
  | _, [] => []
  | w, event :: events =>
      w.submits event ++
        match w.step event with
        | some next => next.submitted events
        | none => []

/-- The first event and the later ones. -/
theorem submitted_cons
    {w next : World}
    {event : Event}
    (taken : w.step event = some next)
    (events : List Event) :
    w.submitted (event :: events) =
      w.submits event ++ next.submitted events := by
  rw [submitted, taken]

/-- An event admits its update when the update is admissible. -/
theorem Admits.of_submits
    {admissible : Nat → Log → Prop}
    {w : World}
    {event : Event}
    (allowed : ∀ record ∈ w.submits event, admissible record.ID record) :
    w.Admits admissible event := by
  intro fates isServe task pending update _ _
  refine allowed ⟨w.sys.co.txid, .commit, getRESPArry task⟩ ?_
  rw [isServe, submits, pending]
  simp [update]

/-- A run admits its updates when all of them are admissible. -/
theorem admits_of_submitted
    {admissible : Nat → Log → Prop}
    {w w' : World}
    {events : List Event}
    (run : Run step Run.free w events w')
    (allowed : ∀ record ∈ w.submitted events, admissible record.ID record) :
    Run step (Admits admissible) w events w' := by
  induction run with
  | nil => exact .nil _
  | cons _ taken _ inductionHypothesis =>
      rw [submitted_cons taken] at allowed
      refine .cons (.of_submits fun record member => ?_) taken
        (inductionHypothesis fun record member => ?_)
      · exact allowed record (List.mem_append_left _ member)
      · exact allowed record (List.mem_append_right _ member)

/-- The updates of a run without a restart of the coordinator carry numbers
from the first one on, and these numbers do not decrease. -/
theorem submitted_ordered
    {w w' : World}
    {events : List Event}
    (run : Run step (fun _ event => event ≠ .restart) w events w')
    (ok : w.Ok fun _ _ => True) :
    (w.submitted events).Pairwise (fun record other =>
      record.ID ≤ other.ID) ∧
      ∀ record ∈ w.submitted events, w.sys.co.txid ≤ record.ID := by
  induction run with
  | nil => exact ⟨.nil, by simp [submitted]⟩
  | @cons state next last event events noRestart taken _ inductionHypothesis =>
      obtain ⟨ok', advanced⟩ :=
        ok.step (fun _ _ _ _ _ _ _ => trivial) taken
      obtain ⟨ordered, later⟩ := inductionHypothesis ok'
      have forward := (advanced noRestart).forward
      have own : ∀ record ∈ state.submits event,
          record.ID = state.sys.co.txid := by
        intro record member
        unfold submits at member
        split at member
        · split at member
          · split at member
            · rw [List.mem_singleton.mp member]
            · cases member
          · cases member
        · cases member
      have single : (state.submits event).Pairwise (fun record other =>
          record.ID ≤ other.ID) :=
        List.pairwise_of_forall_mem_list fun record member other member' => by
          rw [own record member, own other member']
      rw [submitted_cons taken]
      refine ⟨List.pairwise_append.mpr ⟨single, ordered,
        fun record member other member' => ?_⟩, fun record member => ?_⟩
      · have := later other member'
        rw [own record member]
        omega
      · rcases List.mem_append.mp member with first | rest
        · rw [own record first]
        · have := later record rest
          omega

end World

section Logs

variable {updates : List Log}

/-- A replica of admissible records has them in the order of their numbers. -/
theorem Replica.increasing
    {admissible : Nat → Log → Prop}
    {p : Participant}
    (replica : Replica admissible p) :
    p.history.Pairwise fun record other => record.ID < other.ID :=
  IndexedLog.entries_pairwise fun id record stored _ =>
    (replica.within id record stored).2.2.1.number

theorem Committed.increasing
    {admissible : Nat → Log → Prop}
    {co : Coordinator}
    (committed : Committed admissible co.lg co.txid) :
    co.history.Pairwise fun record other => record.ID < other.ID :=
  IndexedLog.entries_pairwise fun id record stored below =>
    (committed.records id record stored below).1.number

/-- A replica of the records of some updates holds no other records. -/
theorem Replica.history_subset
    {p : Participant}
    (replica : Replica (fun _ record => record ∈ updates) p) :
    p.history ⊆ updates := by
  intro record member
  obtain ⟨id, _, _, stored⟩ := IndexedLog.mem_entries.mp member
  exact (replica.within id record stored).2.2.2

theorem Committed.history_subset
    {co : Coordinator}
    (committed :
      Committed (fun _ record => record ∈ updates) co.lg co.txid) :
    co.history ⊆ updates := by
  intro record member
  obtain ⟨id, _, below, stored⟩ := IndexedLog.mem_entries.mp member
  exact (committed.records id record stored below).2

/-- No record is twice in a list with increasing numbers. -/
theorem nodup_of_increasing
    {records : List Log}
    (increasing : records.Pairwise fun record other =>
      record.ID < other.ID) :
    records.Nodup :=
  increasing.imp fun ordered same => by
    subst same
    exact lt_irrefl _ ordered

end Logs

/-- All logs of a run hold updates of the run. -/
theorem World.ok_submitted
    {pnum : Nat}
    {w : World}
    {events : List Event}
    (run : Run step Run.free (init pnum) events w) :
    w.Ok fun _ record => record ∈ (init pnum).submitted events :=
  (Ok.init _ pnum).run (admits_of_submitted run fun _ member => member)

/-- Until the coordinator restarts, all logs keep the order of the updates. -/
theorem World.ordered_histories
    {pnum : Nat}
    {w : World}
    {events : List Event}
    (run : Run step (fun _ event => event ≠ .restart) (init pnum) events w) :
    w.sys.co.history.Sublist ((init pnum).submitted events) ∧
      ∀ id ∈ w.sys.co.ids,
        (w.sys.node id).proc.history.Sublist ((init pnum).submitted events) ∧
          (w.sys.node id).drain.proc.history.Sublist
            ((init pnum).submitted events) := by
  have ok := ok_submitted (run.mono fun _ _ _ => trivial)
  have sound := fun id inside => (ok.rest.peers id inside).sound
  obtain ⟨ordered, _⟩ := submitted_ordered run (.init _ pnum)
  exact ⟨IndexedLog.sublist_of_subset ok.rest.log.increasing ordered
      ok.rest.log.history_subset, fun id inside =>
    ⟨IndexedLog.sublist_of_subset (sound id inside).replica.increasing
        ordered (sound id inside).replica.history_subset,
      IndexedLog.sublist_of_subset (sound id inside).drained.increasing
        ordered (sound id inside).drained.history_subset⟩⟩

/-- In every run, whatever fails or restarts, the log of every participant,
also after the late request on its way, and the log of the coordinator are made
of updates that the run served, none of them twice; and in a run without a
restart of the coordinator they are parts, in order, of the sequence of the
updates as served. -/
theorem histories_submitted
    {pnum : Nat}
    {w : World}
    {events : List Event}
    (run : Run World.step Run.free (World.init pnum) events w) :
    (w.sys.co.history.Subperm ((World.init pnum).submitted events) ∧
      ∀ id ∈ w.sys.co.ids,
        (w.sys.node id).proc.history.Subperm
            ((World.init pnum).submitted events) ∧
          (w.sys.node id).drain.proc.history.Subperm
            ((World.init pnum).submitted events)) ∧
    (.restart ∉ events →
      w.sys.co.history.Sublist ((World.init pnum).submitted events) ∧
      ∀ id ∈ w.sys.co.ids,
        (w.sys.node id).proc.history.Sublist
            ((World.init pnum).submitted events) ∧
          (w.sys.node id).drain.proc.history.Sublist
            ((World.init pnum).submitted events)) := by
  have ok := World.ok_submitted run
  have sound := fun id inside => (ok.rest.peers id inside).sound
  constructor
  · exact ⟨List.subperm_of_subset (nodup_of_increasing ok.rest.log.increasing)
        ok.rest.log.history_subset, fun id inside =>
      ⟨List.subperm_of_subset
          (nodup_of_increasing (sound id inside).replica.increasing)
          (sound id inside).replica.history_subset,
        List.subperm_of_subset
          (nodup_of_increasing (sound id inside).drained.increasing)
          (sound id inside).drained.history_subset⟩⟩
  · intro noRestart
    exact World.ordered_histories (run.mono_of_mem fun event member _ _ same =>
      noRestart (same ▸ member))

theorem histories_submitted_diverging :
    ∃ w, Run World.step Run.free (World.init 2) divergingEvents w ∧
      (World.init 2).submitted divergingEvents =
        [⟨txidStart, .commit, getRESPArry [str "SET", str "k", str "a"]⟩,
          ⟨txidStart, .commit, getRESPArry [str "SET", str "k", str "b"]⟩] ∧
      ((w.sys.node 1).proc.history.Sublist
          ((World.init 2).submitted divergingEvents) ∧
        (w.sys.node 2).proc.history.Sublist
          ((World.init 2).submitted divergingEvents)) := by
  obtain ⟨w, executed, seen⟩ := (Option.any_eq_true
    (fun w : World => decide (1 ∈ w.sys.co.ids ∧ 2 ∈ w.sys.co.ids))
    (World.runChecked (fun _ _ => true) divergingEvents
      (World.init 2))).mp (by decide +kernel)
  rw [decide_eq_true_eq] at seen
  have run : Run World.step Run.free (World.init 2) divergingEvents w :=
    Run.of_checked (fun _ _ _ => trivial) executed
  have noRestart : .restart ∉ divergingEvents := by
    simp [divergingEvents, World.startEvents, lostCommit, recoveryEvents]
  have parts := ((histories_submitted run).2 noRestart).2
  exact ⟨w, run, by decide +kernel, (parts 1 seen.1).1, (parts 2 seen.2).1⟩

end Lab3
end CloudComputing
