import CloudComputing.Lab3.Outages

/-!
# The system of calls catches up

What happens to participants between two calls happens in the system of calls
too, by its own events: connections break, processes restart, late requests are
executed or lost, and `keepAlive` connects again.  These events change nothing
but the participants and connections they happen to.
-/

namespace CloudComputing
namespace Lab3

open CloudComputing.Lab3.Parser Network

namespace Node

/-- The participant without the fates of its coming exchanges. -/
def bare (node : Node) : Node := { node with fates := [] }

theorem bare_drain (node : Node) : node.drain.bare = node.bare.drain := by
  have late : node.bare.late = node.late := rfl
  unfold drain
  rw [late]
  cases node.late with
  | none => rfl
  | some smsg =>
      have proc : node.bare.proc = node.proc := rfl
      simp only [runUnanswered, proc]
      split
      · rfl
      · rfl
      · rfl

/-- Participants that differ in their fates only drain alike. -/
theorem bare_drain_congr
    {node node' : Node}
    (same : node.bare = node'.bare) :
    node.drain.bare = node'.drain.bare := by
  rw [bare_drain, bare_drain, same]

end Node

/-- An event that happens to one participant or its connection. -/
def Event.isLocal : Event → Bool
  | .drop _ => true
  | .crash _ => true
  | .drain _ => true
  | .lose _ => true
  | .reconnect _ => true
  | _ => false

namespace World

/-- A run of events that happen to participants. -/
abbrev Drifts (w : World) (events : List Event) (w' : World) : Prop :=
  Run step (fun _ event => event.isLocal = true) w events w'

/-- Two states differ only in the states of these participants, the
participants themselves, and how many of them `_tmpNum` counts. -/
structure Apart (part : List Nat) (w w' : World) : Prop where
  phase : w'.phase = w.phase
  pending : w'.pending = w.pending
  txid : w'.sys.co.txid = w.sys.co.txid
  lg : w'.sys.co.lg = w.sys.co.lg
  pnum : w'.sys.co.pnum = w.sys.co.pnum
  cstate : w'.sys.co.cstate = w.sys.co.cstate
  slots : ∀ id, (w'.sys.co.entry id).slots = (w.sys.co.entry id).slots
  maxTxid : ∀ id, (w'.sys.co.entry id).maxTxid = (w.sys.co.entry id).maxTxid
  others : ∀ id ∉ part,
    (w'.sys.co.entry id).pstate = (w.sys.co.entry id).pstate ∧
      w'.sys.node id = w.sys.node id

namespace Apart

variable
  {part : List Nat}
  {w w' w'' : World}

theorem refl (part : List Nat) (w : World) : Apart part w w :=
  ⟨rfl, rfl, rfl, rfl, rfl, rfl, fun _ => rfl, fun _ => rfl,
    fun _ _ => ⟨rfl, rfl⟩⟩

theorem trans
    (first : Apart part w w')
    (second : Apart part w' w'') :
    Apart part w w'' where
  phase := second.phase.trans first.phase
  pending := second.pending.trans first.pending
  txid := second.txid.trans first.txid
  lg := second.lg.trans first.lg
  pnum := second.pnum.trans first.pnum
  cstate := second.cstate.trans first.cstate
  slots := fun id => (second.slots id).trans (first.slots id)
  maxTxid := fun id => (second.maxTxid id).trans (first.maxTxid id)
  others := fun id outside =>
    ⟨(second.others id outside).1.trans (first.others id outside).1,
      (second.others id outside).2.trans (first.others id outside).2⟩

theorem mono
    (apart : Apart part w w')
    {whole : List Nat}
    (within : part ⊆ whole) :
    Apart whole w w' :=
  { apart with
    others := fun id outside => apart.others id fun member =>
      outside (within member) }

theorem ids (apart : Apart part w w') : w'.sys.co.ids = w.sys.co.ids := by
  rw [Coordinator.ids, Coordinator.ids, apart.pnum]

/-- Replacing a participant. -/
theorem setNode (w : World) (id : Nat) (node : Node) :
    Apart [id] w { w with sys := w.sys.setNode id node } :=
  ⟨rfl, rfl, rfl, rfl, rfl, rfl, fun _ => rfl, fun _ => rfl,
    fun other outside => by
      rw [List.mem_singleton] at outside
      exact ⟨rfl, Function.update_of_ne outside ..⟩⟩

/-- `keepAlive` connects to a participant. -/
theorem reconnect (w : World) (id : Nat) :
    Apart [id] w { w with sys := w.sys.reconnect id } := by
  have entry : ∀ other, ((w.sys.reconnect id).co.entry other) =
      if other = id then { w.sys.co.entry id with pstate := .temp }
      else w.sys.co.entry other :=
    fun other => Function.update_apply ..
  refine ⟨rfl, rfl, rfl, rfl, rfl, rfl, fun other => ?_, fun other => ?_,
    fun other outside => ?_⟩
  · rw [entry]
    split
    · rename_i same
      rw [same]
      rfl
    · rfl
  · rw [entry]
    split
    · rename_i same
      rw [same]
    · rfl
  · rw [List.mem_singleton] at outside
    rw [entry, if_neg outside]
    exact ⟨rfl, Function.update_of_ne outside ..⟩

end Apart

variable {w : World} {id : Nat}

/-- What happens to a participant without the coordinator happens in the
system. -/
theorem follows_outage
    (inside : id ∈ w.sys.co.ids)
    {node node' : Node}
    (outage : node.Outage node')
    (same : (w.sys.node id).bare = node.bare) :
    ∃ events last, Drifts w events
        { w with sys := w.sys.setNode id last } ∧
      last.bare = node'.bare := by
  -- One more event at the end of those that have led to `last`.
  have extend : ∀ {events : List Event} {last : Node} (event : Event)
      (change : Node → Node), event.isLocal = true →
      (∀ w : World, w.step event = w.onNode id change) →
      Drifts w events { w with sys := w.sys.setNode id last } →
      Drifts w (events ++ [event])
        { w with sys := w.sys.setNode id (change last) } := by
    intro events last event change isLocal steps run
    refine run.append (.single isLocal ?_)
    rw [steps]
    refine (if_pos inside).trans ?_
    simp only [Sys.setNode, Function.update_self, Function.update_idem]
  induction outage with
  | refl =>
      refine ⟨[], w.sys.node id, ?_, same⟩
      have kept : w.sys.setNode id (w.sys.node id) = w.sys := by
        rw [Sys.setNode, Function.update_eq_self]
      rw [kept]
      exact .nil w
  | drop before inductionHypothesis =>
      obtain ⟨events, last, run, isLast⟩ := inductionHypothesis
      refine ⟨_, _, extend (.drop id) (fun node => { node with link := false })
        rfl (fun _ => rfl) run, ?_⟩
      exact congrArg (fun node => { node with link := false }) isLast
  | crash before inductionHypothesis =>
      obtain ⟨events, last, run, isLast⟩ := inductionHypothesis
      exact ⟨_, _, extend (.crash id) _ rfl (fun _ => rfl) run, rfl⟩
  | drain before inductionHypothesis =>
      obtain ⟨events, last, run, isLast⟩ := inductionHypothesis
      exact ⟨_, _, extend (.drain id) _ rfl (fun _ => rfl) run,
        Node.bare_drain_congr isLast⟩
  | lose before inductionHypothesis =>
      obtain ⟨events, last, run, isLast⟩ := inductionHypothesis
      refine ⟨_, _, extend (.lose id) (fun node => { node with late := none })
        rfl (fun _ => rfl) run, ?_⟩
      exact congrArg (fun node => { node with late := none }) isLast

/-- So does what the threads have made of a participant since the last
exchange, a connection by `keepAlive` included. -/
theorem follows_behind
    (inside : id ∈ w.sys.co.ids)
    {mode : Mode}
    {entry entry' : Entry}
    {node node' : Node}
    (behind : Behind mode entry node entry' node')
    (pstate : (w.sys.co.entry id).pstate = entry.pstate)
    (same : (w.sys.node id).bare = node.bare) :
    ∃ events w', Drifts w events w' ∧ Apart [id] w w' ∧
      (w'.sys.co.entry id).pstate = entry'.pstate ∧
      (w'.sys.node id).bare = node'.bare := by
  cases behind with
  | same slots pstate' exact outage =>
      obtain ⟨events, last, run, isLast⟩ := follows_outage inside outage same
      refine ⟨events, _, run, .setNode w id last,
        pstate.trans pstate'.symm, ?_⟩
      simp only [Sys.setNode, Function.update_self]
      exact isLast
  | @joined isWork slots waiting temp between first quiet second =>
      obtain ⟨events, last, run, isLast⟩ := follows_outage inside first same
      let connected : World :=
        { w with sys := (w.sys.setNode id last).reconnect id }
      have isNode : connected.sys.node id = { last with link := true } := by
        simp [connected, Sys.reconnect, Sys.setNode]
      have joins : step { w with sys := w.sys.setNode id last }
          (.reconnect id) = some connected := by
        have late : last.late = none := by
          rw [show last.late = last.bare.late from rfl, isLast]
          exact quiet
        refine if_pos ⟨inside, pstate.trans waiting, ?_⟩
        simpa only [Sys.setNode, Function.update_self] using late
      obtain ⟨events', last', run', isLast'⟩ :=
        follows_outage (w := connected) inside second
          (by rw [isNode]
              exact congrArg (fun node => { node with link := true }) isLast)
      refine ⟨_, _, (run.append (.single rfl joins)).append run',
        ((Apart.setNode w id last).trans (.reconnect _ id)).trans
          (.setNode connected id last'), ?_, ?_⟩
      · change (connected.sys.co.entry id).pstate = _
        rw [temp]
        simp [connected, Sys.reconnect, Sys.setNode, Coordinator.setEntry]
      · simp only [Sys.setNode, Function.update_self]
        exact isLast'

/-- The system comes to a state in which every participant is as the threads
have it. -/
theorem catches_up
    {entry : Nat → Entry}
    {node : Nat → Node}
    {part : List Nat}
    (members : part ⊆ w.sys.co.ids)
    (distinct : part.Nodup)
    (behind : ∀ id ∈ part, ∃ mode before node',
      Behind mode before node' (entry id) (node id) ∧
        (w.sys.co.entry id).pstate = before.pstate ∧
        (w.sys.node id).bare = node'.bare) :
    ∃ events w', Drifts w events w' ∧ Apart part w w' ∧
      ∀ id ∈ part, (w'.sys.co.entry id).pstate = (entry id).pstate ∧
        (w'.sys.node id).bare = (node id).bare := by
  induction part generalizing w with
  | nil => exact ⟨[], w, .nil w, .refl [] w, by simp⟩
  | cons id part inductionHypothesis =>
      obtain ⟨inside, members⟩ := List.cons_subset.mp members
      obtain ⟨notLater, distinct⟩ := List.nodup_cons.mp distinct
      obtain ⟨mode, before, node', isBehind, pstate, same⟩ :=
        behind id List.mem_cons_self
      obtain ⟨events, middle, run, apart, reached⟩ :=
        follows_behind inside isBehind pstate same
      have untouched : ∀ other ∈ part, other ∉ [id] := by
        intro other member isFirst
        rw [List.mem_singleton] at isFirst
        exact notLater (isFirst ▸ member)
      obtain ⟨events', w', run', apart', reached'⟩ :=
        inductionHypothesis (w := middle)
          (fun other member => apart.ids ▸ members member) distinct
          fun other member => by
            obtain ⟨isPstate, isNode⟩ :=
              apart.others other (untouched other member)
            rw [isPstate, isNode]
            exact behind other (List.mem_cons_of_mem id member)
      refine ⟨_, w', run.append run',
        (apart.mono (by simp)).trans (apart'.mono (by simp)), ?_⟩
      intro other member
      rcases List.mem_cons.mp member with isFirst | later
      · subst isFirst
        obtain ⟨isPstate, isNode⟩ := apart'.others other notLater
        rw [isPstate, isNode]
        exact reached
      · exact reached' other later

end World

end Lab3
end CloudComputing
