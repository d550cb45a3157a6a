import CloudComputing.Lab3.Locality
import CloudComputing.Lab3.System
import CloudComputing.Lab3.WorkerSteps

/-!
# A participant at a connection

A participant as the threads see it (`Line`, with bytes on their way) and as an
execution with prompt workers sees it (`Node`).  Between two exchanges the
second is behind the first by events that no worker notices: connections break,
processes restart, late requests are executed (`Node.Outage`), and `keepAlive`
connects again (`Behind`).  During an exchange the request is on its way, lost
or answered (`Way`).
-/

namespace CloudComputing
namespace Lab3

open CloudComputing.Lab3.Parser Network

/-! ## Between two exchanges -/

namespace Node

/-- What happens to a participant without the coordinator. -/
inductive Outage (node : Node) : Node → Prop
  | refl : Outage node node
  | drop {node' : Node} (before : Outage node node') :
      Outage node { node' with link := false }
  | crash {node' : Node} (before : Outage node node') :
      Outage node node'.crash
  | drain {node' : Node} (before : Outage node node') :
      Outage node node'.drain
  | lose {node' : Node} (before : Outage node node') :
      Outage node { node' with late := none }

theorem link_runUnanswered (node : Node) (smsg : Bytes) :
    (node.runUnanswered smsg).link = false := by
  unfold runUnanswered
  split
  · rfl
  · rfl
  · rfl

/-- A participant that has executed a late request is not connected. -/
theorem drain_of_link
    {node : Node}
    (linked : node.drain.link = true) :
    node.drain = node := by
  cases request : node.late with
  | none => rw [drain, request]
  | some smsg =>
      rw [drain, request] at linked
      change (node.runUnanswered smsg).link = true at linked
      rw [link_runUnanswered] at linked
      cases linked

/-- While the connection lasts, nothing happens to the process. -/
theorem Outage.of_link
    {node node' : Node}
    (outage : node.Outage node')
    (linked : node'.link = true) :
    node.link = true ∧ node'.proc = node.proc := by
  induction outage with
  | refl => exact ⟨linked, rfl⟩
  | drop before => cases linked
  | crash before => cases linked
  | drain before inductionHypothesis =>
      have same := drain_of_link linked
      rw [same] at linked ⊢
      exact inductionHypothesis linked
  | lose before inductionHypothesis => exact inductionHypothesis linked

/-- What a late request does depends on the process only. -/
theorem drain_congr
    {node other : Node}
    (proc : other.proc = node.proc)
    (late : other.late = node.late) :
    other.drain.proc = node.drain.proc ∧
      other.drain.late = node.drain.late := by
  unfold drain
  rw [late]
  split
  · rename_i quiet
    exact ⟨proc, late.trans quiet |>.trans quiet.symm⟩
  · unfold runUnanswered
    rw [proc]
    split
    · exact ⟨rfl, rfl⟩
    · exact ⟨rfl, rfl⟩
    · exact ⟨rfl, rfl⟩

/-- The same happens to another participant with this process and this late
request. -/
theorem Outage.transfer
    {node node' : Node}
    (outage : node.Outage node')
    (other : Node)
    (proc : other.proc = node.proc)
    (late : other.late = node.late) :
    ∃ other', other.Outage other' ∧ other'.proc = node'.proc ∧
      other'.late = node'.late := by
  induction outage with
  | refl => exact ⟨other, .refl, proc, late⟩
  | drop before inductionHypothesis =>
      obtain ⟨other', moved, isProc, isLate⟩ := inductionHypothesis
      exact ⟨_, moved.drop, isProc, isLate⟩
  | crash before inductionHypothesis =>
      obtain ⟨other', moved, isProc, isLate⟩ := inductionHypothesis
      exact ⟨_, moved.crash, rfl, rfl⟩
  | drain before inductionHypothesis =>
      obtain ⟨other', moved, isProc, isLate⟩ := inductionHypothesis
      obtain ⟨drainedProc, drainedLate⟩ := drain_congr isProc isLate
      exact ⟨_, moved.drain, drainedProc, drainedLate⟩
  | lose before inductionHypothesis =>
      obtain ⟨other', moved, isProc, isLate⟩ := inductionHypothesis
      exact ⟨_, moved.lose, isProc, rfl⟩

end Node

theorem Resting.outage
    {admissible : Nat → Log → Prop}
    {txid : Nat}
    {entry : Entry}
    {node node' : Node}
    (state : Resting admissible txid (entry, node))
    (outage : node.Outage node') :
    Resting admissible txid (entry, node') := by
  induction outage with
  | refl => exact state
  | drop before inductionHypothesis => exact inductionHypothesis.drop
  | crash before inductionHypothesis => exact inductionHypothesis.crash
  | drain before inductionHypothesis => exact inductionHypothesis.drain
  | lose before inductionHypothesis => exact inductionHypothesis.lose

/-- What the threads have made of an entry and a participant since the last
exchange: during `Working` a waiting participant may have been connected. -/
inductive Behind
    (mode : Mode)
    (entry : Entry)
    (node : Node)
    (entry' : Entry)
    (node' : Node) : Prop
  | same
      (slots : entry'.slots = entry.slots)
      (pstate : entry'.pstate = entry.pstate)
      (exact : mode = .recovery → entry' = entry)
      (outage : node.Outage node')
  | joined
      (isWork : mode = .work)
      (slots : entry'.slots = entry.slots)
      (waiting : entry.pstate = .waiting)
      (temp : entry'.pstate = .temp)
      {between : Node}
      (first : node.Outage between)
      (quiet : between.late = none)
      (second : Node.Outage { between with link := true } node')

namespace Behind

variable
  {mode : Mode}
  {entry entry' : Entry}
  {node node' : Node}

theorem refl (mode : Mode) (entry : Entry) (node : Node) :
    Behind mode entry node entry node :=
  .same rfl rfl (fun _ => rfl) .refl

theorem slots (behind : Behind mode entry node entry' node') :
    entry'.slots = entry.slots := by
  cases behind with
  | same slots => exact slots
  | joined isWork slots => exact slots

theorem exact
    (behind : Behind .recovery entry node entry' node') :
    entry' = entry := by
  cases behind with
  | same slots pstate exact => exact exact rfl
  | joined isWork => cases isWork

/-- More happens without the coordinator. -/
theorem outage
    (behind : Behind mode entry node entry' node')
    {node'' : Node}
    (more : ∀ {start : Node}, start.Outage node' → start.Outage node'') :
    Behind mode entry node entry' node'' := by
  cases behind with
  | same slots pstate exact before =>
      exact .same slots pstate exact (more before)
  | joined isWork slots waiting temp first quiet second =>
      exact .joined isWork slots waiting temp first quiet (more second)

/-- The participant is at rest, if the one behind is. -/
theorem resting
    (behind : Behind mode entry node entry' node')
    {admissible : Nat → Log → Prop}
    {txid : Nat}
    (state : Resting admissible txid (entry, node)) :
    Resting admissible txid (entry', node') := by
  have transfer : ∀ {first second : Entry} {node : Node},
      second.pstate = first.pstate →
      Resting admissible txid (first, node) →
      Resting admissible txid (second, node) := by
    intro first second node same state
    exact ⟨same ▸ state.valid, state.sound, fun late => same ▸ state.late late,
      fun working => state.connected (same ▸ working),
      fun working => state.aligned (same ▸ working)⟩
  cases behind with
  | same slots pstate exact before =>
      exact transfer pstate (state.outage before)
  | joined isWork slots waiting temp first quiet second =>
      exact transfer temp
        (((state.outage first).reconnect quiet).outage second)

end Behind

/-- What a participant has still to read from its old connection: nothing, one
request, or bytes that are no request. -/
inductive Left : Option (Bytes × List Ticket) → Option Bytes → Prop
  | nothing : Left none none
  | request (smsg : Bytes) (ticket : Ticket) :
      Left (some (wire (pack smsg), [ticket])) (some smsg)
  | noise
      {bytes : Bytes}
      (silent : ∀ reads, recv reads bytes = none)
      (tickets : List Ticket) :
      Left (some (bytes, tickets)) none

theorem Left.none_of_nothing
    {late : Option Bytes}
    (left : Left none late) :
    late = none := by
  cases left
  rfl

/-- The two views of a participant.  Whether a waiting one is connected does
not matter: no worker uses its connection. -/
structure Shows (pstate : PState) (node : Node) (line : Line) : Prop where
  proc : line.proc = node.proc
  left : Left line.old node.late
  peer : line.peer = true → line.link = true
  linked : pstate ≠ .waiting → line.link = true ∧ line.old = none ∧
    node.link = line.peer

/-- Between two exchanges. -/
def Stands
    (mode : Mode)
    (entry : Entry)
    (node : Node)
    (entry' : Entry)
    (line : Line) : Prop :=
  ∃ node', Behind mode entry node entry' node' ∧
    Shows entry'.pstate node' line

namespace Stands

variable
  {mode : Mode}
  {entry entry' : Entry}
  {node : Node}
  {line line' : Line}

theorem crash
    (stands : Stands mode entry node entry' line) :
    Stands mode entry node entry' line.crash := by
  obtain ⟨node', behind, shows'⟩ := stands
  refine ⟨node'.crash, behind.outage .crash, rfl, .nothing,
    fun connected => Bool.noConfusion connected, fun notWaiting => ?_⟩
  exact ⟨(shows'.linked notWaiting).1, rfl, rfl⟩

theorem hangUp
    (stands : Stands mode entry node entry' line) :
    Stands mode entry node entry' line.hangUp := by
  obtain ⟨node', behind, shows'⟩ := stands
  refine ⟨{ node' with link := false }, behind.outage .drop, shows'.proc,
    shows'.left, fun connected => Bool.noConfusion connected,
    fun notWaiting => ?_⟩
  obtain ⟨linked, old, _⟩ := shows'.linked notWaiting
  exact ⟨linked, old, rfl⟩

theorem drain
    (stands : Stands mode entry node entry' line)
    {reads : List Nat}
    (taken : line.drain reads = some line') :
    Stands mode entry node entry' line' := by
  obtain ⟨node', behind, shows'⟩ := stands
  have waiting : line.old ≠ none → entry'.pstate = .waiting := by
    intro isOld
    by_contra notWaiting
    exact isOld (shows'.linked notWaiting).2.1
  have proc := shows'.proc
  have left := shows'.left
  unfold Line.drain at taken
  split at taken
  · cases taken
  · rename_i bytes tickets isOld
    have isWaiting := waiting (by rw [isOld]; exact Option.some_ne_none _)
    have vacuous : ∀ {node : Node} {line : Line}, entry'.pstate ≠ .waiting →
        line.link = true ∧ line.old = none ∧ node.link = line.peer :=
      fun notWaiting => absurd isWaiting notWaiting
    rw [isOld] at left
    generalize isLate : node'.late = late at left
    cases left with
    | request smsg ticket =>
        by_cases sendable : Sendable smsg
        · obtain ⟨reads', received⟩ := recv_wire_of_sendable reads sendable
          rw [received] at taken
          dsimp only at taken
          have executed : node'.drain =
              { node'.runUnanswered smsg with late := none } := by
            rw [Node.drain, isLate]
          split at taken
          · rename_i aborts
            cases taken
            refine ⟨node'.drain, behind.outage .drain, ?_, ?_,
              fun connected => Bool.noConfusion connected, vacuous⟩
            · obtain ⟨reads'', exactly⟩ := recv_wire_of_sendable [] sendable
              rw [proc] at aborts
              rw [executed]
              simp only [Node.runUnanswered, Node.handle, exactly, aborts]
              rfl
            · rw [executed]
              exact .nothing
          · rename_i reply next replied
            cases taken
            refine ⟨node'.drain, behind.outage .drain, ?_, ?_, shows'.peer,
              vacuous⟩
            · rw [proc] at replied
              rw [executed]
              simp only [Node.runUnanswered,
                Node.handle_of_sendable [] sendable replied]
            · rw [executed]
              exact .noise (fun _ => rfl) []
        · rw [recv_wire_of_not_sendable reads sendable] at taken
          cases taken
          refine ⟨node'.drain, behind.outage .drain, ?_, ?_, shows'.peer,
            vacuous⟩
          · rw [Node.drain, isLate]
            simp only [Node.runUnanswered,
              Node.handle_of_not_sendable node'.proc [] sendable]
            exact proc
          · rw [Node.drain, isLate]
            exact .nothing
    | noise silent =>
        rw [silent reads] at taken
        cases taken
        exact ⟨node', behind, proc, isLate ▸ .nothing, shows'.peer, vacuous⟩

/-- `keepAlive` connects to a waiting participant. -/
theorem connect
    (stands : Stands mode entry node entry' line)
    (waiting : entry'.pstate = .waiting)
    (taken : line.reconnect = some line') :
    Stands mode entry node entry' line' ∧ line'.link = true ∧
      line'.old = none := by
  obtain ⟨node', behind, shows'⟩ := stands
  unfold Line.reconnect at taken
  split at taken
  · rename_i free
    cases taken
    refine ⟨⟨node', behind, shows'.proc, shows'.left, fun _ => rfl, ?_⟩, rfl,
      free.2⟩
    exact fun notWaiting => absurd waiting notWaiting
  · cases taken

/-- `keepAlive` changes the state of a connected participant. -/
theorem join
    (isWork : mode = .work)
    (stands : Stands mode entry node entry' line)
    (waiting : entry'.pstate = .waiting)
    (linked : line.link = true)
    (old : line.old = none) :
    Stands mode entry node { entry' with pstate := .temp } line := by
  obtain ⟨node', behind, shows'⟩ := stands
  have quiet : node'.late = none := by
    have left := shows'.left
    rw [old] at left
    exact left.none_of_nothing
  have connected : ∀ {node₂ : Node}, node₂.proc = node'.proc →
      node₂.late = node'.late → node₂.link = line.peer →
      Shows .temp node₂ line := by
    intro node₂ proc late link
    exact ⟨shows'.proc.trans proc.symm, late ▸ shows'.left, shows'.peer,
      fun _ => ⟨linked, old, link⟩⟩
  cases behind with
  | same slots pstate exact before =>
      have wasWaiting := pstate.symm.trans waiting
      cases isPeer : line.peer with
      | true =>
          exact ⟨_, .joined isWork slots wasWaiting rfl before quiet .refl,
            connected rfl rfl isPeer.symm⟩
      | false =>
          exact ⟨_, .joined isWork slots wasWaiting rfl before quiet
            (.drop .refl), connected rfl rfl isPeer.symm⟩
  | joined isWork slots wasWaiting temp =>
      rw [waiting] at temp
      cases temp

/-- Both entries are assigned to. -/
theorem reassign
    (stands : Stands mode entry node entry' line)
    {assigned assigned' : Entry}
    (slots : assigned'.slots = assigned.slots)
    (work : mode = .work → assigned.pstate = entry.pstate ∧
      assigned'.pstate = entry'.pstate)
    (recovery : mode = .recovery → assigned' = assigned ∧
      (entry'.pstate = .waiting → assigned'.pstate = .waiting)) :
    Stands mode assigned node assigned' line := by
  obtain ⟨node', behind, shows'⟩ := stands
  have shown : Shows assigned'.pstate node' line := by
    refine ⟨shows'.proc, shows'.left, shows'.peer, fun awake => ?_⟩
    apply shows'.linked
    intro waiting
    apply awake
    cases mode with
    | work => exact (work rfl).2.trans waiting
    | recovery => exact (recovery rfl).2 waiting
  refine ⟨node', ?_, shown⟩
  cases behind with
  | same _ same _ before =>
      refine .same slots ?_ (fun isRecovery => (recovery isRecovery).1) before
      cases mode with
      | work => exact (work rfl).2.trans (same.trans (work rfl).1.symm)
      | recovery => rw [(recovery rfl).1]
  | joined isWork _ waiting temp first quiet second =>
      obtain ⟨pstate, pstate'⟩ := work isWork
      exact .joined isWork slots (pstate.trans waiting) (pstate'.trans temp)
        first quiet second

/-- An entry is assigned to in a way that leaves its state, or in a recovery
the participant is not behind. -/
theorem assign
    (stands : Stands mode entry node entry' line)
    {change : Entry → Entry}
    (slots : (change entry').slots = (change entry).slots)
    (pstate : ∀ entry, (change entry).pstate = entry.pstate) :
    Stands mode (change entry) node (change entry') line := by
  have exact : mode = .recovery → entry' = entry := by
    intro isRecovery
    obtain ⟨_, behind, _⟩ := stands
    cases behind with
    | same _ _ exact => exact exact isRecovery
    | joined isWork => cases isWork.symm.trans isRecovery
  apply stands.reassign slots
  · exact fun _ => ⟨pstate entry, pstate entry'⟩
  · intro isRecovery
    rw [exact isRecovery]
    exact ⟨rfl, fun waiting => (pstate entry).trans waiting⟩

end Stands

end Lab3
end CloudComputing
