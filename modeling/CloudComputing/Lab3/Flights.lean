import CloudComputing.Lab3.Outages

/-!
# One exchange in two views

An exchange of a worker with its participant, over a connection and as one call
of `sendAndRecv` with a fate.  Whatever happens between its beginning and its
end has a fate: the request is answered, it is lost or left behind in the
connection, it is executed without its answer arriving, or the process
restarts.
-/

namespace CloudComputing
namespace Lab3

open CloudComputing.Lab3.Parser Network

namespace Node

/-- The coming fates of a participant. -/
def withFates (node : Node) (fates : List Fate) : Node :=
  { node with fates := fates }

/-- A participant that has answered. -/
def answer (node : Node) (smsg : Bytes) (next : Participant) : Node :=
  { node with
    proc := next
    restarted := false
    received := node.received ++ [smsg] }

end Node

/-- Where the request of an exchange is. -/
inductive Way (node : Node) (text : Bytes) (line : Line) : Prop
  | asked
      (linked : node.link = true)
      (proc : line.proc = node.proc)
      (peer : line.peer = true)
      (up : line.up = wire (pack text))
      {ticket : Ticket}
      (tickets : line.tickets = [ticket])
      (down : line.down = [])
  | lost
      (peer : line.peer = false)
      (up : line.up = [])
      (down : line.down = [])
      {node' : Node}
      (outage : node.Outage node')
      (proc : line.proc = node'.proc)
      (quiet : node'.late = none)
  | answered
      (linked : node.link = true)
      (sendable : Sendable text)
      {reply : Bytes}
      {next : Participant}
      (replied : node.proc.pWorker text = some (reply, next))
      (up : line.up = [])
      (down : line.down = wire (pack reply))
      {node' : Node}
      (outage : (node.answer text next).Outage node')
      (proc : line.proc = node'.proc)
      (quiet : node'.late = none)
      (peer : node'.link = line.peer)

namespace Way

variable
  {node : Node}
  {text : Bytes}
  {line line' : Line}

theorem crash (way : Way node text line) : Way node text line.crash := by
  cases way with
  | asked linked proc peer up tickets down =>
      exact .lost rfl rfl down (.crash .refl) rfl rfl
  | lost peer up down outage proc quiet =>
      exact .lost rfl rfl down outage.crash rfl rfl
  | answered linked sendable replied up down outage proc quiet peer =>
      exact .answered linked sendable replied rfl down outage.crash rfl rfl rfl

theorem hangUp (way : Way node text line) : Way node text line.hangUp := by
  cases way with
  | asked linked proc peer up tickets down =>
      exact .lost rfl rfl down (.lose .refl) proc rfl
  | lost peer up down outage proc quiet =>
      exact .lost rfl rfl down outage proc quiet
  | answered linked sendable replied up down outage proc quiet peer =>
      exact .answered linked sendable replied rfl down outage.drop proc quiet
        rfl

/-- The participant handles the request. -/
theorem serve
    (way : Way node text line)
    {reads : List Nat}
    (taken : line.serve reads = some line') :
    Way node text line' := by
  unfold Line.serve at taken
  split at taken
  · rename_i content reads' rest ticket tickets received isTickets
    cases way with
    | lost peer up =>
        rw [up, Line.recv_nil] at received
        cases received
    | answered linked sendable replied up =>
        rw [up, Line.recv_nil] at received
        cases received
    | asked linked proc peer up own down =>
        by_cases sendable : Sendable text
        · obtain ⟨reads'', exactly⟩ := recv_wire_of_sendable reads sendable
          rw [up, exactly] at received
          cases received
          split at taken
          · cases taken
            exact .lost rfl rfl down (.crash .refl) rfl rfl
          · rename_i reply next replied
            cases taken
            rw [proc] at replied
            refine .answered linked sendable replied rfl ?_ (.lose .refl) rfl
              rfl (linked.trans peer.symm)
            rw [down, List.nil_append]
        · rw [up, recv_wire_of_not_sendable reads sendable] at received
          cases received
  · cases taken

/-- An exchange that fails has a fate. -/
theorem fail
    (way : Way node text line)
    (old : line.old = none)
    (error : NetError)
    (part : Bytes)
    (arrives : Nat) :
    ∃ fate after,
      (∀ fates, (node.withFates (fate :: fates)).sendAndRecv text =
        (error.code, part, Node.withFates after fates)) ∧
      ∃ node', after.Outage node' ∧ (line.close arrives).proc = node'.proc ∧
        Left (line.close arrives).old node'.late := by
  cases way with
  | asked linked proc peer up tickets down =>
      by_cases complete : line.up.length ≤ arrives
      · refine ⟨.failed .late error part,
          { node with link := false, late := some text }, fun fates => ?_,
          _, .refl, proc, ?_⟩
        · simp only [Node.sendAndRecv, Node.withFates, linked,
            List.headD_cons, List.tail_cons]
        · rw [up] at complete
          simp only [Line.close, peer, if_true, tickets, up,
            List.take_of_length_le complete]
          exact .request text _
      · refine ⟨.failed .never error part, { node with link := false },
          fun fates => ?_, _, .lose .refl, proc, ?_⟩
        · simp only [Node.sendAndRecv, Node.withFates, linked,
            List.headD_cons, List.tail_cons]
        · rw [up] at complete
          simp only [Line.close, peer, if_true, up]
          exact .noise (fun reads => recv_wire_take reads (by omega)) _
  | lost peer up down outage proc quiet =>
      have closed : (line.close arrives).old = none := by
        simp only [Line.close, peer, Bool.false_eq_true, if_false, old]
      obtain ⟨node', moved, isProc, isLate⟩ :=
        outage.transfer { node with link := false } rfl rfl
      refine ⟨.failed .never error part, { node with link := false },
        fun fates => ?_, node', moved, proc.trans isProc.symm, ?_⟩
      · cases linked : node.link with
        | true =>
            simp only [Node.sendAndRecv, Node.withFates, linked,
              List.headD_cons, List.tail_cons]
        | false =>
            simp only [Node.sendAndRecv, Node.withFates, linked,
              List.headD_cons, List.tail_cons]
      · rw [closed, isLate, quiet]
        exact .nothing
  | @answered linked sendable reply next replied up down node' outage proc
      quiet peer =>
      obtain ⟨node'', moved, isProc, isLate⟩ :=
        outage.transfer
          { node.answer text next with
            link := false, restarted := node.restarted } rfl rfl
      refine ⟨.failed .executed error part, _, fun fates => ?_, node'', moved,
        proc.trans isProc.symm, ?_⟩
      · simp only [Node.sendAndRecv, Node.withFates, linked, List.headD_cons,
          List.tail_cons, Node.runUnanswered,
          Node.handle_of_sendable [] sendable replied, Node.answer]
      · rw [isLate, quiet]
        unfold Line.close
        dsimp only
        split
        · rw [up, List.take_nil]
          exact .noise (fun _ => rfl) _
        · rw [old]
          exact .nothing

/-- An exchange that succeeds has a fate. -/
theorem receive
    (way : Way node text line)
    {reads reads' : List Nat}
    {rmsg rest : Bytes}
    (received : recvReply reads line.down = some (rmsg, reads', rest)) :
    ∃ fate after,
      (∀ fates, (node.withFates (fate :: fates)).sendAndRecv text =
        (kvOk, rmsg, Node.withFates after fates)) ∧
      ∃ node', after.Outage node' ∧ line.proc = node'.proc ∧
        node'.late = none ∧ node'.link = line.peer := by
  cases way with
  | asked linked proc peer up tickets down =>
      rw [down, Line.recvReply_nil] at received
      cases received
  | lost peer up down =>
      rw [down, Line.recvReply_nil] at received
      cases received
  | @answered linked sendable reply next replied up down node' outage proc
      quiet peer =>
      by_cases fits : Sendable reply
      · obtain ⟨reads'', exactly⟩ := recvReply_wire_of_sendable reads fits
        rw [down, exactly] at received
        cases received
        refine ⟨.answered [] reads, node.answer text next, fun fates => ?_,
          node', outage, proc, quiet, peer⟩
        have connected :
            (node.withFates (.answered [] reads :: fates)).link = true :=
          linked
        exact Node.sendAndRecv_of_answered connected rfl sendable replied fits
      · rw [down, recvReply_wire_of_not_sendable reads fits] at received
        cases received

end Way

/-! ## Entries -/

/-- Two entries that a worker treats alike. -/
structure Entry.Alike (mode : Mode) (entry entry' : Entry) : Prop where
  slots : entry'.slots = entry.slots
  pstate : entry'.pstate = entry.pstate
  exact : mode = .recovery → entry' = entry

namespace Entry

theorem task_of_slots
    {entry entry' : Entry}
    (same : entry'.slots = entry.slots)
    (port : Port) :
    entry'.task port = entry.task port := by
  simp only [slots, Prod.mk.injEq] at same
  cases port with
  | work id => exact same.1.1
  | recov id => exact same.2.1

theorem pstate_store
    (port : Port)
    (rc : Int)
    (rmsg : Bytes)
    (entry : Entry) :
    (entry.store port rc rmsg).pstate =
      if rc ≠ kvOk then .waiting else entry.pstate := by
  cases port with
  | work id =>
      simp only [store]
      split
      · rfl
      · rfl
  | recov id =>
      simp only [store]
      split
      · rfl
      · split
        · rfl
        · rfl

theorem slots_store
    {entry entry' : Entry}
    (same : entry'.slots = entry.slots)
    (port : Port)
    (rc : Int)
    (rmsg : Bytes) :
    (entry'.store port rc rmsg).slots = (entry.store port rc rmsg).slots := by
  simp only [slots, Prod.mk.injEq] at same
  cases port with
  | work id =>
      simp only [store]
      split
      · simp only [slots, same]
      · simp only [slots, same]
  | recov id =>
      simp only [store]
      split
      · simp only [slots, same]
      · split
        · simp only [slots, same]
        · simp only [slots, same]

theorem Alike.store
    {mode : Mode}
    {entry entry' : Entry}
    (alike : Alike mode entry entry')
    (port : Port)
    (rc : Int)
    (rmsg : Bytes) :
    Alike mode (entry.store port rc rmsg) (entry'.store port rc rmsg) where
  slots := slots_store alike.slots port rc rmsg
  pstate := by
    rw [pstate_store, pstate_store, alike.pstate]
  exact := by
    intro isRecovery
    rw [alike.exact isRecovery]

end Entry

/-- A participant with a task that its worker has not done yet: `entry` and
`node` are as before the task. -/
structure InFlight
    (mode : Mode)
    (port : Port)
    (text : Bytes)
    (entry : Entry)
    (node : Node)
    (entry' : Entry)
    (line : Line) : Prop where
  admitted : ∃ started, entry.admits port = some (true, started) ∧
    started.task port = text ∧ Entry.Alike mode started entry'
  started : entry'.pstate ≠ .waiting
  linked : line.link = true
  old : line.old = none
  way : Way node text line

namespace InFlight

variable
  {mode : Mode}
  {port : Port}
  {text : Bytes}
  {entry entry' : Entry}
  {node : Node}
  {line : Line}

/-- The line changes during the exchange. -/
theorem onLine
    (flight : InFlight mode port text entry node entry' line)
    {line' : Line}
    (linked : line'.link = line.link)
    (old : line'.old = none)
    (way : Way node text line → Way node text line') :
    InFlight mode port text entry node entry' line' :=
  ⟨flight.admitted, flight.started, linked.trans flight.linked, old,
    way flight.way⟩

/-- The exchange fails; so it does in an execution with a suitable fate. -/
theorem fail
    (flight : InFlight mode port text entry node entry' line)
    (error : NetError)
    (part : Bytes)
    (arrives : Nat) :
    ∃ fate after done,
      (∀ fates, port.body entry (node.withFates (fate :: fates)) =
        some (done, Node.withFates after fates)) ∧
      Stands mode done after (entry'.store port error.code part)
        (line.close arrives) := by
  obtain ⟨started, admitted, isText, alike⟩ := flight.admitted
  obtain ⟨fate, after, exchanged, node', outage, proc, left⟩ :=
    flight.way.fail flight.old error part arrives
  have stored := alike.store port error.code part
  refine ⟨fate, after, started.store port error.code part, fun fates => ?_,
    node', .same stored.slots stored.pstate stored.exact outage, proc, left,
    fun connected => Bool.noConfusion connected, fun notWaiting => ?_⟩
  · rw [Port.body, admitted, Option.bind_eq_bind, Option.bind_some]
    simp only [Bool.true_eq_false, if_false, isText, exchanged]
  · rw [Entry.pstate_store, if_pos error.code_ne_kvOk] at notWaiting
    exact absurd rfl notWaiting

/-- The exchange succeeds; so it does in an execution with a suitable fate. -/
theorem receive
    (flight : InFlight mode port text entry node entry' line)
    {reads reads' : List Nat}
    {rmsg rest : Bytes}
    (received : recvReply reads line.down = some (rmsg, reads', rest)) :
    ∃ fate after done,
      (∀ fates, port.body entry (node.withFates (fate :: fates)) =
        some (done, Node.withFates after fates)) ∧
      Stands mode done after (entry'.store port kvOk rmsg)
        { line with down := rest } := by
  obtain ⟨started, admitted, isText, alike⟩ := flight.admitted
  obtain ⟨fate, after, exchanged, node', outage, proc, quiet, peer⟩ :=
    flight.way.receive received
  have stored := alike.store port kvOk rmsg
  refine ⟨fate, after, started.store port kvOk rmsg, fun fates => ?_,
    node', .same stored.slots stored.pstate stored.exact outage, proc, ?_,
    fun _ => flight.linked, fun _ => ⟨flight.linked, flight.old, peer⟩⟩
  · rw [Port.body, admitted, Option.bind_eq_bind, Option.bind_some]
    simp only [Bool.true_eq_false, if_false, isText, exchanged]
  · rw [quiet]
    exact flight.old ▸ .nothing

end InFlight

/-! ## The start of a task -/

theorem Entry.admits_recov
    {id : Nat}
    {entry entry' : Entry}
    {goesOn : Bool}
    (admitted : entry.admits (.recov id) = some (goesOn, entry')) :
    entry'.pstate = entry.pstate ∧
      (goesOn = true → entry.pstate = .recovery) := by
  simp only [Entry.admits] at admitted
  split at admitted
  · cases admitted
    exact ⟨rfl, fun goesOn => Bool.noConfusion goesOn⟩
  · rename_i recovering
    obtain ⟨l, _, isEntry⟩ := Option.bind_eq_some_iff.mp admitted
    split at isEntry
    · cases isEntry
      exact ⟨rfl, fun _ => not_not.mp recovering⟩
    · cases isEntry
      exact ⟨rfl, fun _ => not_not.mp recovering⟩

namespace Stands

variable
  {mode : Mode}
  {port : Port}
  {entry entry' started : Entry}
  {node : Node}
  {line : Line}

/-- A port that is in use belongs to `pWorking`, or the mode is that of
`Recovery`. -/
theorem work_or_recovery
    (uses : mode = .work → port = .work port.id) :
    port = .work port.id ∨ mode = .recovery := by
  cases mode with
  | work => exact .inl (uses rfl)
  | recovery => exact .inr rfl

/-- A worker skips its task. -/
theorem skip
    (stands : Stands mode entry node entry' line)
    (uses : mode = .work → port = .work port.id)
    (admitted : entry'.admits port = some (false, started)) :
    ∃ done,
      (∀ fates, port.body entry (node.withFates fates) =
        some (done, node.withFates fates)) ∧
      Stands mode done node (started.skip port) line := by
  have body : ∀ {begun : Entry}, entry.admits port = some (false, begun) →
      ∀ fates, port.body entry (node.withFates fates) =
        some (begun.skip port, node.withFates fates) := by
    intro begun admits fates
    rw [Port.body, admits, Option.bind_eq_bind, Option.bind_some]
    exact if_pos rfl
  have pstate : ∀ entry : Entry, (entry.skip port).pstate = entry.pstate := by
    intro entry
    cases port with
    | work id => rfl
    | recov id => rfl
  rcases work_or_recovery uses with isWork | rfl
  · generalize port.id = id at isWork
    subst isWork
    simp only [Entry.admits, Option.some.injEq, Prod.mk.injEq] at admitted
    obtain ⟨idle, rfl⟩ := admitted
    have idle' : entry.pstate ≠ .working := by
      obtain ⟨node', behind, _⟩ := stands
      cases behind with
      | same slots same =>
          rw [← same]
          exact of_decide_eq_false idle
      | joined isWork slots waiting =>
          rw [waiting]
          exact PState.noConfusion
    refine ⟨entry.skip (.work id), body ?_, stands.assign ?_ pstate⟩
    · simp only [Entry.admits, decide_eq_false idle']
    · obtain ⟨node', behind, _⟩ := stands
      have same := behind.slots
      simp only [Entry.slots, Entry.skip, Prod.mk.injEq] at same ⊢
      exact ⟨⟨same.1.1, trivial, same.1.2.2⟩, same.2⟩
  · obtain ⟨node', behind, shows'⟩ := stands
    rw [behind.exact] at admitted shows'
    have before : node.Outage node' := by
      cases behind with
      | same slots pstate exact outage => exact outage
      | joined isWork => cases isWork
    refine ⟨started.skip port, body admitted, node',
      .same rfl rfl (fun _ => rfl) before, ?_⟩
    have same : started.pstate = entry.pstate := by
      cases port with
      | work id =>
          simp only [Entry.admits, Option.some.injEq, Prod.mk.injEq]
            at admitted
          exact admitted.2 ▸ rfl
      | recov id => exact (Entry.admits_recov admitted).1
    rw [pstate, same]
    exact shows'

/-- A worker starts its exchange. -/
theorem begin
    (stands : Stands mode entry node entry' line)
    (uses : mode = .work → port = .work port.id)
    (admitted : entry'.admits port = some (true, started))
    (quiet : line.Quiet)
    (ticket : Ticket) :
    line.link = true ∧
      InFlight mode port (entry'.task port) entry node started
        (line.send ticket (entry'.task port)) := by
  obtain ⟨node', behind, shows'⟩ := stands
  have isStarted : started.pstate = entry'.pstate ∧
      (entry'.pstate = .working ∨ entry'.pstate = .recovery) := by
    cases port with
    | work id =>
        simp only [Entry.admits, Option.some.injEq, Prod.mk.injEq] at admitted
        exact ⟨admitted.2 ▸ rfl, .inl (of_decide_eq_true admitted.1)⟩
    | recov id =>
        obtain ⟨same, recovering⟩ := Entry.admits_recov admitted
        exact ⟨same, .inr (recovering rfl)⟩
  have notWaiting : entry'.pstate ≠ .waiting := by
    rcases isStarted.2 with working | recovering
    · rw [working]
      exact PState.noConfusion
    · rw [recovering]
      exact PState.noConfusion
  obtain ⟨linked, old, isPeer⟩ := shows'.linked notWaiting
  have start : node.Outage node' ∧ ∃ begun,
      entry.admits port = some (true, begun) ∧
        Entry.Alike mode begun started := by
    cases behind with
    | joined isWork slots waiting temp =>
        rw [temp] at isStarted
        rcases isStarted.2 with same | same
        · cases same
        · cases same
    | same slots pstate exact before =>
        refine ⟨before, ?_⟩
        rcases work_or_recovery uses with isWork | isRecovery
        · generalize port.id = id at isWork
          subst isWork
          simp only [Entry.admits, Option.some.injEq, Prod.mk.injEq]
            at admitted
          obtain ⟨working, rfl⟩ := admitted
          refine ⟨entry, ?_, slots, pstate, exact⟩
          rw [pstate] at working
          simp only [Entry.admits, working]
        · rw [exact isRecovery] at admitted
          exact ⟨started, admitted, rfl, rfl, fun _ => rfl⟩
  obtain ⟨outage, begun, admits, alike⟩ := start
  have isText : begun.task port = entry'.task port :=
    ((Entry.task_of_slots alike.slots port).symm.trans
      (Entry.task_of_slots (Entry.admits_slots admitted) port))
  refine ⟨linked, ⟨begun, admits, isText, alike⟩, ?_, ?_, ?_, ?_⟩
  · rw [isStarted.1]
    exact notWaiting
  · unfold Line.send
    split
    · exact linked
    · exact linked
  · unfold Line.send
    split
    · exact old
    · exact old
  · cases connected : line.peer with
    | true =>
        obtain ⟨wasLinked, same⟩ := outage.of_link (isPeer.trans connected)
        have alone : line.tickets ++ [ticket] = [ticket] := by
          rw [quiet.tickets]
          rfl
        rw [Line.send, if_pos connected]
        refine .asked wasLinked (shows'.proc.trans same) connected ?_ alone
          quiet.down
        rw [quiet.up]
        rfl
    | false =>
        rw [Line.send, if_neg (by rw [connected]; exact Bool.noConfusion)]
        refine .lost connected quiet.up quiet.down outage shows'.proc ?_
        have left := shows'.left
        rw [old] at left
        exact left.none_of_nothing

end Stands

end Lab3
end CloudComputing
