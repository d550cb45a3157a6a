import CloudComputing.Lab3.Execution
import CloudComputing.Lab3.Replica

/-!
# What an exchange does to a participant

The possible results of `sendAndRecv` (`Node.Sent`), and with them of the
worker bodies `pWorking` (`Worked`) and `pRecovery` (`Replayed`).  Whatever the
fate of an exchange, a participant that can be trusted (`NodeOk`) stays so: its
process stays a replica, also after it has executed a request left behind in
an old connection.
-/

namespace CloudComputing
namespace Lab3

open CloudComputing.Lab3.Parser Network

/-- The process has handled messages of the coordinator since it started, and
a late one is such a message. -/
structure Traced (node : Node) : Prop where
  served : ∃ executed,
    Participant.init.serve node.received = some (executed, node.proc)
  messages : ∀ smsg ∈ node.received, Message smsg
  late : ∀ smsg, node.late = some smsg → Sendable smsg → Message smsg

/-- A participant whose log replays to its map, now and after a late request.
No request is late while the connection is up.  With `traced`, the process has
come to its state by messages of the coordinator. -/
structure NodeOk
    (admissible : Nat → Log → Prop)
    (traced : Prop)
    (node : Node) : Prop where
  replica : Replica admissible node.proc
  drained : Replica admissible node.drain.proc
  closed : node.link = true → node.late = none
  trace : traced → Traced node

/-- A message of the coordinator that a process, if it arrives, executes and
stays a replica. -/
def Safe
    (admissible : Nat → Log → Prop)
    (p : Participant)
    (smsg : Bytes) : Prop :=
  Sendable smsg → Message smsg ∧
    ∃ reply next, p.pWorker smsg = some (reply, next) ∧
      Replica admissible next

namespace Node

/-- The next request reaches the participant, or may reach it late. -/
def delivers (node : Node) : Bool :=
  node.link &&
    match node.fates.headD (.answered [] []) with
    | .answered _ _ => true
    | .failed .late _ _ => true
    | .failed .executed _ _ => true
    | .failed .never _ _ => false
    | .failed .crash _ _ => false

/-- A participant after an exchange that fails for the coordinator. -/
inductive Lost (node : Node) (smsg : Bytes) : Node → Prop
  | unsent :
      Lost node smsg { node with link := false, fates := node.fates.tail }
  | late
      (delivered : node.delivers = true) :
      Lost node smsg
        { node with
          link := false, late := some smsg, fates := node.fates.tail }
  | executed
      (delivered : node.delivers = true)
      (sendable : Sendable smsg)
      {reply : Bytes}
      {next : Participant}
      (replied : node.proc.pWorker smsg = some (reply, next)) :
      Lost node smsg
        { node with
          proc := next
          link := false
          received := node.received ++ [smsg]
          fates := node.fates.tail }
  | crashed
      (linked : node.link = true) :
      Lost node smsg { node.crash with fates := node.fates.tail }

/-- The results of `sendAndRecv` for a message that the participant can
answer. -/
inductive Sent (node : Node) (smsg : Bytes) : Int × Bytes × Node → Prop
  | answered
      (delivered : node.delivers = true)
      (sendable : Sendable smsg)
      {reply : Bytes}
      {next : Participant}
      (replied : node.proc.pWorker smsg = some (reply, next)) :
      Sent node smsg
        (kvOk, reply,
          { node with
            proc := next
            restarted := false
            received := node.received ++ [smsg]
            fates := node.fates.tail })
  | lost
      {code : Int}
      (error : code ≠ kvOk)
      (part : Bytes)
      {node' : Node}
      (lost : Lost node smsg node') :
      Sent node smsg (code, part, node')

theorem link_of_delivers
    {node : Node}
    (delivered : node.delivers = true) :
    node.link = true := by
  simp only [delivers, Bool.and_eq_true] at delivered
  exact delivered.1

theorem handle_of_sendable
    {proc next : Participant}
    (reads : List Nat)
    {smsg reply : Bytes}
    (sendable : Sendable smsg)
    (replied : proc.pWorker smsg = some (reply, next)) :
    handle proc reads smsg = .replied reply next := by
  obtain ⟨reads', received⟩ := recv_wire_of_sendable reads sendable
  simp only [handle, received, replied]

theorem handle_of_not_sendable
    (proc : Participant)
    (reads : List Nat)
    {smsg : Bytes}
    (tooLong : ¬ Sendable smsg) :
    handle proc reads smsg = .waiting := by
  simp only [handle, recv_wire_of_not_sendable reads tooLong]

/-- `sendAndRecv` of a message that the participant can answer. -/
theorem sendAndRecv_sent
    (node : Node)
    {smsg : Bytes}
    (answerable : Sendable smsg → ∃ reply next,
      node.proc.pWorker smsg = some (reply, next)) :
    Sent node smsg (node.sendAndRecv smsg) := by
  cases linked : node.link with
  | false =>
      have same : ({ node with fates := node.fates.tail } : Node) =
          { node with link := false, fates := node.fates.tail } := by
        rw [← linked]
      cases fate : node.fates.headD (.answered [] []) with
      | answered reads replyReads =>
          simp only [sendAndRecv, linked, fate]
          exact .lost (by decide) [] (by rw [← linked]; exact same ▸ .unsent)
      | failed arrival error part =>
          simp only [sendAndRecv, linked, fate]
          exact .lost (error.code_ne_kvOk) part
            (by rw [← linked]; exact same ▸ .unsent)
  | true =>
      cases fate : node.fates.headD (.answered [] []) with
      | answered reads replyReads =>
          have delivered : node.delivers = true := by
            simp only [delivers, linked, fate, Bool.and_self]
          simp only [sendAndRecv, linked, fate]
          by_cases sendable : Sendable smsg
          · obtain ⟨reply, next, replied⟩ := answerable sendable
            simp only [handle_of_sendable reads sendable replied]
            by_cases fits : Sendable reply
            · obtain ⟨rest, received⟩ :=
                recvReply_wire_of_sendable replyReads fits
              simp only [received]
              have same := Sent.answered delivered sendable replied
              simpa only [linked] using same
            · simp only [recvReply_wire_of_not_sendable replyReads fits]
              exact .lost (by decide) []
                (.executed delivered sendable replied)
          · simp only [handle_of_not_sendable node.proc reads sendable]
            exact .lost (by decide) [] .unsent
      | failed arrival error part =>
          simp only [sendAndRecv, linked, fate]
          refine .lost (error.code_ne_kvOk) part ?_
          cases arrival with
          | never => exact .unsent
          | late =>
              exact .late (by simp only [delivers, linked, fate, Bool.and_self])
          | executed =>
              have delivered : node.delivers = true := by
                simp only [delivers, linked, fate, Bool.and_self]
              simp only [runUnanswered]
              by_cases sendable : Sendable smsg
              · obtain ⟨reply, next, replied⟩ := answerable sendable
                simp only [handle_of_sendable [] sendable replied]
                exact .executed delivered sendable replied
              · simp only [handle_of_not_sendable node.proc [] sendable]
                exact .unsent
          | crash =>
              simp only [crash]
              exact .crashed linked

/-- An exchange with the fate to be answered delivers the participant's
answer. -/
theorem sendAndRecv_of_answered
    {node : Node}
    (linked : node.link = true)
    {reads replyReads : List Nat}
    (fate : node.fates.headD (.answered [] []) = .answered reads replyReads)
    {smsg reply : Bytes}
    {next : Participant}
    (sendable : Sendable smsg)
    (replied : node.proc.pWorker smsg = some (reply, next))
    (fits : Sendable reply) :
    node.sendAndRecv smsg =
      (kvOk, reply,
        { node with
          proc := next
          restarted := false
          received := node.received ++ [smsg]
          fates := node.fates.tail }) := by
  obtain ⟨rest, received⟩ := recvReply_wire_of_sendable replyReads fits
  simp only [sendAndRecv, linked, fate, handle_of_sendable reads sendable
    replied, received]

/-- A delivered request is executed, or left behind in the connection. -/
theorem sendAndRecv_of_delivers
    {node : Node}
    (delivered : node.delivers = true)
    {smsg reply : Bytes}
    {next : Participant}
    (sendable : Sendable smsg)
    (replied : node.proc.pWorker smsg = some (reply, next)) :
    (node.sendAndRecv smsg).2.2.proc = next ∨
      ((node.sendAndRecv smsg).2.2.proc = node.proc ∧
        (node.sendAndRecv smsg).2.2.late = some smsg) := by
  have linked := link_of_delivers delivered
  cases fate : node.fates.headD (.answered [] []) with
  | answered reads replyReads =>
      left
      simp only [sendAndRecv, linked, fate,
        handle_of_sendable reads sendable replied]
      split
      · rfl
      · rfl
  | failed arrival error part =>
      cases arrival with
      | never =>
          simp only [delivers, linked, fate, Bool.and_false,
            Bool.false_eq_true] at delivered
      | crash =>
          simp only [delivers, linked, fate, Bool.and_false,
            Bool.false_eq_true] at delivered
      | late =>
          right
          simp only [sendAndRecv, linked, fate, and_self]
      | executed =>
          left
          simp only [sendAndRecv, linked, fate, runUnanswered,
            handle_of_sendable [] sendable replied]

/-- A connected participant whose coming exchanges are all answered. -/
structure Faultless (node : Node) : Prop where
  linked : node.link = true
  answers : ∀ fate ∈ node.fates,
    ∃ reads replyReads, fate = .answered reads replyReads

/-- A faultless exchange delivers the participant's answer. -/
theorem Faultless.sendAndRecv
    {node : Node}
    (faultless : node.Faultless)
    {smsg reply : Bytes}
    {next : Participant}
    (sendable : Sendable smsg)
    (replied : node.proc.pWorker smsg = some (reply, next))
    (fits : Sendable reply) :
    node.sendAndRecv smsg =
      (kvOk, reply,
        { node with
          proc := next
          restarted := false
          received := node.received ++ [smsg]
          fates := node.fates.tail }) := by
  obtain ⟨reads, replyReads, fate⟩ :
      ∃ reads replyReads,
        node.fates.headD (.answered [] []) = .answered reads replyReads := by
    cases fates : node.fates with
    | nil => exact ⟨[], [], rfl⟩
    | cons fate rest => exact faultless.answers fate (by simp [fates])
  exact sendAndRecv_of_answered faultless.linked fate sendable replied fits

theorem Faultless.next
    {node : Node}
    (faultless : node.Faultless)
    (proc : Participant)
    (received : List Bytes) :
    ({ node with
        proc := proc
        restarted := false
        received := received
        fates := node.fates.tail } : Node).Faultless where
  linked := faultless.linked
  answers := fun fate member =>
    faultless.answers fate (List.mem_of_mem_tail member)

end Node

/-! ## Participants stay trusted -/

namespace Replica

variable {admissible : Nat → Log → Prop} {p : Participant}

/-- A message that changes nothing is safe. -/
theorem safe_of_same
    (replica : Replica admissible p)
    {smsg reply : Bytes}
    (message : Message smsg)
    (replied : p.pWorker smsg = some (reply, p)) :
    Safe admissible p smsg :=
  fun _ => ⟨message, reply, p, replied, replica⟩

/-- A commit request is safe when its record is admissible where it would be
executed. -/
theorem safe_commitReq
    (replica : Replica admissible p)
    {id : Nat}
    (lower : txidStart ≤ id)
    {task : List Bytes}
    (update : isUpdate task = true)
    (allowed : Log.readTxid id = p.txid →
      LogRecord p.txid (p.nextRecord task) →
      admissible p.txid (p.nextRecord task)) :
    Safe admissible p (commitReq id (getRESPArry task)) := by
  intro sendable
  have answer := p.pWorker_commitReq lower (event_small_of_sendable sendable)
  by_cases own : Log.readTxid id = p.txid ∧ Participant.Accepted task = true
  · have well := replica.logRecord own.1 update own.2 sendable
    rw [if_pos own] at answer
    exact ⟨.commit lower update sendable, _, _, answer,
      replica.append well (allowed own.1 well)⟩
  · rw [if_neg own] at answer
    exact ⟨.commit lower update sendable, _, _, answer, replica⟩

end Replica

theorem Safe.answerable
    {admissible : Nat → Log → Prop}
    {p : Participant}
    {smsg : Bytes}
    (safe : Safe admissible p smsg) :
    Sendable smsg → ∃ reply next, p.pWorker smsg = some (reply, next) := by
  intro sendable
  obtain ⟨_, reply, next, replied, _⟩ := safe sendable
  exact ⟨reply, next, replied⟩

/-- One more message is handled. -/
theorem Traced.append
    {node : Node}
    (traced : Traced node)
    {smsg reply : Bytes}
    {next : Participant}
    (message : Message smsg)
    (replied : node.proc.pWorker smsg = some (reply, next))
    {node' : Node}
    (proc : node'.proc = next)
    (received : node'.received = node.received ++ [smsg])
    (late : node'.late = node.late) :
    Traced node' where
  served := by
    obtain ⟨executed, served⟩ := traced.served
    have one : node.proc.serve [smsg] =
        some (node.proc.executedBy smsg, next) := by
      simp [Participant.serve, replied]
    refine ⟨executed ++ node.proc.executedBy smsg, ?_⟩
    rw [received, proc, Participant.serve_append, served]
    simp [one]
  messages := by
    intro other member
    rw [received] at member
    rcases List.mem_append.mp member with member | member
    · exact traced.messages other member
    · rw [List.mem_singleton.mp member]
      exact message
  late := by
    rw [late]
    exact traced.late

/-- A new process has handled nothing. -/
theorem Traced.of_new
    {node : Node}
    (proc : node.proc = .init)
    (received : node.received = [])
    (late : node.late = none) :
    Traced node where
  served := ⟨[], by rw [received, proc]; rfl⟩
  messages := by simp [received]
  late := by simp [late]

namespace NodeOk

variable {admissible : Nat → Log → Prop} {traced : Prop} {node : Node}

/-- A replica without a late request. -/
theorem of_quiet
    (replica : Replica admissible node.proc)
    (quiet : node.late = none)
    (trace : traced → Traced node) :
    NodeOk admissible traced node where
  replica := replica
  drained := by
    rw [Node.drain, quiet]
    exact replica
  closed := fun _ => quiet
  trace := trace

/-- Only the process with its messages, the late request and the connection
matter. -/
theorem congr
    (ok : NodeOk admissible traced node)
    {node' : Node}
    (proc : node'.proc = node.proc)
    (received : node'.received = node.received)
    (late : node'.late = node.late)
    (closed : node'.link = true → node'.late = none) :
    NodeOk admissible traced node' where
  replica := proc ▸ ok.replica
  drained := by
    have drained := ok.drained
    cases request : node'.late with
    | none =>
        simp only [Node.drain, request]
        exact proc ▸ ok.replica
    | some smsg =>
        simp only [Node.drain, ← late, request, Node.runUnanswered,
          ← proc] at drained
        simp only [Node.drain, request, Node.runUnanswered]
        cases handled : Node.handle node'.proc [] smsg with
        | waiting => exact proc ▸ ok.replica
        | aborted => exact .init
        | replied reply next =>
            rw [handled] at drained
            exact drained
  closed := closed
  trace := by
    intro isTraced
    obtain ⟨served, messages, isLate⟩ := ok.trace isTraced
    exact ⟨by rw [received, proc]; exact served,
      by rw [received]; exact messages, by rw [late]; exact isLate⟩

/-- A failed exchange keeps a trusted participant and cuts its connection. -/
theorem lost
    (ok : NodeOk admissible traced node)
    {smsg : Bytes}
    {node' : Node}
    (lost : node.Lost smsg node')
    (safe : node.delivers = true → Safe admissible node.proc smsg) :
    NodeOk admissible traced node' ∧ node'.link = false := by
  cases lost with
  | unsent => exact ⟨ok.congr rfl rfl rfl (by simp), rfl⟩
  | late delivered =>
      refine ⟨⟨ok.replica, ?_, by simp, fun isTraced => ?_⟩, rfl⟩
      · simp only [Node.drain, Node.runUnanswered]
        by_cases sendable : Sendable smsg
        · obtain ⟨_, reply, next, replied, kept⟩ := safe delivered sendable
          simp only [Node.handle_of_sendable [] sendable replied]
          exact kept
        · simp only [Node.handle_of_not_sendable node.proc [] sendable]
          exact ok.replica
      · obtain ⟨served, messages, _⟩ := ok.trace isTraced
        refine ⟨served, messages, ?_⟩
        intro late isLate sendable
        cases isLate
        exact (safe delivered sendable).1
  | @executed delivered sendable reply next replied =>
      obtain ⟨message, reply', next', replied', kept⟩ :=
        safe delivered sendable
      have same : next' = next := by
        rw [replied] at replied'
        exact (congrArg Prod.snd (Option.some.inj replied')).symm
      refine ⟨of_quiet (same ▸ kept) ?_ fun isTraced => ?_, rfl⟩
      · exact ok.closed (Node.link_of_delivers delivered)
      · exact (ok.trace isTraced).append message replied rfl rfl rfl
  | crashed linked =>
      exact ⟨of_quiet .init rfl fun _ => .of_new rfl rfl rfl, rfl⟩

/-- An answered exchange keeps a trusted participant. -/
theorem answered
    (ok : NodeOk admissible traced node)
    {smsg reply : Bytes}
    {next : Participant}
    (delivered : node.delivers = true)
    (sendable : Sendable smsg)
    (replied : node.proc.pWorker smsg = some (reply, next))
    (safe : Safe admissible node.proc smsg) :
    NodeOk admissible traced
      { node with
        proc := next
        restarted := false
        received := node.received ++ [smsg]
        fates := node.fates.tail } := by
  obtain ⟨message, reply', next', replied', kept⟩ := safe sendable
  have same : next' = next := by
    rw [replied] at replied'
    exact (congrArg Prod.snd (Option.some.inj replied')).symm
  exact of_quiet (same ▸ kept)
    (ok.closed (Node.link_of_delivers delivered))
    fun isTraced => (ok.trace isTraced).append message replied rfl rfl rfl

/-- Executing the late request keeps a trusted participant. -/
theorem drain
    (ok : NodeOk admissible traced node) :
    NodeOk admissible traced node.drain := by
  cases request : node.late with
  | none =>
      have same : node.drain = node := by rw [Node.drain, request]
      rw [same]
      exact ok
  | some smsg =>
      have quiet : node.drain.late = none := by rw [Node.drain, request]
      refine of_quiet ok.drained quiet fun isTraced => ?_
      have trace := ok.trace isTraced
      by_cases sendable : Sendable smsg
      · have message := trace.late smsg request sendable
        have replica : Replica (fun _ _ => True) node.proc :=
          ok.replica.weaken fun _ _ _ _ => trivial
        obtain ⟨reply, next, replied, _⟩ :=
          replica.pWorker message fun _ _ _ _ _ => trivial
        have drained : node.drain =
            { node with
              proc := next
              link := false
              received := node.received ++ [smsg]
              late := none } := by
          simp only [Node.drain, request, Node.runUnanswered,
            Node.handle_of_sendable [] sendable replied]
        let handled : Node :=
          { node with proc := next, received := node.received ++ [smsg] }
        obtain ⟨served, messages, _⟩ := trace.append message replied
          (show handled.proc = next from rfl) rfl rfl
        rw [drained]
        exact ⟨served, messages, by simp⟩
      · have drained : node.drain =
            { node with link := false, late := none } := by
          simp only [Node.drain, request, Node.runUnanswered,
            Node.handle_of_not_sendable node.proc [] sendable]
        rw [drained]
        exact ⟨trace.served, trace.messages, by simp⟩

end NodeOk

/-! ## The worker bodies -/

/-- The results of `pWorking` for a task that the participant can answer. -/
inductive Worked (task : Bytes) (peer : Entry × Node) : Entry × Node → Prop
  | skipped
      (idle : peer.1.pstate ≠ .working) :
      Worked task peer
        ({ peer.1 with ptask := task, pworkingRet := retSkip }, peer.2)
  | answered
      (working : peer.1.pstate = .working)
      (delivered : peer.2.delivers = true)
      (sendable : Sendable task)
      {reply : Bytes}
      {next : Participant}
      (replied : peer.2.proc.pWorker task = some (reply, next)) :
      Worked task peer
        ({ peer.1 with
            ptask := task, pworkingRet := kvOk, pworkingDataRet := reply },
          { peer.2 with
            proc := next
            restarted := false
            received := peer.2.received ++ [task]
            fates := peer.2.fates.tail })
  | lost
      (working : peer.1.pstate = .working)
      {code : Int}
      (error : code ≠ kvOk)
      (part : Bytes)
      {node' : Node}
      (lost : peer.2.Lost task node') :
      Worked task peer
        ({ peer.1 with
            ptask := task
            pworkingRet := code
            pworkingDataRet := part
            pstate := .waiting },
          node')

/-- `pWorking` with a task that the participant can answer. -/
theorem workPeer_worked
    (task : Bytes)
    (peer : Entry × Node)
    (answerable : peer.1.pstate = .working → Sendable task →
      ∃ reply next, peer.2.proc.pWorker task = some (reply, next)) :
    Worked task peer (workPeer task peer) := by
  by_cases working : peer.1.pstate = .working
  · have sent := peer.2.sendAndRecv_sent (answerable working)
    simp only [workPeer, pWorking, working, ne_eq, not_true_eq_false, if_false]
    generalize peer.2.sendAndRecv task = outcome at sent
    cases sent with
    | answered delivered sendable replied =>
        simp only [not_true_eq_false, if_false]
        have same := Worked.answered working delivered sendable replied
        simpa only [working] using same
    | lost error part lost =>
        simp only [error, not_false_eq_true, if_true]
        exact .lost working error part lost
  · simp only [workPeer, pWorking, ne_eq, working, not_false_eq_true, if_true]
    exact .skipped working

/-- The results of `pRecovery` for a task that decodes to `l` and that the
participant can answer. -/
inductive Replayed (l : Log) (task : Bytes) (peer : Entry × Node) :
    Entry × Node → Prop
  | idle
      (idle : peer.1.pstate ≠ .recovery) :
      Replayed l task peer
        ({ peer.1 with pRtask := task, precoveryRet := retSkip }, peer.2)
  | skipped
      (recovering : peer.1.pstate = .recovery)
      (lower : txidStart ≤ l.ID)
      (other : l.ID ≠ peer.1.maxTxid.getD 0 + 1) :
      Replayed l task peer
        ({ peer.1 with
            pRtask := task
            precoveryRet := retSkip
            maxTxid := some (peer.1.maxTxid.getD 0) },
          peer.2)
  | answered
      (recovering : peer.1.pstate = .recovery)
      (due : txidStart ≤ l.ID → l.ID = peer.1.maxTxid.getD 0 + 1)
      (delivered : peer.2.delivers = true)
      (sendable : Sendable task)
      {reply : Bytes}
      {next : Participant}
      (replied : peer.2.proc.pWorker task = some (reply, next))
      {maxTxid : Option Nat}
      (counted : reply ≠ getErrorMessage →
        maxTxid = some (peer.1.maxTxid.getD 0 + 1)) :
      Replayed l task peer
        ({ peer.1 with
            pRtask := task
            precoveryRet := kvOk
            preoveryDataRet := reply
            maxTxid := maxTxid },
          { peer.2 with
            proc := next
            restarted := false
            received := peer.2.received ++ [task]
            fates := peer.2.fates.tail })
  | lost
      (recovering : peer.1.pstate = .recovery)
      {code : Int}
      (error : code ≠ kvOk)
      (part : Bytes)
      {node' : Node}
      (lost : peer.2.Lost task node') :
      Replayed l task peer
        ({ peer.1 with
            pRtask := task
            precoveryRet := code
            preoveryDataRet := part
            pstate := .waiting
            maxTxid := none },
          node')

/-- The exchange of `pRecovery`, for an entry that differs from the one before
at most in a created table entry. -/
theorem pRecoverySend_replayed
    (l : Log)
    (task : Bytes)
    (peer : Entry × Node)
    (answerable : peer.1.pstate = .recovery → Sendable task →
      ∃ reply next, peer.2.proc.pWorker task = some (reply, next))
    (recovering : peer.1.pstate = .recovery)
    (due : txidStart ≤ l.ID → l.ID = peer.1.maxTxid.getD 0 + 1)
    (table : Option Nat)
    (same : table.getD 0 = peer.1.maxTxid.getD 0) :
    Replayed l task peer
      (pRecoverySend { peer.1 with pRtask := task, maxTxid := table }
        peer.2) := by
  have sent := peer.2.sendAndRecv_sent (answerable recovering)
  simp only [pRecoverySend]
  generalize peer.2.sendAndRecv task = outcome at sent
  cases sent with
  | @answered delivered sendable reply next replied =>
      simp only [ne_eq, not_true_eq_false, if_false]
      by_cases counts : reply = getErrorMessage
      · simp only [counts, not_true_eq_false, if_false]
        rw [counts] at replied
        exact .answered recovering due delivered sendable replied
          (fun counted => absurd rfl counted)
      · simp only [counts, not_false_eq_true, if_true, same]
        exact .answered recovering due delivered sendable replied
          (fun _ => rfl)
  | lost error part lost =>
      simp only [ne_eq, error, not_false_eq_true, if_true]
      exact .lost recovering error part lost

/-- `pRecovery` with a task that the participant can answer. -/
theorem recovPeer_replayed
    (l : Log)
    (task : Bytes)
    (peer : Entry × Node)
    (answerable : peer.1.pstate = .recovery → Sendable task →
      ∃ reply next, peer.2.proc.pWorker task = some (reply, next)) :
    Replayed l task peer (recovPeer l task peer) := by
  by_cases recovering : peer.1.pstate = .recovery
  · simp only [recovPeer, recovering, ne_eq, not_true_eq_false, if_false,
      Option.getD_some]
    by_cases lower : txidStart ≤ l.ID
    · rw [if_pos lower]
      by_cases due : l.ID = peer.1.maxTxid.getD 0 + 1
      · rw [if_neg (not_not.mpr due)]
        have sent := pRecoverySend_replayed l task peer answerable recovering
          (fun _ => due) (some (peer.1.maxTxid.getD 0)) rfl
        simpa only [recovering] using sent
      · rw [if_pos due]
        have skipped := @Replayed.skipped l task peer recovering lower due
        simpa only [recovering] using skipped
    · rw [if_neg lower]
      have sent := pRecoverySend_replayed l task peer answerable recovering
        (fun reached => absurd reached lower) peer.1.maxTxid rfl
      simpa only [recovering] using sent
  · simp only [recovPeer, ne_eq, recovering, not_false_eq_true, if_true]
    exact .idle recovering

/-! ## Faultless participants -/

/-- A faultless participant answers its worker. -/
theorem workPeer_faultless
    {task : Bytes}
    {peer : Entry × Node}
    (faultless : peer.2.Faultless)
    (answer : peer.1.pstate = .working → Sendable task ∧
      ∃ reply next, peer.2.proc.pWorker task = some (reply, next) ∧
        Sendable reply) :
    (workPeer task peer).2.Faultless ∧
      (workPeer task peer).1.pstate = peer.1.pstate := by
  by_cases working : peer.1.pstate = .working
  · obtain ⟨sendable, reply, next, replied, fits⟩ := answer working
    have sent := faultless.sendAndRecv sendable replied fits
    simp only [workPeer, pWorking, working, ne_eq, not_true_eq_false, if_false,
      sent, and_true]
    exact faultless.next next _
  · simp only [workPeer, pWorking, ne_eq, working, not_false_eq_true, if_true,
      and_true]
    exact faultless

/-- A faultless participant answers its recovery worker. -/
theorem recovPeer_faultless
    {l : Log}
    {task : Bytes}
    {peer : Entry × Node}
    (faultless : peer.2.Faultless)
    (answer : peer.1.pstate = .recovery → Sendable task ∧
      ∃ reply next, peer.2.proc.pWorker task = some (reply, next) ∧
        Sendable reply) :
    (recovPeer l task peer).2.Faultless ∧
      (recovPeer l task peer).1.pstate = peer.1.pstate := by
  by_cases recovering : peer.1.pstate = .recovery
  · obtain ⟨sendable, reply, next, replied, fits⟩ := answer recovering
    have sent := faultless.sendAndRecv sendable replied fits
    have exchange : ∀ table : Option Nat,
        (pRecoverySend { peer.1 with pRtask := task, maxTxid := table }
          peer.2).2.Faultless ∧
        (pRecoverySend { peer.1 with pRtask := task, maxTxid := table }
          peer.2).1.pstate = .recovery := by
      intro table
      simp only [pRecoverySend, sent, ne_eq, not_true_eq_false, if_false]
      split
      · exact ⟨faultless.next next _, recovering⟩
      · exact ⟨faultless.next next _, recovering⟩
    simp only [recovPeer, recovering, ne_eq, not_true_eq_false, if_false,
      Option.getD_some]
    simp only [recovering] at exchange
    split
    · split
      · exact ⟨faultless, rfl⟩
      · exact exchange _
    · exact exchange _
  · simp only [recovPeer, ne_eq, recovering, not_false_eq_true, if_true,
      and_true]
    exact faultless

end Lab3
end CloudComputing
