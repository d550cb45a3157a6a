import CloudComputing.Lab3.Failed
import CloudComputing.Lab3.RecvCommand

/-!
# Commands that are not received completely

`Working` executes the strings that `recvCommand` has received, also after it
has failed: the prefix of a command is a command.  The theorem says for which
prefixes, states and fates of the exchanges the call changes nothing all the
same.
-/

namespace CloudComputing
namespace Lab3

open CloudComputing.Lab3.Parser Network

namespace Node

/-- The next exchange ends the process. -/
def dies (node : Node) : Bool :=
  node.link &&
    match node.fates.headD (.answered [] []) with
    | .failed .crash _ _ => true
    | _ => false

/-- The next request is executed during its exchange. -/
def executes (node : Node) : Bool :=
  node.link &&
    match node.fates.headD (.answered [] []) with
    | .answered _ _ => true
    | .failed .executed _ _ => true
    | _ => false

/-- The next exchange is answered. -/
def responds (node : Node) : Bool :=
  node.link &&
    match node.fates.headD (.answered [] []) with
    | .answered _ _ => true
    | _ => false

/-- The participant in front of its second exchange, when the first changes
nothing. -/
def second (node : Node) : Node := { node with fates := node.fates.tail }

variable
  {node : Node}
  {smsg reply : Bytes}
  {next : Participant}

theorem responds_iff :
    node.responds = true ↔ node.link = true ∧ ∃ reads replyReads,
      node.fates.headD (.answered [] []) = .answered reads replyReads := by
  unfold responds
  rw [Bool.and_eq_true]
  refine and_congr_right fun _ => ?_
  cases node.fates.headD (.answered [] []) with
  | answered reads replyReads => simp
  | failed arrival error part => simp

/-- The process after an exchange. -/
theorem proc_sendAndRecv
    (answer : Sendable smsg → node.proc.pWorker smsg = some (reply, next)) :
    (node.sendAndRecv smsg).2.2.proc =
      if node.dies then .init
      else if node.executes ∧ Sendable smsg then next
      else node.proc := by
  unfold dies executes
  cases linked : node.link with
  | false =>
      cases fate : node.fates.headD (.answered [] []) with
      | answered reads replyReads =>
          simp only [sendAndRecv, linked, fate]
          simp
      | failed arrival error part =>
          simp only [sendAndRecv, linked, fate]
          simp
  | true =>
      cases fate : node.fates.headD (.answered [] []) with
      | answered reads replyReads =>
          simp only [sendAndRecv, linked, fate]
          by_cases sendable : Sendable smsg
          · simp only [handle_of_sendable reads sendable (answer sendable)]
            split <;> simp [sendable]
          · simp [handle_of_not_sendable node.proc reads sendable, sendable]
      | failed arrival error part =>
          simp only [sendAndRecv, linked, fate]
          cases arrival with
          | never => simp
          | late => simp
          | crash => simp [crash]
          | executed =>
              simp only [runUnanswered]
              by_cases sendable : Sendable smsg
              · simp [handle_of_sendable [] sendable (answer sendable),
                  sendable]
              · simp [handle_of_not_sendable node.proc [] sendable, sendable]

/-- An exchange succeeds when it is answered and its messages fit. -/
theorem sendAndRecv_ok_iff
    (answer : Sendable smsg → node.proc.pWorker smsg = some (reply, next)) :
    (node.sendAndRecv smsg).1 = kvOk ↔
      node.responds = true ∧ Sendable smsg ∧ Sendable reply := by
  unfold responds
  cases linked : node.link with
  | false =>
      cases fate : node.fates.headD (.answered [] []) with
      | answered reads replyReads =>
          simp only [sendAndRecv, linked, fate]
          simp [kvNetwork, kvOk]
      | failed arrival error part =>
          simp only [sendAndRecv, linked, fate]
          simp [error.code_ne_kvOk]
  | true =>
      cases fate : node.fates.headD (.answered [] []) with
      | answered reads replyReads =>
          simp only [sendAndRecv, linked, fate]
          by_cases sendable : Sendable smsg
          · simp only [handle_of_sendable reads sendable (answer sendable)]
            by_cases fits : Sendable reply
            · obtain ⟨rest, received⟩ :=
                recvReply_wire_of_sendable replyReads fits
              simp [received, sendable, fits]
            · simp [recvReply_wire_of_not_sendable replyReads fits, fits,
                kvTimeout, kvOk]
          · simp [handle_of_not_sendable node.proc reads sendable, sendable,
              kvTimeout, kvOk]
      | failed arrival error part =>
          simp only [sendAndRecv, linked, fate]
          simp [error.code_ne_kvOk]

end Node

/-- Two participants have the same log and map. -/
def Participant.SameData (p other : Participant) : Prop :=
  p.lg = other.lg ∧ p.kvdb = other.kvdb

section WorkPeer

variable
  {peer : Entry × Node}
  {task reply : Bytes}
  {next : Participant}

/-- The process after a task. -/
theorem proc_workPeer
    (answer : Sendable task →
      peer.2.proc.pWorker task = some (reply, next)) :
    (workPeer task peer).2.proc =
      if peer.1.pstate = .working ∧ peer.2.dies = true then .init
      else if peer.1.pstate = .working ∧ peer.2.executes = true ∧
          Sendable task then next
      else peer.2.proc := by
  by_cases working : peer.1.pstate = .working
  · have sent := Node.proc_sendAndRecv answer
    simp only [workPeer, pWorking, working, ne_eq, not_true_eq_false, if_false,
      true_and]
    exact sent
  · simp [workPeer, pWorking, working]

/-- The return code and the data of a task that is answered. -/
theorem answered_workPeer
    (answer : Sendable task → peer.2.proc.pWorker task = some (reply, next)) :
    (workPeer task peer).1.pworkingRet = kvOk ↔
      peer.1.pstate = .working ∧ peer.2.responds = true ∧ Sendable task ∧
        Sendable reply := by
  by_cases working : peer.1.pstate = .working
  · have sent := Node.sendAndRecv_ok_iff answer
    simp only [workPeer, pWorking, working, ne_eq, not_true_eq_false, if_false,
      true_and]
    rw [← sent]
    split
    · rfl
    · rfl
  · simp [workPeer, pWorking, working, retSkip, kvOk]

theorem working_of_ok
    (ok : (workPeer task peer).1.pworkingRet = kvOk) :
    peer.1.pstate = .working := by
  by_contra idle
  simp [workPeer, pWorking, idle, retSkip, kvOk] at ok

theorem data_workPeer
    (answer : Sendable task → peer.2.proc.pWorker task = some (reply, next))
    (ok : (workPeer task peer).1.pworkingRet = kvOk) :
    (workPeer task peer).1.pworkingDataRet = reply := by
  obtain ⟨working, responds, sendable, fits⟩ := (answered_workPeer answer).mp ok
  obtain ⟨linked, reads, replyReads, fate⟩ := Node.responds_iff.mp responds
  have sent := Node.sendAndRecv_of_answered linked fate sendable
    (answer sendable) fits
  simp only [workPeer, pWorking, working, sent, ne_eq, not_true_eq_false,
    if_false]

end WorkPeer

/-! ## Updates -/

/-- An update whose exchanges end the process of a participant with data, or
let it execute the command. -/
def Touched (txid : Nat) (task : List Bytes) (peer : Entry × Node) : Prop :=
  peer.1.pstate = .working ∧
    (peer.2.dies = true ∧ ¬ Participant.init.SameData peer.2.proc ∨
      txid < 2 ^ 63 ∧ peer.2.responds = true ∧
        (peer.2.second.dies = true ∧
            ¬ Participant.init.SameData peer.2.proc ∨
          peer.2.second.executes = true ∧ Participant.Accepted task = true ∧
            Sendable (commitReq txid (getRESPArry task))))

theorem Node.not_dies_of_executes
    {node : Node}
    (executes : node.executes = true) :
    node.dies = false := by
  unfold Node.executes at executes
  unfold Node.dies
  cases linked : node.link with
  | false => rfl
  | true =>
      rw [linked] at executes
      split at executes
      · rename_i fate
        rw [fate]
        rfl
      · rename_i fate
        rw [fate]
        rfl
      · cases executes

theorem Node.executes_of_responds
    {node : Node}
    (responds : node.responds = true) :
    node.executes = true := by
  unfold Node.responds at responds
  unfold Node.executes
  cases linked : node.link with
  | false =>
      rw [linked] at responds
      cases responds
  | true =>
      rw [linked] at responds
      split at responds
      · rename_i fate
        rw [fate]
        rfl
      · cases responds

theorem Participant.SameData.refl (p : Participant) : p.SameData p :=
  ⟨rfl, rfl⟩

namespace Resting

variable
  {admissible : Nat → Log → Prop}
  {txid : Nat}
  {peer : Entry × Node}

/-- A vote changes the data of a participant only when its process ends. -/
theorem vote_sameData_iff
    (lower : txidStart ≤ txid) :
    (workPeer (voteReq txid) peer).2.proc.SameData peer.2.proc ↔
      ¬ (peer.1.pstate = .working ∧ peer.2.dies = true ∧
        ¬ Participant.init.SameData peer.2.proc) := by
  have process := @proc_workPeer peer _ _ _
    fun _ => peer.2.proc.pWorker_vote lower []
  rw [← voteReq, ite_self] at process
  rw [process]
  by_cases ends : peer.1.pstate = .working ∧ peer.2.dies = true
  · rw [if_pos ends]
    simp only [ends.1, ends.2, true_and, not_not]
  · rw [if_neg ends]
    refine iff_of_true (.refl _) ?_
    rintro ⟨working, dies, _⟩
    exact ends ⟨working, dies⟩

/-- A participant that is still at work after its vote stands in front of its
second exchange. -/
theorem vote_working_iff
    (state : Resting admissible txid peer)
    (lower : txidStart ≤ txid)
    (small : txid < 2 ^ 63) :
    (workPeer (voteReq txid) peer).1.pstate = .working ↔
      peer.1.pstate = .working ∧ peer.2.responds = true := by
  constructor
  · intro still
    obtain ⟨working, linked⟩ := (state.vote lower).2.2.2 still
    refine ⟨working, ?_⟩
    rcases state.polled lower small working linked with
      ⟨_, _, fate, _⟩ | ⟨_, _, _, _, waiting⟩
    · unfold Node.responds
      rw [linked, fate]
      rfl
    · rw [waiting] at still
      cases still
  · rintro ⟨working, responds⟩
    unfold Node.responds at responds
    rw [Bool.and_eq_true] at responds
    rcases state.polled lower small working responds.1 with
      ⟨_, _, _, _, still, _⟩ | ⟨_, _, _, fate, _⟩
    · exact still
    · rw [fate] at responds
      cases responds.2

/-- A participant that answers its vote is at its second exchange with the
same process. -/
theorem voted_node
    (state : Resting admissible txid peer)
    (lower : txidStart ≤ txid)
    (small : txid < 2 ^ 63)
    (working : peer.1.pstate = .working)
    (responds : peer.2.responds = true) :
    (workPeer (voteReq txid) peer).2 =
      { peer.2.second with
        restarted := false
        received := peer.2.received ++ [voteReq txid] } := by
  have still := (state.vote_working_iff lower small).mpr ⟨working, responds⟩
  rcases state.polled lower small working
      ((state.vote lower).2.2.2 still).2 with
    ⟨_, _, _, _, _, isNode⟩ | ⟨_, _, _, _, waiting⟩
  · exact isNode
  · rw [still] at waiting
    cases waiting

/-- The answer to the commit of a participant that has answered its vote. -/
theorem voted_answer
    (state : Resting admissible txid peer)
    (lower : txidStart ≤ txid)
    (small : txid < 2 ^ 63)
    (working : peer.1.pstate = .working)
    (responds : peer.2.responds = true)
    (task : List Bytes)
    (sendable : Sendable (commitReq txid (getRESPArry task))) :
    (workPeer (voteReq txid) peer).2.proc.pWorker
        (commitReq txid (getRESPArry task)) =
      some
        (if Participant.Accepted task = true then
          (Participant.runComds peer.2.proc.kvdb task).1
        else getErrorMessage,
        if Participant.Accepted task = true then peer.2.proc.append task
        else peer.2.proc) := by
  have linked := (Node.responds_iff.mp responds).1
  have own : Log.readTxid txid = peer.2.proc.txid := by
    rw [Log.readTxid_of_lt small,
      state.aligned working (state.connected working linked)]
  have process : (workPeer (voteReq txid) peer).2.proc = peer.2.proc := by
    rw [state.voted_node lower small working responds]
    rfl
  rw [process, Participant.pWorker_commitReq _ lower
    (event_small_of_sendable sendable)]
  simp only [own, true_and]
  split
  · rfl
  · rfl

/-- The process after the two exchanges of an update, for a participant that
answers the first. -/
theorem proc_updatePeer
    (state : Resting admissible txid peer)
    (lower : txidStart ≤ txid)
    (small : txid < 2 ^ 63)
    (working : peer.1.pstate = .working)
    (responds : peer.2.responds = true)
    (task : List Bytes) :
    (updatePeer txid (getRESPArry task) peer).2.proc =
      if peer.2.second.dies = true then .init
      else if peer.2.second.executes = true ∧
          Sendable (commitReq txid (getRESPArry task)) then
        if Participant.Accepted task = true then peer.2.proc.append task
        else peer.2.proc
      else peer.2.proc := by
  have still := (state.vote_working_iff lower small).mpr ⟨working, responds⟩
  have polled := state.voted_node lower small working responds
  have dies : (workPeer (voteReq txid) peer).2.dies =
      peer.2.second.dies := by
    rw [polled]
    rfl
  have executes : (workPeer (voteReq txid) peer).2.executes =
      peer.2.second.executes := by
    rw [polled]
    rfl
  have process : (workPeer (voteReq txid) peer).2.proc = peer.2.proc := by
    rw [polled]
    rfl
  have final := proc_workPeer
    (state.voted_answer lower small working responds task)
  rw [dies, executes, process] at final
  simp only [still, true_and] at final
  exact final

/-- A participant that acknowledges an update has executed it. -/
theorem touched_of_acknowledged
    (state : Resting admissible txid peer)
    (lower : txidStart ≤ txid)
    (small : txid < 2 ^ 63)
    {task : List Bytes}
    (acknowledged : (updatePeer txid (getRESPArry task) peer).1.acknowledged =
      true) :
    Touched txid task peer := by
  unfold Entry.acknowledged updatePeer at acknowledged
  rw [Bool.and_eq_true, decide_eq_true_eq, decide_eq_true_eq] at acknowledged
  obtain ⟨ok, positive⟩ := acknowledged
  have still := working_of_ok ok
  obtain ⟨working, responds⟩ := (state.vote_working_iff lower small).mp still
  have answer := state.voted_answer lower small working responds task
  obtain ⟨_, later, sendable, _⟩ := (answered_workPeer answer).mp ok
  rw [data_workPeer answer ok] at positive
  have accepted : Participant.Accepted task = true := by
    by_contra rejected
    rw [if_neg rejected] at positive
    exact positive rfl
  rw [state.voted_node lower small working responds] at later
  exact ⟨working, Or.inr ⟨small, responds,
    Or.inr ⟨Node.executes_of_responds later, accepted, sendable⟩⟩⟩

/-- The two exchanges of an update leave the data of a participant as it
is. -/
theorem update_sameData_iff
    (state : Resting admissible txid peer)
    (lower : txidStart ≤ txid)
    (small : txid < 2 ^ 63)
    (task : List Bytes) :
    (updatePeer txid (getRESPArry task) peer).2.proc.SameData peer.2.proc ↔
      ¬ Touched txid task peer := by
  by_cases responds : peer.1.pstate = .working ∧ peer.2.responds = true
  · obtain ⟨working, responds⟩ := responds
    have living := Node.not_dies_of_executes
      (Node.executes_of_responds responds)
    rw [state.proc_updatePeer lower small working responds task]
    simp only [Touched, working, living, Bool.false_eq_true, false_and,
      false_or, small, responds, true_and]
    by_cases ends : peer.2.second.dies = true
    · have idle : peer.2.second.executes = false := by
        cases executes : peer.2.second.executes with
        | false => rfl
        | true =>
            rw [Node.not_dies_of_executes executes] at ends
            cases ends
      simp only [ends, if_true, idle, Bool.false_eq_true, false_and, or_false,
        true_and, not_not]
    · simp only [ends, if_false, Bool.false_eq_true, false_and, false_or]
      by_cases accepted : Participant.Accepted task = true
      · simp only [accepted, if_true, true_and]
        split
        · rename_i executed
          refine iff_of_false ?_ (not_not_intro executed)
          rintro ⟨same, _⟩
          have missing := state.sound.replica.none_of_le le_rfl
          rw [← same] at missing
          simp [Participant.append, Logger.writeLog] at missing
        · rename_i unexecuted
          exact iff_of_true (.refl _) unexecuted
      · simp only [accepted, if_false, Bool.false_eq_true, false_and,
          and_false, ite_self, not_false_eq_true, iff_true]
        exact .refl _
  · have answer := fun sendable :
        Sendable (commitReq txid (getRESPArry task)) =>
      (workPeer (voteReq txid) peer).2.proc.pWorker_commitReq lower
        (event_small_of_sendable sendable)
    have final := proc_workPeer answer
    have gone : ¬ (workPeer (voteReq txid) peer).1.pstate = .working :=
      fun working =>
        responds ((state.vote_working_iff lower small).mp working)
    simp only [gone, false_and, if_false] at final
    rw [updatePeer, final, vote_sameData_iff lower]
    unfold Touched
    rw [not_and] at responds
    constructor
    · rintro unharmed ⟨working, ⟨dies, full⟩ | ⟨_, answers, _⟩⟩
      · exact unharmed ⟨working, dies, full⟩
      · exact responds working answers
    · rintro untouched ⟨working, dies, full⟩
      exact untouched ⟨working, Or.inl ⟨dies, full⟩⟩

end Resting

/-! ## Reads -/

/-- The participant's answer to a read reaches the coordinator. -/
def AnswersRead (task : List Bytes) (peer : Entry × Node) : Prop :=
  peer.1.pstate = .working ∧ peer.2.responds = true ∧
    Sendable (getReq (getRESPArry task)) ∧
    Sendable (Participant.runComds peer.2.proc.kvdb task).1

section Read

variable
  {task : List Bytes}
  {peer : Entry × Node}

/-- A read changes the data of a participant only when its process ends. -/
theorem proc_read
    (isRead : isRequest task = true) :
    (workPeer (getReq (getRESPArry task)) peer).2.proc =
      if peer.1.pstate = .working ∧ peer.2.dies = true then .init
      else peer.2.proc := by
  have process := proc_workPeer (peer.2.proc.pWorker_getReq isRead)
  rw [ite_self] at process
  exact process

/-- The result of a read counts when the answer arrives. -/
theorem answered_read_iff
    (isRead : isRequest task = true) :
    (workPeer (getReq (getRESPArry task)) peer).1.answered = true ↔
      AnswersRead task peer := by
  have answer := peer.2.proc.pWorker_getReq isRead
  have code := answered_workPeer answer
  unfold Entry.answered AnswersRead
  rw [Bool.and_eq_true, decide_eq_true_eq, decide_eq_true_eq, code]
  refine and_iff_left_of_imp fun ok => ?_
  rw [data_workPeer answer (code.mpr ok)]
  exact Participant.runComds_ne_nil _ _

end Read

/-! ## The whole call -/

namespace Sys

/-- The coordinator has the same number and log, and every participant the
same log and map. -/
structure SameData (s s' : Sys) : Prop where
  txid : s'.co.txid = s.co.txid
  lg : s'.co.lg = s.co.lg
  proc : ∀ id ∈ s.co.ids, (s'.node id).proc.SameData (s.node id).proc

/-- An update that changes nothing: its record is already prepared in the
coordinator's log, and it touches no participant. -/
structure UpdateHarmless (s : Sys) (task : List Bytes) : Prop where
  prepared : s.co.lg s.co.txid = some ⟨s.co.txid, .pre, getRESPArry task⟩
  untouched : ∀ id ∈ s.co.ids, ¬ Touched s.co.txid task (s.peer id)

/-- A read that is answered with the error message, and during which no
participant with data ends its process.  The participants are asked in order,
up to the first one whose answer arrives. -/
structure ReadHarmless (s : Sys) (task : List Bytes) : Prop where
  refused : task.length ≠ 2 ∨ ∀ id ∈ s.co.ids, ¬ AnswersRead task (s.peer id)
  living : ∀ id ∈ s.co.ids,
    (∀ other ∈ s.co.ids, other < id → ¬ AnswersRead task (s.peer other)) →
    ¬ ((s.co.entry id).pstate = .working ∧ (s.node id).dies = true ∧
      ¬ Participant.init.SameData (s.node id).proc)

/-- The strings that have been received make up a command without effect, or
the coordinator is not at work. -/
structure Harmless (s : Sys) (task : List Bytes) : Prop where
  update : s.co.cstate = .working → isUpdate task = true →
    s.UpdateHarmless task
  read : s.co.cstate = .working → isRequest task = true →
    s.ReadHarmless task

end Sys

/-- The participants in front of another one are those with smaller
numbers. -/
theorem Coordinator.mem_before
    {co : Coordinator}
    {before rest : List Nat}
    {id : Nat}
    (order : co.ids = before ++ id :: rest)
    (other : Nat) :
    other ∈ before ↔ other ∈ co.ids ∧ other < id := by
  have sorted : co.ids.Pairwise (· < ·) := List.pairwise_lt_range' ..
  rw [order, List.pairwise_append, List.pairwise_cons] at sorted
  obtain ⟨_, ⟨after, _⟩, across⟩ := sorted
  rw [order]
  constructor
  · intro member
    exact ⟨List.mem_append_left _ member, across other member id (by simp)⟩
  · rintro ⟨member, smaller⟩
    rcases List.mem_append.mp member with inside | inside
    · exact inside
    · rcases List.mem_cons.mp inside with rfl | later
      · exact absurd smaller (lt_irrefl _)
      · exact absurd (after other later) (by omega)

theorem Logger.writeLog_eq_iff (lg : Logger) (record : Log) :
    lg.writeLog record = lg ↔ lg record.ID = some record := by
  constructor
  · intro same
    rw [← same]
    exact Logger.writeLog_self lg record
  · intro stored
    funext id
    by_cases own : id = record.ID
    · rw [own, Logger.writeLog_self, stored]
    · exact Logger.writeLog_of_ne lg record own

namespace AtRest

variable
  {admissible : Nat → Log → Prop}
  {s s' : Sys}
  {task : List Bytes}
  {reply : Bytes}

/-- The participants after a read of some of them, namely of those before
which nobody answers. -/
theorem read_sameData_iff
    (isRead : isRequest task = true)
    {asked : List Nat}
    (isAsked : ∀ id ∈ s.co.ids, id ∈ asked ↔
      ∀ other ∈ s.co.ids, other < id → ¬ AnswersRead task (s.peer other)) :
    s.SameData (s.onPeers asked (workPeer (getReq (getRESPArry task)))) ↔
      ∀ id ∈ s.co.ids,
        (∀ other ∈ s.co.ids, other < id →
          ¬ AnswersRead task (s.peer other)) →
        ¬ ((s.co.entry id).pstate = .working ∧ (s.node id).dies = true ∧
          ¬ Participant.init.SameData (s.node id).proc) := by
  have node : ∀ id,
      ((s.onPeers asked (workPeer (getReq (getRESPArry task)))).node id).proc =
        if id ∈ asked ∧ (s.co.entry id).pstate = .working ∧
          (s.node id).dies = true then .init
        else (s.node id).proc := by
    intro id
    have peer := congrArg (fun peer : Entry × Node => peer.2.proc)
      (s.peer_onPeers asked (workPeer (getReq (getRESPArry task))) id)
    by_cases member : id ∈ asked
    · simp only [if_pos member, proc_read isRead] at peer
      simp only [member, true_and]
      exact peer
    · simp only [if_neg member] at peer
      simp only [member, false_and, if_false]
      exact peer
  constructor
  · rintro ⟨_, _, same⟩ id inside first ⟨working, dies, full⟩
    have kept := same id inside
    rw [node, if_pos ⟨(isAsked id inside).mpr first, working, dies⟩] at kept
    exact full kept
  · intro living
    refine ⟨rfl, rfl, fun id inside => ?_⟩
    rw [node]
    split
    · rename_i ends
      by_contra full
      exact living id inside ((isAsked id inside).mp ends.1)
        ⟨ends.2.1, ends.2.2, full⟩
    · exact .refl _

/-- The update that was not answered leaves everything as it is exactly when
it is harmless. -/
theorem prepared_sameData_iff
    {worker : Entry × Node → Entry × Node}
    (process : ∀ id ∈ s.co.ids,
      (worker (s.peer id)).2.proc.SameData (s.peer id).2.proc ↔
        ¬ Touched s.co.txid task (s.peer id)) :
    s.SameData
        ((s.withRecord ⟨s.co.txid, .pre, getRESPArry task⟩ s.co.txid).onPeers
          s.co.ids worker) ↔
      s.UpdateHarmless task := by
  have node : ∀ id ∈ s.co.ids,
      ((s.withRecord ⟨s.co.txid, .pre, getRESPArry task⟩ s.co.txid).onPeers
        s.co.ids worker).node id = (worker (s.peer id)).2 := by
    intro id inside
    exact Sys.node_onPeers _ worker inside
  constructor
  · rintro ⟨_, lg, same⟩
    refine ⟨(Logger.writeLog_eq_iff _ _).mp lg, fun id inside => ?_⟩
    rw [← process id inside, ← node id inside]
    exact same id inside
  · rintro ⟨prepared, untouched⟩
    refine ⟨rfl, (Logger.writeLog_eq_iff _ _).mpr prepared,
      fun id inside => ?_⟩
    rw [node id inside]
    exact (process id inside).mpr (untouched id inside)

/-- An update is answered with the error message and changes nothing exactly
when it is harmless. -/
theorem updated_rejected_iff
    (rest : AtRest admissible s)
    (updated : Updated s (getRESPArry task) reply s') :
    reply = getErrorMessage ∧ s.SameData s' ↔ s.UpdateHarmless task := by
  have lower := rest.log.start
  cases updated with
  | refused noVote =>
      rw [and_iff_right rfl]
      refine prepared_sameData_iff fun id inside => ?_
      rw [Resting.vote_sameData_iff lower]
      refine not_congr ?_
      unfold Touched
      refine and_congr_right fun working => ?_
      refine (or_iff_left ?_).symm
      rintro ⟨small, responds, _⟩
      obtain ⟨linked, _⟩ := Node.responds_iff.mp responds
      rcases (rest.peers id inside).polled lower small working linked with
        ⟨_, _, _, voted, _⟩ | ⟨_, _, _, fate, _⟩
      · rw [noVote id inside] at voted
        cases voted
      · obtain ⟨_, _, _, answered⟩ := Node.responds_iff.mp responds
        rw [fate] at answered
        cases answered
  | unanswered vote silent =>
      obtain ⟨voter, insideVoter, hasVoted⟩ := vote
      have small := ((rest.peers voter insideVoter).vote lower).2.2.1 hasVoted
      rw [and_iff_right rfl]
      exact prepared_sameData_iff fun id inside =>
        (rest.peers id inside).update_sameData_iff lower small task
  | @committed vote id member answered =>
      obtain ⟨voter, insideVoter, hasVoted⟩ := vote
      have small := ((rest.peers voter insideVoter).vote lower).2.2.1 hasVoted
      refine iff_of_false ?_ ?_
      · rintro ⟨_, txid, _, _⟩
        simp at txid
      · rintro ⟨_, untouched⟩
        refine untouched id member ?_
        exact (rest.peers id member).touched_of_acknowledged lower small
          answered

end AtRest

/-- A read is refused by every participant when it does not name one key. -/
theorem Participant.read_error_iff
    {task : List Bytes}
    (isRead : isRequest task = true)
    (kvdb : KV) :
    (runComds kvdb task).1 = getErrorMessage ↔ task.length ≠ 2 := by
  obtain ⟨name, args, rfl, isGet⟩ := request_head isRead
  rw [runComds_error_iff]
  simp only [Accepted, isGet]
  simp

/-- A command under the mutex is answered with the error message and changes
nothing exactly when it is harmless. -/
theorem Dispatched.rejected_iff
    {admissible : Nat → Log → Prop}
    {s s' : Sys}
    {task : List Bytes}
    {reply : Bytes}
    (dispatched : Dispatched s task reply s')
    (rest : AtRest admissible s) :
    reply = getErrorMessage ∧ s.SameData s' ↔
      (isUpdate task = true → s.UpdateHarmless task) ∧
        (isRequest task = true → s.ReadHarmless task) := by
  cases dispatched with
  | update update updated =>
      rw [rest.updated_rejected_iff updated]
      exact ⟨fun harmless => ⟨fun _ => harmless, fun isRead =>
          absurd isRead (not_isRequest_of_isUpdate update)⟩,
        fun harmless => harmless.1 update⟩
  | unread isRead silent =>
      have nobody : ∀ id ∈ s.co.ids, ¬ AnswersRead task (s.peer id) := by
        intro id inside answers
        have := silent id inside
        rw [(answered_read_iff isRead).mpr answers] at this
        cases this
      have living := AtRest.read_sameData_iff isRead fun id inside =>
        iff_of_true inside fun other member _ => nobody other member
      rw [living, and_iff_right rfl]
      exact ⟨fun alive => ⟨fun update =>
          absurd isRead (not_isRequest_of_isUpdate update),
          fun _ => ⟨Or.inr nobody, alive⟩⟩,
        fun harmless => (harmless.2 isRead).living⟩
  | @read isRead before later id order silent answered =>
      have inside : id ∈ s.co.ids := by
        rw [order]
        simp
      have answers := (answered_read_iff isRead).mp answered
      have quiet : ∀ other ∈ s.co.ids, other < id →
          ¬ AnswersRead task (s.peer other) := by
        intro other member smaller isAnswer
        have := silent other
          ((Coordinator.mem_before order other).mpr ⟨member, smaller⟩)
        rw [(answered_read_iff isRead).mpr isAnswer] at this
        cases this
      have living := @AtRest.read_sameData_iff s task isRead
        (before ++ [id]) fun other member => by
          rw [List.mem_append, List.mem_singleton,
            Coordinator.mem_before order other]
          constructor
          · rintro (⟨_, smaller⟩ | rfl)
            · intro third inThird below
              exact quiet third inThird (by omega)
            · exact quiet
          · intro first
            rcases lt_trichotomy other id with smaller | same | larger
            · exact Or.inl ⟨member, smaller⟩
            · exact Or.inr same
            · exact absurd answers (first id inside larger)
      have data : (workPeer (getReq (getRESPArry task))
          (s.peer id)).1.pworkingDataRet =
            (Participant.runComds (s.peer id).2.proc.kvdb task).1 := by
        have answer := (s.peer id).2.proc.pWorker_getReq isRead
        exact data_workPeer answer ((answered_workPeer answer).mpr answers)
      rw [living, data, Participant.read_error_iff isRead]
      constructor
      · rintro ⟨arity, alive⟩
        exact ⟨fun update => absurd isRead (not_isRequest_of_isUpdate update),
          fun _ => ⟨Or.inl arity, alive⟩⟩
      · rintro ⟨_, harmless⟩
        obtain ⟨refused, alive⟩ := harmless isRead
        refine ⟨?_, alive⟩
        rcases refused with arity | nobody
        · exact arity
        · exact absurd answers (nobody id inside)
  | other notUpdate notRead =>
      simp only [notUpdate, notRead, Bool.false_eq_true, false_imp_iff,
        and_self, true_and, iff_true]
      exact ⟨rfl, rfl, fun id _ => .refl _⟩

/-- `Working` with what a client sends, received completely or not, in any
state that the system reaches between two calls: it returns, and it answers
with the error message and changes nothing exactly when the strings received
before the failure make up a harmless command. -/
theorem working_rejected
    {pnum : Nat}
    {w : World}
    (reachable : World.Reachable pnum w)
    (fates : Nat → List Fate)
    (heap : Nat → Nat → Option Bytes)
    {script : List Inbound}
    {rc : Int}
    {task : List Bytes}
    (received : recvCommand heap script = some (rc, task)) :
    ∃ reply s', working heap script (w.sys.withFates fates) =
        some (reply, s') ∧
      (reply = getErrorMessage ∧ (w.sys.withFates fates).SameData s' ↔
        (w.sys.withFates fates).Harmless task) := by
  have rest := reachable.ok.rest.withFates fates
  have unchanged : (w.sys.withFates fates).SameData (w.sys.withFates fates) :=
    ⟨rfl, rfl, fun id _ => .refl _⟩
  rw [working, received, Option.bind_eq_bind, Option.bind_some]
  dsimp only
  split
  · rename_i short
    have isEmpty : task = [] := List.length_eq_zero_iff.mp (by omega)
    refine ⟨_, _, rfl, iff_of_true ⟨rfl, unchanged⟩ ⟨?_, ?_⟩⟩
    · intro _ update
      rw [isEmpty] at update
      cases update
    · intro _ isRead
      rw [isEmpty] at isRead
      cases isRead
  · split
    · rename_i idle
      exact ⟨_, _, rfl, iff_of_true ⟨rfl, unchanged⟩
        ⟨fun isWorking => absurd isWorking idle,
          fun isWorking => absurd isWorking idle⟩⟩
    · rename_i isWorking
      rw [ne_eq, not_not] at isWorking
      obtain ⟨reply, s', executed, dispatched⟩ :=
        exec_dispatch (w.sys.withFates fates) task
      refine ⟨reply, s', executed, (dispatched.rejected_iff rest).trans ?_⟩
      exact ⟨fun ⟨update, isRead⟩ => ⟨fun _ => update, fun _ => isRead⟩,
        fun harmless => ⟨harmless.update isWorking,
          harmless.read isWorking⟩⟩

/-- The only participant stores a value. -/
def storedEvents : List Event :=
  World.startEvents 1 ++
    [.request [str "SET", str "a", str "v"], .serve fun _ => []]

/-- A client that sends two of the three strings of a command and closes. -/
def cutDelete : List Inbound :=
  sent (str "*3\r\n$3\r\nDEL\r\n$1\r\na\r\n")

/-- A client that sends one of the two strings of a command and closes. -/
def cutGet : List Inbound := sent (str "*2\r\n$3\r\nGET\r\n$1\r\n")

theorem working_rejected_get :
    ∃ w, World.Reachable 1 w ∧
      recvCommand (fun _ _ => none) cutGet =
        some (kvNetworkClose, [str "GET"]) ∧
      ∃ s', working (fun _ _ => none) cutGet
          (w.sys.withFates fun _ => []) = some (getErrorMessage, s') ∧
        (w.sys.withFates fun _ => []).SameData s' := by
  obtain ⟨w, executed, seen⟩ := (Option.any_eq_true
    (fun w : World => decide (w.sys.co.ids = [1]))
    (World.runChecked (fun _ _ => true) storedEvents
      (World.init 1))).mp (by decide +kernel)
  rw [decide_eq_true_eq] at seen
  have received : recvCommand (fun _ _ => none) cutGet =
      some (kvNetworkClose, [str "GET"]) := by decide +kernel
  have reachable : World.Reachable 1 w :=
    ⟨_, Run.of_checked (fun _ _ _ => trivial) executed⟩
  refine ⟨w, reachable, received, ?_⟩
  obtain ⟨reply, s', returned, exact'⟩ :=
    working_rejected reachable (fun _ => []) (fun _ _ => none) received
  obtain ⟨rfl, same⟩ := exact'.mpr
    { update := fun _ update => by cases update
      read := fun _ _ =>
        { refused := Or.inl (by decide)
          living := fun id _ _ ends => by
            obtain ⟨_, dies, _⟩ := ends
            simp [Node.dies, Sys.withFates] at dies } }
  exact ⟨s', returned, same⟩

/-- A truncated `DEL` is executed: it deletes the keys received so far. -/
theorem working_executes_prefix :
    ∃ w, World.Reachable 1 w ∧
      recvCommand (fun _ _ => none) cutDelete =
        some (kvNetworkClose, [str "DEL", str "a"]) ∧
      ∃ s', working (fun _ _ => none) cutDelete
          (w.sys.withFates fun _ => []) = some (str ":1\r\n", s') ∧
        s'.co.txid = w.sys.co.txid + 1 ∧
        (w.sys.node 1).proc.kvdb (str "a") = some (str "v") ∧
        (s'.node 1).proc.kvdb (str "a") = none := by
  obtain ⟨w, executed, seen⟩ := (Option.any_eq_true
    (fun w : World =>
      (working (fun _ _ => none) cutDelete (w.sys.withFates fun _ => [])).any
        fun outcome : Bytes × Sys => decide (
          outcome.1 = str ":1\r\n" ∧
          outcome.2.co.txid = w.sys.co.txid + 1 ∧
          (w.sys.node 1).proc.kvdb (str "a") = some (str "v") ∧
          (outcome.2.node 1).proc.kvdb (str "a") = none))
    (World.runChecked (fun _ _ => true) storedEvents
      (World.init 1))).mp (by decide +kernel)
  obtain ⟨⟨reply, s'⟩, returned, seen⟩ := (Option.any_eq_true _ _).mp seen
  rw [decide_eq_true_eq] at seen
  obtain ⟨rfl, seen⟩ := seen
  exact ⟨w, ⟨_, Run.of_checked (fun _ _ _ => trivial) executed⟩,
    by decide +kernel, s', returned, seen⟩

end Lab3
end CloudComputing
