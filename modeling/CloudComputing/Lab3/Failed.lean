import CloudComputing.Lab3.Reads

/-!
# Updates answered with an error

`UpdateDB` answers with the error message when no participant's answer to the
commit arrives.  A participant may have executed the commit all the same, or
find it later in its old connection.  This is the only way in which a failed
update can have an effect: when its commit reaches no participant, every record
in any later log comes from another command.
-/

namespace CloudComputing
namespace Lab3

open CloudComputing.Lab3.Parser Network

/-- The vote of a participant is answered, and the commit after it reaches the
participant, at once or late. -/
def Node.takesCommit (node : Node) : Bool :=
  node.link &&
    match node.fates.headD (.answered [] []),
        node.fates.tail.headD (.answered [] []) with
    | .answered _ _, .answered _ _ => true
    | .answered _ _, .failed .late _ _ => true
    | .answered _ _, .failed .executed _ _ => true
    | _, _ => false

/-- An update that participants accept, that fits into a message, and whose
commit reaches a working participant. -/
structure Sys.CommitArrives (s : Sys) (task : List Bytes) : Prop where
  accepted : Participant.Accepted task = true
  sendable : Sendable (commitReq s.co.txid (getRESPArry task))
  small : s.co.txid < 2 ^ 63
  taken : ∃ id ∈ s.co.ids, (s.co.entry id).pstate = .working ∧
    (s.node id).takesCommit = true

namespace Resting

variable
  {admissible : Nat → Log → Prop}
  {txid : Nat}
  {peer : Entry × Node}

/-- The vote of a working participant, read off the fate of the exchange. -/
theorem polled
    (state : Resting admissible txid peer)
    (lower : txidStart ≤ txid)
    (small : txid < 2 ^ 63)
    (working : peer.1.pstate = .working)
    (linked : peer.2.link = true) :
    (∃ reads replyReads,
        peer.2.fates.headD (.answered [] []) = .answered reads replyReads ∧
        (workPeer (voteReq txid) peer).1.voted = true ∧
        (workPeer (voteReq txid) peer).1.pstate = .working ∧
        (workPeer (voteReq txid) peer).2 =
          { peer.2 with
            restarted := false
            received := peer.2.received ++ [voteReq txid]
            fates := peer.2.fates.tail }) ∨
      (∃ arrival error part,
        peer.2.fates.headD (.answered [] []) =
          .failed arrival error part ∧
        (workPeer (voteReq txid) peer).1.pstate = .waiting) := by
  have own : Log.readTxid txid = peer.2.proc.txid := by
    rw [Log.readTxid_of_lt small]
    exact (state.aligned working (state.connected working linked)).symm
  have sendable : Sendable (voteReq txid) :=
    sendable_logToStr (show txid < 2 ^ 64 by omega)
      (show LogState.pre.code < 2 ^ 64 by decide)
      (show ([] : Bytes).length < 2 ^ 31 - 64 by decide)
  have replied : peer.2.proc.pWorker (voteReq txid) =
      some (str "PRE", peer.2.proc) := by
    rw [voteReq, Participant.pWorker_vote _ lower, if_pos own]
  cases fate : peer.2.fates.headD (.answered [] []) with
  | answered reads replyReads =>
      have sent := Node.sendAndRecv_of_answered linked fate sendable replied
        (by decide)
      refine Or.inl ⟨reads, replyReads, rfl, ?_⟩
      simp only [workPeer, pWorking, working, sent, ne_eq, not_true_eq_false,
        if_false, Entry.voted, decide_true, Bool.and_self, and_self]
  | failed arrival error part =>
      refine Or.inr ⟨arrival, error, part, rfl, ?_⟩
      have code := error.code_ne_kvOk
      simp only [workPeer, pWorking, working, Node.sendAndRecv, linked, fate,
        ne_eq, not_true_eq_false, if_false, code, not_false_eq_true, if_true]

/-- The commit is delivered after the vote exactly when the fates say so. -/
theorem takesCommit_iff
    (state : Resting admissible txid peer)
    (lower : txidStart ≤ txid)
    (small : txid < 2 ^ 63) :
    ((workPeer (voteReq txid) peer).1.pstate = .working ∧
        (workPeer (voteReq txid) peer).2.delivers = true) ↔
      (peer.1.pstate = .working ∧ peer.2.takesCommit = true) := by
  constructor
  · rintro ⟨still, delivered⟩
    obtain ⟨working, linked⟩ := (state.vote lower).2.2.2 still
    refine ⟨working, ?_⟩
    rcases state.polled lower small working linked with
      ⟨reads, replyReads, fate, _, _, isNode⟩ | ⟨_, _, _, _, waiting⟩
    · rw [isNode] at delivered
      simp only [Node.delivers, linked, Bool.true_and] at delivered
      simp only [Node.takesCommit, linked, fate, Bool.true_and]
      split at delivered
      · rename_i second
        simp only [second]
      · rename_i second
        simp only [second]
      · rename_i second
        simp only [second]
      · cases delivered
      · cases delivered
    · rw [waiting] at still
      cases still
  · rintro ⟨working, takes⟩
    have linked : peer.2.link = true := by
      simp only [Node.takesCommit, Bool.and_eq_true] at takes
      exact takes.1
    simp only [Node.takesCommit, linked, Bool.true_and] at takes
    rcases state.polled lower small working linked with
      ⟨reads, replyReads, fate, _, still, isNode⟩ | ⟨_, _, _, fate, _⟩
    · refine ⟨still, ?_⟩
      rw [isNode]
      simp only [Node.delivers, linked, Bool.true_and]
      rw [fate] at takes
      split at takes
      · rename_i second
        rw [second]
      · rename_i second
        rw [second]
      · rename_i second
        rw [second]
      · cases takes
    · rw [fate] at takes
      simp at takes

/-- What the commit does to a participant that it reaches. -/
theorem committed_of_takes
    (state : Resting admissible txid peer)
    (lower : txidStart ≤ txid)
    (small : txid < 2 ^ 63)
    (working : peer.1.pstate = .working)
    (takes : peer.2.takesCommit = true)
    {task : List Bytes}
    (accepted : Participant.Accepted task = true)
    (sendable : Sendable (commitReq txid (getRESPArry task))) :
    peer.2.proc.txid = txid ∧
      (workPeer (voteReq txid) peer).1.voted = true ∧
      ((updatePeer txid (getRESPArry task) peer).2.proc =
          peer.2.proc.append task ∨
        (updatePeer txid (getRESPArry task) peer).2.proc = peer.2.proc ∧
          (updatePeer txid (getRESPArry task) peer).2.late =
            some (commitReq txid (getRESPArry task))) := by
  obtain ⟨still, delivers⟩ :=
    (state.takesCommit_iff lower small).mpr ⟨working, takes⟩
  have linked : peer.2.link = true := ((state.vote lower).2.2.2 still).2
  have own : peer.2.proc.txid = txid :=
    state.aligned working (state.connected working linked)
  refine ⟨own, ?_⟩
  let polled := workPeer (voteReq txid) peer
  have isSent : (updatePeer txid (getRESPArry task) peer).2 =
      (polled.2.sendAndRecv (commitReq txid (getRESPArry task))).2.2 := by
    have stillWorking : polled.1.pstate = .working := still
    change (workPeer (commitReq txid (getRESPArry task)) polled).2 = _
    simp only [workPeer, pWorking, stillWorking, ne_eq, not_true_eq_false,
      if_false]
  rcases state.polled lower small working linked with
    ⟨_, _, _, voted, _, isNode⟩ | ⟨_, _, _, _, waiting⟩
  · refine ⟨voted, ?_⟩
    have process : polled.2.proc = peer.2.proc := by
      simp only [polled, isNode]
    have replied : polled.2.proc.pWorker (commitReq txid (getRESPArry task)) =
        some ((Participant.runComds peer.2.proc.kvdb task).1,
          peer.2.proc.append task) := by
      rw [process, Participant.pWorker_commitReq _ lower
        (event_small_of_sendable sendable),
        if_pos ⟨by rw [own, Log.readTxid_of_lt small], accepted⟩]
    have reaches : polled.2.delivers = true := delivers
    rw [isSent]
    nth_rewrite 2 [← process]
    exact Node.sendAndRecv_of_delivers reaches sendable replied
  · rw [waiting] at still
    cases still

end Resting

namespace World

/-- The record of one of the given commands. -/
def Credited
    (commands : List (List Bytes × Bytes))
    (_ : Nat)
    (record : Log) : Prop :=
  ∃ command ∈ commands, record.event = getRESPArry command.1

theorem Credited.mono
    {commands commands' : List (List Bytes × Bytes)}
    (more : ∀ command ∈ commands, command ∈ commands')
    {w : World}
    (ok : w.Ok (Credited commands)) :
    w.Ok (Credited commands') :=
  ok.weaken
    (fun _ _ _ _ ⟨command, member, same⟩ =>
      ⟨command, more command member, same⟩)
    (fun _ _ _ _ _ _ ⟨command, member, same⟩ =>
      ⟨command, more command member, same⟩)

/-- Every record that appears during a run comes from a command served in
it. -/
theorem run_credited
    {w w' : World}
    {events : List Event}
    (run : Run step Run.free w events w')
    {commands : List (List Bytes × Bytes)}
    (ok : w.Ok (Credited commands)) :
    ∃ later, w'.answers = later ++ w.answers ∧
      w'.Ok (Credited (later ++ commands)) := by
  induction run generalizing commands with
  | nil state => exact ⟨[], rfl, ok⟩
  | @cons state next last event events _ taken _ inductionHypothesis =>
      rcases step_answers taken with ⟨answers, noServe⟩ |
        ⟨task, answers, _, noServe⟩ |
        ⟨fates, task, reply, isServe, pending, _, answers⟩
      · have admits : state.Admits (Credited commands) event :=
          fun fates isServe => absurd isServe (noServe fates)
        obtain ⟨later, split, ok'⟩ :=
          inductionHypothesis (ok.step admits taken).1
        exact ⟨later, by rw [split, answers], ok'⟩
      · have admits : state.Admits (Credited commands) event :=
          fun fates isServe => absurd isServe (noServe fates)
        obtain ⟨later, split, ok'⟩ :=
          inductionHypothesis (ok.step admits taken).1
        refine ⟨later ++ [(task, getErrorMessage)], by
          rw [split, answers, List.append_assoc]; rfl, ?_⟩
        refine Credited.mono (fun command member => ?_) ok'
        rcases List.mem_append.mp member with inside | inside
        · simp [inside]
        · simp [inside]
      · have more : state.Ok (Credited ((task, reply) :: commands)) :=
          Credited.mono (fun command member => by simp [member]) ok
        have admits : state.Admits (Credited ((task, reply) :: commands))
            event := by
          intro fates' isServe' task' pending' _ _ _
          rw [pending, Option.some_inj] at pending'
          exact ⟨(task, reply), by simp, by rw [pending']⟩
        obtain ⟨later, split, ok'⟩ :=
          inductionHypothesis (more.step admits taken).1
        refine ⟨later ++ [(task, reply)], by
          rw [split, answers, List.append_assoc]; rfl, ?_⟩
        rw [List.append_assoc]
        exact ok'

end World

/-- A record in a log: of a participant, or of the coordinator below its own
number. -/
def World.Logged (w : World) (record : Log) : Prop :=
  (∃ id ∈ w.sys.co.ids, ∃ number,
    (w.sys.node id).proc.lg number = some record) ∨
    ∃ number, number < w.sys.co.txid ∧ w.sys.co.lg number = some record

/-- A participant whose vote is granted gets the commit. -/
theorem Updated.node_of_voted
    {s s' : Sys}
    {resp reply : Bytes}
    (updated : Updated s resp reply s')
    {id : Nat}
    (inside : id ∈ s.co.ids)
    (voted : (workPeer (voteReq s.co.txid) (s.peer id)).1.voted = true) :
    s'.co.ids = s.co.ids ∧
      s'.node id = (updatePeer s.co.txid resp (s.peer id)).2 := by
  cases updated with
  | refused noVote =>
      rw [noVote id inside] at voted
      cases voted
  | unanswered vote silent => exact ⟨rfl, Sys.node_onPeers _ _ inside⟩
  | committed vote member answered =>
      exact ⟨rfl, Sys.node_onPeers _ _ inside⟩

/-- A commit left behind in an old connection is executed there. -/
theorem Node.drain_commit
    {node : Node}
    {task : List Bytes}
    {txid : Nat}
    (late : node.late = some (commitReq txid (getRESPArry task)))
    (lower : txidStart ≤ txid)
    (small : txid < 2 ^ 63)
    (own : node.proc.txid = txid)
    (accepted : Participant.Accepted task = true)
    (sendable : Sendable (commitReq txid (getRESPArry task))) :
    node.drain.proc = node.proc.append task := by
  have replied := Participant.pWorker_commitReq node.proc lower
    (event_small_of_sendable sendable)
  rw [if_pos ⟨by rw [own, Log.readTxid_of_lt small], accepted⟩] at replied
  have handled := handle_of_sendable [] sendable replied
  simp only [drain, runUnanswered, late, handled]

/-- When its commit reaches no participant, every record in a later log comes
from another command. -/
theorem World.credited_of_missed
    {pnum : Nat}
    {w w' : World}
    (reachable : World.Reachable pnum w)
    {task : List Bytes}
    (pending : w.pending = some task)
    {fates : Nat → List Fate}
    (taken : w.step (.serve fates) = some w')
    (notArrives : ¬ (w.sys.withFates fates).CommitArrives task) :
    w'.Ok (World.Credited w.answers) := by
  have rest := reachable.ok.rest.withFates fates
  have lower : txidStart ≤ w.sys.co.txid := reachable.ok.rest.log.start
  obtain ⟨past, toHere⟩ := reachable
  obtain ⟨before, split, credited⟩ :=
    World.run_credited toHere (World.Ok.init (World.Credited []) pnum)
  have isAll : before ++ [] = w.answers := by
    rw [split]
    rfl
  rw [isAll] at credited
  refine (credited.step ?_ taken).1
  intro fates' isServe task' pending' _ delivered well
  cases isServe
  rw [pending, Option.some_inj] at pending'
  subst pending'
  obtain ⟨id, inside, working, delivers⟩ := delivered
  have small : w.sys.co.txid < 2 ^ 63 := well.small
  exact absurd
    { accepted := World.accepted_of_logRecord well
      sendable := well.sendable
      small := small
      taken := ⟨id, inside, ((rest.peers id inside).takesCommit_iff lower
        small).mp ⟨working, delivers⟩⟩ } notArrives

/-- When its commit reaches a participant, its record enters that participant's
log, at once or with the next step. -/
theorem World.logged_of_arrives
    {pnum : Nat}
    {w w' : World}
    (reachable : World.Reachable pnum w)
    {task : List Bytes}
    (pending : w.pending = some task)
    (update : isUpdate task = true)
    {fates : Nat → List Fate}
    (taken : w.step (.serve fates) = some w')
    (arrives : (w.sys.withFates fates).CommitArrives task) :
    ∃ events w'', Run World.step Run.free w' events w'' ∧
      ∃ id ∈ w''.sys.co.ids,
        (w.sys.node id).proc.lg w.sys.co.txid = none ∧
        (w''.sys.node id).proc.lg w.sys.co.txid =
          some ⟨w.sys.co.txid, .commit, getRESPArry task⟩ := by
  have ok := reachable.ok
  have lower : txidStart ≤ w.sys.co.txid := ok.rest.log.start
  obtain ⟨accepted, sendable, small, id, inside, working, takes⟩ := arrives
  have small' : w.sys.co.txid < 2 ^ 63 := small
  have inside' : id ∈ w.sys.co.ids := inside
  obtain ⟨own, voted, outcome⟩ :=
    ((ok.rest.withFates fates).peers id inside).committed_of_takes lower small'
      working takes accepted sendable
  have isOwn : (w.sys.node id).proc.txid = w.sys.co.txid := own
  have missing : (w.sys.node id).proc.lg w.sys.co.txid = none :=
    (ok.rest.peers id inside').sound.replica.none_of_le isOwn.le
  have written : ((w.sys.node id).proc.append task).lg w.sys.co.txid =
      some ⟨w.sys.co.txid, .commit, getRESPArry task⟩ := by
    simp [Participant.append, isOwn, Logger.writeLog]
  obtain ⟨reply, sys, executed, dispatched⟩ :=
    exec_dispatch (w.sys.withFates fates) task
  have isNext : w'.sys = sys := by
    simp only [World.step, pending] at taken
    rw [executed] at taken
    cases taken
    rfl
  have updated : Updated (w.sys.withFates fates) (getRESPArry task) reply sys := by
    cases dispatched with
    | update _ isUpdated => exact isUpdated
    | unread isRead _ =>
        exact absurd isRead (not_isRequest_of_isUpdate update)
    | read isRead _ _ _ =>
        exact absurd isRead (not_isRequest_of_isUpdate update)
    | other notUpdate _ =>
        rw [update] at notUpdate
        cases notUpdate
  obtain ⟨ids, isNode⟩ := updated.node_of_voted inside voted
  rw [← isNext] at ids isNode
  have member : id ∈ w'.sys.co.ids := by
    rw [ids]
    exact inside
  rw [← isNode] at outcome
  rcases outcome with executed | ⟨same, late⟩
  · refine ⟨[], w', .nil w', id, member, missing, ?_⟩
    rw [executed]
    exact written
  · -- the participant finds the request in its old connection
    have drained : (w'.sys.node id).drain.proc =
        (w.sys.node id).proc.append task := by
      rw [Node.drain_commit late lower small' (same ▸ isOwn) accepted sendable,
        same]
      rfl
    let w'' : World :=
      { w' with sys := w'.sys.setNode id (w'.sys.node id).drain }
    have next : w'.step (.drain id) = some w'' := by
      simp only [World.step, World.onNode, if_pos member]
      rfl
    refine ⟨[.drain id], w'', .cons trivial next (.nil _), id, member,
      missing, ?_⟩
    have isDrained : w''.sys.node id = (w'.sys.node id).drain := by
      simp [w'', Sys.setNode]
    rw [isDrained, drained]
    exact written

/-- An update answered with the error message.  If its commit reaches no
participant, then in every later state every record in a log comes from another
command, and every map is the replay of its log.  If its commit does reach a
participant, its record enters that participant's log. -/
theorem failed_update
    {pnum : Nat}
    {w w' : World}
    (reachable : World.Reachable pnum w)
    {task : List Bytes}
    (pending : w.pending = some task)
    (update : isUpdate task = true)
    {fates : Nat → List Fate}
    (taken : w.step (.serve fates) = some w')
    (failed : w'.answers = (task, getErrorMessage) :: w.answers) :
    (¬ (w.sys.withFates fates).CommitArrives task →
      ∀ events w'', Run World.step Run.free w' events w'' →
        ∃ later, w''.answers =
            later ++ (task, getErrorMessage) :: w.answers ∧
          (∀ record, w''.Logged record →
            ∃ command ∈ later ++ w.answers,
              record.event = getRESPArry command.1) ∧
          ∀ id ∈ w''.sys.co.ids, Replays (w''.sys.node id).proc) ∧
    ((w.sys.withFates fates).CommitArrives task →
      ∃ events w'', Run World.step Run.free w' events w'' ∧
        ∃ id ∈ w''.sys.co.ids,
          (w.sys.node id).proc.lg w.sys.co.txid = none ∧
          (w''.sys.node id).proc.lg w.sys.co.txid =
            some ⟨w.sys.co.txid, .commit, getRESPArry task⟩) := by
  constructor
  · intro notArrives events w'' run
    have credited :=
      World.credited_of_missed reachable pending taken notArrives
    obtain ⟨later, split, credited'⟩ := World.run_credited run credited
    refine ⟨later, by rw [split, failed], ?_, ?_⟩
    · rintro record (⟨id, inside, number, stored⟩ | ⟨number, below, stored⟩)
      · exact ((credited'.rest.peers id inside).sound.replica.within number
          record stored).2.2.2
      · exact (credited'.rest.log.records number record stored below).2
    · intro id inside
      exact (credited'.rest.peers id inside).sound.replica.replays
  · exact World.logged_of_arrives reachable pending update taken

/-- The events after which a first update stands in front of the mutex. -/
def firstUpdateEvents : List Event :=
  World.startEvents 1 ++ [.request [str "SET", str "k", str "v"]]

/-- A commit that never arrives at the only participant. -/
def missedCommit : Nat → List Fate :=
  fun _ => [.answered [] [], .failed .never .timeout []]

theorem failed_update_missed :
    ∃ w w', World.Reachable 1 w ∧ w.step (.serve missedCommit) = some w' ∧
      w'.answers = ([str "SET", str "k", str "v"], getErrorMessage) ::
        w.answers ∧
      ∀ events w'', Run World.step Run.free w' events w'' →
        ∃ later, w''.answers =
            later ++ ([str "SET", str "k", str "v"], getErrorMessage) ::
              w.answers ∧
          ∀ record, w''.Logged record →
            ∃ command ∈ later ++ w.answers,
              record.event = getRESPArry command.1 := by
  obtain ⟨w, executed, seen⟩ := (Option.any_eq_true
    (fun w : World => decide (
      w.pending = some [str "SET", str "k", str "v"] ∧
      (w.sys.withFates missedCommit).co.ids = [1] ∧
      ((w.sys.withFates missedCommit).node 1).takesCommit = false ∧
      (w.step (.serve missedCommit)).map World.answers =
        some (([str "SET", str "k", str "v"], getErrorMessage) ::
          w.answers)))
    (World.runChecked (fun _ _ => true) firstUpdateEvents
      (World.init 1))).mp (by decide +kernel)
  rw [decide_eq_true_eq] at seen
  obtain ⟨pending, ids, misses, answers⟩ := seen
  obtain ⟨w', taken, failed⟩ := Option.map_eq_some_iff.mp answers
  have reachable : World.Reachable 1 w :=
    ⟨_, Run.of_checked (fun _ _ _ => trivial) executed⟩
  have missed : ¬ (w.sys.withFates missedCommit).CommitArrives
      [str "SET", str "k", str "v"] := by
    rintro ⟨_, _, _, id, inside, _, takes⟩
    rw [ids, List.mem_singleton] at inside
    rw [inside, misses] at takes
    cases takes
  refine ⟨w, w', reachable, taken, failed, fun events w'' run => ?_⟩
  obtain ⟨later, split, credited, _⟩ :=
    (failed_update reachable pending rfl taken failed).1 missed events w'' run
  exact ⟨later, split, credited⟩

/-- The answer to the commit of an update is lost; after a reconnection the
recovery adopts its record. -/
def adoptedEvents : List Event :=
  firstUpdateEvents ++ [lostCommit, .reconnect 1] ++ recoveryEvents

theorem failed_update_adopted :
    ∃ w, Run World.step Run.free (World.init 1) adoptedEvents w ∧
      w.answers = [([str "SET", str "k", str "v"], getErrorMessage)] ∧
      w.sys.co.txid = 6 ∧
      w.sys.co.lg 5 =
        some ⟨5, .commit, getRESPArry [str "SET", str "k", str "v"]⟩ ∧
      (w.sys.node 1).proc.kvdb (str "k") = some (str "v") := by
  obtain ⟨w, executed, seen⟩ := (Option.any_eq_true
    (fun w : World => decide (
      w.answers = [([str "SET", str "k", str "v"], getErrorMessage)] ∧
      w.sys.co.txid = 6 ∧
      w.sys.co.lg 5 =
        some ⟨5, .commit, getRESPArry [str "SET", str "k", str "v"]⟩ ∧
      (w.sys.node 1).proc.kvdb (str "k") = some (str "v")))
    (World.runChecked (fun _ _ => true) adoptedEvents
      (World.init 1))).mp (by decide +kernel)
  rw [decide_eq_true_eq] at seen
  exact ⟨w, Run.of_checked (fun _ _ _ => trivial) executed, seen⟩

end Lab3
end CloudComputing
