import CloudComputing.Lab3.Recovery

/-!
# Client commands and the transaction numbers

`UpdateDB` and `Request` from a state at rest: the coordinator's log is
committed and every working participant that has not restarted has the
coordinator's transaction number.  Votes and reads change no participant, and
after a commit every participant that is still working has executed the update,
if any has.
-/

namespace CloudComputing
namespace Lab3

open CloudComputing.Lab3.Parser Network

/-- A participant while no call of the coordinator is in progress. -/
structure Resting
    (admissible : Nat → Log → Prop)
    (txid : Nat)
    (peer : Entry × Node) : Prop where
  valid : peer.1.pstate ≠ .invalid
  sound : NodeOk admissible True peer.2
  late : peer.2.late ≠ none → peer.1.pstate = .waiting
  connected : peer.1.pstate = .working → peer.2.link = true →
    peer.2.restarted = false
  aligned : peer.1.pstate = .working → peer.2.restarted = false →
    peer.2.proc.txid = txid

/-- A participant that has just answered, if it is working. -/
def Prompt (peer : Entry × Node) : Prop :=
  peer.1.pstate = .working → peer.2.link = true ∧ peer.2.restarted = false

/-- The workers `pWorking` do not touch the table of transaction numbers. -/
theorem workPeer_maxTxid (task : Bytes) (peer : Entry × Node) :
    (workPeer task peer).1.maxTxid = peer.1.maxTxid := by
  rw [workPeer, pWorking]
  split
  · rfl
  · generalize peer.2.sendAndRecv task = outcome
    obtain ⟨rc, rmsg, node⟩ := outcome
    by_cases error : rc ≠ kvOk
    · simp only [if_pos error]
    · simp only [if_neg error]

namespace Resting

variable
  {admissible : Nat → Log → Prop}
  {txid : Nat}
  {peer : Entry × Node}

/-- A participant that waits after a failed exchange. -/
theorem of_lost
    {task : Bytes}
    {node node' : Node}
    (ok : NodeOk admissible True node)
    (lost : node.Lost task node')
    (safe : node.delivers = true → Safe admissible node.proc task)
    {entry : Entry}
    (waiting : entry.pstate = .waiting) :
    Resting admissible txid (entry, node') where
  valid := by
    rw [waiting]
    simp
  sound := (ok.lost lost safe).1
  late := fun _ => waiting
  connected := fun working => by
    rw [waiting] at working
    cases working
  aligned := fun working => by
    rw [waiting] at working
    cases working

/-- An exchange in which the participant only answers. -/
theorem harmless
    (state : Resting admissible txid peer)
    (task : Bytes)
    (message : Sendable task → Message task)
    (answer : Sendable task → ∃ reply,
      peer.2.proc.pWorker task = some (reply, peer.2.proc)) :
    Resting admissible txid (workPeer task peer) ∧
      Prompt (workPeer task peer) ∧
      ((workPeer task peer).1.pworkingRet = kvOk →
        peer.1.pstate = .working ∧ peer.2.link = true ∧ Sendable task ∧
        (workPeer task peer).1.pstate = .working ∧
        peer.2.proc.pWorker task =
          some ((workPeer task peer).1.pworkingDataRet, peer.2.proc)) ∧
      ((workPeer task peer).1.pstate = .working →
        peer.1.pstate = .working ∧ peer.2.link = true) := by
  have safe : Safe admissible peer.2.proc task := by
    intro sendable
    obtain ⟨reply, replied⟩ := answer sendable
    exact ⟨message sendable, reply, _, replied, state.sound.replica⟩
  have worked := workPeer_worked task peer fun _ => safe.answerable
  generalize workPeer task peer = peer' at worked ⊢
  cases worked with
  | skipped idle =>
      refine ⟨⟨state.valid, state.sound, state.late, state.connected,
        state.aligned⟩, fun working => absurd working idle, ?_,
        fun working => absurd working idle⟩
      intro ok
      cases ok
  | @answered working delivered sendable reply next replied =>
      obtain ⟨reply', replied'⟩ := answer sendable
      have same : next = peer.2.proc := by
        rw [replied] at replied'
        exact congrArg Prod.snd (Option.some.inj replied')
      have linked := Node.link_of_delivers delivered
      have alive := state.connected working linked
      refine ⟨⟨state.valid,
        state.sound.answered delivered sendable replied safe, ?_, ?_, ?_⟩,
        fun _ => ⟨linked, rfl⟩,
        fun _ => ⟨working, linked, sendable, working, same ▸ replied⟩,
        fun _ => ⟨working, linked⟩⟩
      · intro isLate
        exact absurd (state.sound.closed linked) isLate
      · intro _ _
        rfl
      · intro _ _
        simp only [same]
        exact state.aligned working alive
  | lost working error part lost =>
      refine ⟨of_lost state.sound lost (fun _ => safe) rfl, ?_, ?_, ?_⟩
      · intro stillWorking
        cases stillWorking
      · intro ok
        exact absurd ok error
      · intro stillWorking
        cases stillWorking

/-- The vote of a participant. -/
theorem vote
    (state : Resting admissible txid peer)
    (lower : txidStart ≤ txid) :
    Resting admissible txid (workPeer (voteReq txid) peer) ∧
      Prompt (workPeer (voteReq txid) peer) ∧
      ((workPeer (voteReq txid) peer).1.voted = true → txid < 2 ^ 63) ∧
      ((workPeer (voteReq txid) peer).1.pstate = .working →
        peer.1.pstate = .working ∧ peer.2.link = true) := by
  have answer := peer.2.proc.pWorker_vote lower []
  obtain ⟨kept, prompt, answered, before⟩ :=
    state.harmless (voteReq txid) (fun _ => .vote lower)
      (fun _ => ⟨_, answer⟩)
  refine ⟨kept, prompt, fun voted => ?_, before⟩
  simp only [Entry.voted, Bool.and_eq_true, decide_eq_true_eq] at voted
  obtain ⟨working, linked, _, _, replied⟩ := answered voted.1
  have own := state.aligned working (state.connected working linked)
  rw [voteReq, answer, Option.some_inj, Prod.mk.injEq, ← voteReq, voted.2]
    at replied
  by_cases exact' : Log.readTxid txid = peer.2.proc.txid
  · have := Log.readTxid_lt txid
    omega
  · rw [if_neg exact'] at replied
    exact absurd replied.1.symm (by decide)

/-- The read of a participant. -/
theorem read
    (state : Resting admissible txid peer)
    {task : List Bytes}
    (isRead : isRequest task = true) :
    Resting admissible txid (workPeer (getReq (getRESPArry task)) peer) ∧
      Prompt (workPeer (getReq (getRESPArry task)) peer) ∧
      ((workPeer (getReq (getRESPArry task)) peer).1.pworkingRet = kvOk →
        peer.1.pstate = .working ∧ peer.2.link = true ∧
        Sendable (getReq (getRESPArry task)) ∧
        (workPeer (getReq (getRESPArry task)) peer).1.pstate = .working ∧
        peer.2.proc.pWorker (getReq (getRESPArry task)) =
          some ((workPeer (getReq (getRESPArry task)) peer).1.pworkingDataRet,
            peer.2.proc)) ∧
      ((workPeer (getReq (getRESPArry task)) peer).1.pstate = .working →
        peer.1.pstate = .working ∧ peer.2.link = true) := by
  obtain ⟨name, args, rfl, isGet⟩ := request_head isRead
  exact state.harmless _ (fun sendable => .request isRead sendable)
    fun sendable => ⟨_, peer.2.proc.pWorker_get
      (event_small_of_sendable sendable) isGet⟩

/-- The commit of a participant that has just voted. -/
theorem commit
    (state : Resting admissible txid peer)
    (prompt : Prompt peer)
    (lower : txidStart ≤ txid)
    (small : txid < 2 ^ 63)
    {task : List Bytes}
    (update : isUpdate task = true)
    (allowed : peer.1.pstate = .working → peer.2.delivers = true →
      LogRecord txid ⟨txid, .commit, getRESPArry task⟩ →
      admissible txid ⟨txid, .commit, getRESPArry task⟩) :
    Resting admissible
        (if Participant.Accepted task then txid + 1 else txid)
        (workPeer (commitReq txid (getRESPArry task)) peer) ∧
      ((workPeer (commitReq txid (getRESPArry task)) peer).1.acknowledged =
          true →
        Participant.Accepted task = true ∧
        LogRecord txid ⟨txid, .commit, getRESPArry task⟩ ∧
        admissible txid ⟨txid, .commit, getRESPArry task⟩ ∧
        peer.1.pstate = .working ∧ peer.2.delivers = true ∧
        (workPeer (commitReq txid (getRESPArry task)) peer).1.pworkingDataRet =
          (Participant.runComds peer.2.proc.kvdb task).1) ∧
      ((workPeer (commitReq txid (getRESPArry task)) peer).1.pstate =
          .working →
        Participant.Accepted task = true →
        (workPeer (commitReq txid (getRESPArry task)) peer).1.acknowledged =
          true ∧
        (workPeer (commitReq txid (getRESPArry task)) peer).2.proc =
          peer.2.proc.append task) := by
  have own : peer.1.pstate = .working →
      Log.readTxid txid = peer.2.proc.txid := by
    intro working
    rw [state.aligned working (prompt working).2, Log.readTxid_of_lt small]
  have safe : peer.1.pstate = .working → peer.2.delivers = true →
      Safe admissible peer.2.proc (commitReq txid (getRESPArry task)) := by
    intro working delivered
    refine state.sound.replica.safe_commitReq lower update ?_
    intro _ well
    have isOwn := state.aligned working (prompt working).2
    rw [Participant.nextRecord, isOwn] at well ⊢
    exact allowed working delivered well
  have answer := fun sendable : Sendable (commitReq txid (getRESPArry task)) =>
    peer.2.proc.pWorker_commitReq lower (event_small_of_sendable sendable)
  have worked := workPeer_worked (commitReq txid (getRESPArry task)) peer
    fun _ sendable => ⟨_, _, answer sendable⟩
  generalize workPeer (commitReq txid (getRESPArry task)) peer = peer'
    at worked ⊢
  cases worked with
  | skipped idle =>
      refine ⟨⟨state.valid, state.sound, state.late, state.connected,
        fun working => absurd working idle⟩, ?_, ?_⟩
      · intro acknowledged
        simp [Entry.acknowledged, retSkip, kvOk] at acknowledged
      · intro working
        exact absurd working idle
  | @answered working delivered sendable reply next replied =>
      have isOwn := state.aligned working (prompt working).2
      have linked := (prompt working).1
      have kept := state.sound.answered delivered sendable replied
        (safe working delivered)
      have replied' := replied
      rw [answer sendable, Option.some_inj] at replied'
      by_cases accepted : Participant.Accepted task = true
      · rw [if_pos ⟨own working, accepted⟩, Prod.mk.injEq] at replied'
        obtain ⟨isReply, isNext⟩ := replied'
        have well := state.sound.replica.logRecord (own working) update
          accepted sendable
        rw [Participant.nextRecord, isOwn] at well
        have positive : reply ≠ getErrorMessage := by
          rw [← isReply, ne_eq, Participant.runComds_error_iff, accepted]
          exact Bool.noConfusion
        refine ⟨⟨state.valid, kept, ?_, fun _ _ => rfl, ?_⟩, ?_, ?_⟩
        · intro isLate
          exact absurd (state.sound.closed linked) isLate
        · intro _ _
          rw [if_pos accepted, ← isOwn]
          simp only [← isNext]
          rfl
        · intro _
          exact ⟨accepted, well, allowed working delivered well, working,
            delivered, isReply.symm⟩
        · intro _ _
          exact ⟨by simp [Entry.acknowledged, positive], isNext.symm⟩
      · rw [if_neg (fun both => accepted both.2), Prod.mk.injEq] at replied'
        obtain ⟨isReply, isNext⟩ := replied'
        refine ⟨⟨state.valid, kept, ?_, fun _ _ => rfl, ?_⟩, ?_, ?_⟩
        · intro isLate
          exact absurd (state.sound.closed linked) isLate
        · intro _ _
          rw [if_neg accepted]
          simp only [← isNext]
          exact isOwn
        · intro acknowledged
          simp [Entry.acknowledged, ← isReply] at acknowledged
        · intro _ isAccepted
          exact absurd isAccepted accepted
  | @lost working code error part node' lost =>
      refine ⟨of_lost state.sound lost (safe working) rfl, ?_, ?_⟩
      · intro acknowledged
        simp [Entry.acknowledged, error] at acknowledged
      · intro stillWorking
        cases stillWorking

end Resting

/-! ## The whole system -/

/-- The system while no call of the coordinator is in progress. -/
structure AtRest
    (admissible : Nat → Log → Prop)
    (s : Sys) : Prop where
  log : Committed admissible s.co.lg s.co.txid
  peers : ∀ id ∈ s.co.ids, Resting admissible s.co.txid (s.peer id)

/-- The commit request of an update reaches some participant, at once or
late. -/
def CommitDelivered (s : Sys) : Prop :=
  ∃ id ∈ s.co.ids,
    (workPeer (voteReq s.co.txid) (s.peer id)).1.pstate = .working ∧
      (workPeer (voteReq s.co.txid) (s.peer id)).2.delivers = true

namespace AtRest

variable {admissible : Nat → Log → Prop} {s : Sys}

/-- `UpdateDB` keeps the system at rest, when its record is admissible or its
commit reaches nobody. -/
theorem updateDB
    (rest : AtRest admissible s)
    {task : List Bytes}
    (update : isUpdate task = true)
    (allowed : CommitDelivered s →
      LogRecord s.co.txid ⟨s.co.txid, .commit, getRESPArry task⟩ →
      admissible s.co.txid ⟨s.co.txid, .commit, getRESPArry task⟩)
    {reply : Bytes}
    {s' : Sys}
    (updated : Updated s (getRESPArry task) reply s') :
    AtRest admissible s' ∧ Advanced s.co s'.co := by
  have lower := rest.log.start
  have written : ∀ record : Log, record.ID = s.co.txid → ∀ id,
      id < s.co.txid → s.co.lg.writeLog record id = s.co.lg id := by
    intro record number id below
    exact Logger.writeLog_of_ne _ _ (by omega)
  have voted := fun id inside => (rest.peers id inside).vote lower
  have committed := fun (small : s.co.txid < 2 ^ 63) id inside =>
    (voted id inside).1.commit (voted id inside).2.1 lower small update
      fun working delivered => allowed ⟨id, inside, working, delivered⟩
  cases updated with
  | refused noVote =>
      refine ⟨⟨rest.log.prepare rfl, fun id inside => ?_⟩,
        rfl, le_rfl, written _ rfl⟩
      have inside' : id ∈ s.co.ids := inside
      rw [Sys.peer_onPeers, if_pos inside']
      exact (voted id inside').1
  | unanswered vote silent =>
      obtain ⟨voter, insideVoter, hasVoted⟩ := vote
      have small := (voted voter insideVoter).2.2.1 hasVoted
      refine ⟨⟨rest.log.prepare rfl, fun id inside => ?_⟩,
        rfl, le_rfl, written _ rfl⟩
      have inside' : id ∈ s.co.ids := inside
      obtain ⟨kept, _, acknowledges⟩ := committed small id inside'
      rw [Sys.peer_onPeers, if_pos inside']
      by_cases accepted : Participant.Accepted task = true
      · rw [if_pos accepted] at kept
        have notWorking : (updatePeer s.co.txid (getRESPArry task)
            (s.peer id)).1.pstate ≠ .working := by
          intro working
          have acknowledged := (acknowledges working accepted).1
          have silence := silent id inside'
          rw [updatePeer, acknowledged] at silence
          cases silence
        exact ⟨kept.valid, kept.sound, kept.late, kept.connected,
          fun working => absurd working notWorking⟩
      · rw [if_neg accepted] at kept
        exact kept
  | @committed vote id member answered =>
      obtain ⟨voter, insideVoter, hasVoted⟩ := vote
      have small := (voted voter insideVoter).2.2.1 hasVoted
      obtain ⟨_, answers, _⟩ := committed small id member
      obtain ⟨accepted, well, isAllowed, _⟩ := answers answered
      refine ⟨⟨rest.log.append well isAllowed, fun other inside => ?_⟩,
        rfl, by simp, written _ rfl⟩
      have inside' : other ∈ s.co.ids := inside
      obtain ⟨kept, _⟩ := committed small other inside'
      rw [if_pos accepted] at kept
      rw [Sys.peer_onPeers, if_pos inside']
      exact kept

/-- `Request` keeps the system at rest. -/
theorem request
    (rest : AtRest admissible s)
    {task : List Bytes}
    (isRead : isRequest task = true)
    (asked : List Nat) :
    AtRest admissible
        (s.onPeers asked (workPeer (getReq (getRESPArry task)))) ∧
      Advanced s.co
        (s.onPeers asked (workPeer (getReq (getRESPArry task)))).co := by
  refine ⟨⟨rest.log, fun id inside => ?_⟩, .of_same rfl rfl rfl⟩
  rw [Sys.peer_onPeers]
  split
  · exact ((rest.peers id inside).read isRead).1
  · exact rest.peers id inside

end AtRest

theorem Updated.maxTxid
    {s s' : Sys}
    {resp reply : Bytes}
    (updated : Updated s resp reply s')
    (id : Nat) :
    (s'.peer id).1.maxTxid = (s.peer id).1.maxTxid := by
  cases updated with
  | refused noVote =>
      rw [Sys.peer_onPeers]
      split
      · exact workPeer_maxTxid _ _
      · rfl
  | unanswered vote silent =>
      rw [Sys.peer_onPeers]
      split
      · exact (workPeer_maxTxid _ _).trans (workPeer_maxTxid _ _)
      · rfl
  | committed vote member answered =>
      rw [Sys.peer_onPeers]
      split
      · exact (workPeer_maxTxid _ _).trans (workPeer_maxTxid _ _)
      · rfl

/-- The possible results of the part of `Working` under its mutex. -/
inductive Dispatched (s : Sys) (task : List Bytes) : Bytes → Sys → Prop
  | update
      (update : isUpdate task = true)
      {reply : Bytes}
      {s' : Sys}
      (updated : Updated s (getRESPArry task) reply s') :
      Dispatched s task reply s'
  | unread
      (isRead : isRequest task = true)
      (silent : ∀ id ∈ s.co.ids,
        (workPeer (getReq (getRESPArry task))
          (s.peer id)).1.answered = false) :
      Dispatched s task getErrorMessage
        (s.onPeers s.co.ids (workPeer (getReq (getRESPArry task))))
  | read
      (isRead : isRequest task = true)
      {before rest : List Nat}
      {id : Nat}
      (order : s.co.ids = before ++ id :: rest)
      (silent : ∀ other ∈ before,
        (workPeer (getReq (getRESPArry task))
          (s.peer other)).1.answered = false)
      (answered : (workPeer (getReq (getRESPArry task))
        (s.peer id)).1.answered = true) :
      Dispatched s task
        (workPeer (getReq (getRESPArry task)) (s.peer id)).1.pworkingDataRet
        (s.onPeers (before ++ [id]) (workPeer (getReq (getRESPArry task))))
  | other
      (notUpdate : isUpdate task = false)
      (notRead : isRequest task = false) :
      Dispatched s task getErrorMessage s

/-- A command under the mutex fails no assertion and has one of these
results. -/
theorem exec_dispatch (s : Sys) (task : List Bytes) :
    ∃ reply s', (dispatch task).exec s = some (reply, s') ∧
      Dispatched s task reply s' := by
  by_cases update : isUpdate task = true
  · obtain ⟨reply, s', executed, updated⟩ :=
      exec_updateDB s (getRESPArry task)
    exact ⟨reply, s', by rw [dispatch, if_pos update, executed],
      .update update updated⟩
  · by_cases isRead : isRequest task = true
    · obtain ⟨asked, rest, reply, order, executed, outcome⟩ :=
        exec_requestFrom (getRESPArry task) s.co.nodup_ids s
      have start : (dispatch task).exec s =
          (requestFrom (getRESPArry task) s.co.ids).exec s := by
        rw [dispatch, if_neg update, if_pos isRead, request, Prog.exec_bind,
          Prog.exec_read, Option.bind_some]
      rw [start, executed]
      rcases outcome with ⟨all, rfl, silent⟩ |
        ⟨before, id, isLast, silent, answered, rfl⟩
      · rw [all, List.append_nil] at order
        subst order
        exact ⟨_, _, rfl, .unread isRead silent⟩
      · subst isLast
        exact ⟨_, _, rfl, .read isRead (by rw [order, List.append_assoc]; rfl)
          silent answered⟩
    · refine ⟨getErrorMessage, s, ?_, .other (by simpa using update)
        (by simpa using isRead)⟩
      rw [dispatch, if_neg update, if_neg isRead, Prog.exec_pure]

namespace Dispatched

variable
  {admissible : Nat → Log → Prop}
  {s s' : Sys}
  {task : List Bytes}
  {reply : Bytes}

/-- A command keeps the system at rest, when the record of an update is
admissible or its commit reaches nobody. -/
theorem atRest
    (dispatched : Dispatched s task reply s')
    (rest : AtRest admissible s)
    (allowed : isUpdate task = true → CommitDelivered s →
      LogRecord s.co.txid ⟨s.co.txid, .commit, getRESPArry task⟩ →
      admissible s.co.txid ⟨s.co.txid, .commit, getRESPArry task⟩) :
    AtRest admissible s' ∧ Advanced s.co s'.co := by
  cases dispatched with
  | update update updated =>
      exact rest.updateDB update (allowed update) updated
  | unread isRead silent => exact rest.request isRead _
  | read isRead order silent answered => exact rest.request isRead _
  | other notUpdate notRead => exact ⟨rest, .refl _⟩

theorem maxTxid
    (dispatched : Dispatched s task reply s')
    (id : Nat) :
    (s'.peer id).1.maxTxid = (s.peer id).1.maxTxid := by
  cases dispatched with
  | update update updated => exact updated.maxTxid id
  | unread isRead silent =>
      rw [Sys.peer_onPeers]
      split
      · exact workPeer_maxTxid _ _
      · rfl
  | read isRead order silent answered =>
      rw [Sys.peer_onPeers]
      split
      · exact workPeer_maxTxid _ _
      · rfl
  | other notUpdate notRead => rfl

end Dispatched

end Lab3
end CloudComputing
