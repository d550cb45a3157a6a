import CloudComputing.Lab3.RecvCommand
import CloudComputing.Lab3.SequentialMap
import CloudComputing.Lab3.Update

/-!
# The replicated store without failures

As long as the participants at work answer, `Working` serves its clients like
the sequential map.  The transaction numbers bound the number of updates: they
are printed as 64-bit numbers and read back as `long`, so from `2 ^ 63` on no
participant grants a vote.
-/

namespace CloudComputing
namespace Lab3

open CloudComputing.Lab3.Parser Network

/-- A participant that, if it is at work, answers, and has this number and
this map. -/
structure Holds (txid : Nat) (kvdb : KV) (peer : Entry × Node) : Prop where
  faultless : peer.1.pstate = .working → peer.2.Faultless
  aligned : peer.1.pstate = .working → peer.2.proc.txid = txid
  map : peer.1.pstate = .working → peer.2.proc.kvdb = kvdb

namespace Holds

variable
  {txid : Nat}
  {kvdb : KV}
  {peer : Entry × Node}

/-- An exchange whose answer depends on the number and the map only. -/
theorem exchange
    (holds : Holds txid kvdb peer)
    {task reply : Bytes}
    (sendable : Sendable task)
    (fits : Sendable reply)
    (txid' : Nat)
    (kvdb' : KV)
    (answer : ∀ p : Participant, p.txid = txid → p.kvdb = kvdb →
      ∃ next, p.pWorker task = some (reply, next) ∧ next.txid = txid' ∧
        next.kvdb = kvdb') :
    Holds txid' kvdb' (workPeer task peer) ∧
      (workPeer task peer).1.pstate = peer.1.pstate ∧
      (peer.1.pstate = .working →
        (workPeer task peer).1.pworkingRet = kvOk ∧
        (workPeer task peer).1.pworkingDataRet = reply) ∧
      (peer.1.pstate ≠ .working →
        (workPeer task peer).1.pworkingRet = retSkip) := by
  by_cases working : peer.1.pstate = .working
  · obtain ⟨next, replied, number, map⟩ :=
      answer _ (holds.aligned working) (holds.map working)
    have faultless := holds.faultless working
    have outcome : workPeer task peer =
        ({ peer.1 with
            ptask := task, pworkingRet := kvOk, pworkingDataRet := reply },
          { peer.2 with
            proc := next
            restarted := false
            received := peer.2.received ++ [task]
            fates := peer.2.fates.tail }) := by
      simp only [workPeer, pWorking, working,
        faultless.sendAndRecv sendable replied fits, ne_eq, not_true_eq_false,
        if_false]
    rw [outcome]
    exact ⟨⟨fun _ => faultless.next next _, fun _ => number, fun _ => map⟩,
      rfl, fun _ => ⟨rfl, rfl⟩, fun idle => absurd working idle⟩
  · have outcome : workPeer task peer =
        ({ peer.1 with ptask := task, pworkingRet := retSkip }, peer.2) := by
      simp only [workPeer, pWorking, working, ne_eq, not_false_eq_true,
        if_true]
    rw [outcome]
    exact ⟨⟨fun now => absurd now working, fun now => absurd now working,
      fun now => absurd now working⟩, rfl, fun now => absurd now working,
      fun _ => rfl⟩

/-- The vote of a participant at work. -/
theorem vote
    (holds : Holds txid kvdb peer)
    (lower : txidStart ≤ txid)
    (word : txid < 2 ^ 64) :
    Holds txid kvdb (workPeer (voteReq txid) peer) ∧
      (workPeer (voteReq txid) peer).1.pstate = peer.1.pstate ∧
      ((workPeer (voteReq txid) peer).1.voted = true ↔
        peer.1.pstate = .working ∧ txid < 2 ^ 63) := by
  have sendable : Sendable (voteReq txid) :=
    sendable_logToStr word (show LogState.pre.code < 2 ^ 64 by decide)
      (show ([] : Bytes).length < 2 ^ 31 - 64 by decide)
  have own : Log.readTxid txid = txid ↔ txid < 2 ^ 63 := by
    simp only [Log.readTxid]
    omega
  have fits : Sendable
      (if txid < 2 ^ 63 then str "PRE" else getErrorMessage) := by
    split
    · decide
    · decide
  obtain ⟨kept, same, answered, skipped⟩ := holds.exchange sendable fits
    txid kvdb fun p number map => by
      refine ⟨p, ?_, number, map⟩
      rw [voteReq, p.pWorker_vote lower, number]
      simp only [own]
  refine ⟨kept, same, ?_⟩
  unfold Entry.voted
  rw [Bool.and_eq_true, decide_eq_true_eq, decide_eq_true_eq]
  by_cases working : peer.1.pstate = .working
  · rw [(answered working).1, (answered working).2]
    by_cases small : txid < 2 ^ 63
    · simp only [working, small, if_true, and_self]
    · simp only [working, small, if_false, and_false, true_and, iff_false]
      decide
  · rw [skipped working]
    simp only [working, false_and, iff_false, not_and]
    intro ok
    cases ok

/-- The commit of a participant at work, below the bound. -/
theorem commit
    (holds : Holds txid kvdb peer)
    (lower : txidStart ≤ txid)
    (small : txid < 2 ^ 63)
    {task : List Bytes}
    (update : isUpdate task = true)
    (short : (getRESPArry task).length < 2 ^ 30) :
    Holds (if SequentialMap.isStore task then txid + 1 else txid)
        (SequentialMap.step kvdb task).2
        (workPeer (commitReq txid (getRESPArry task)) peer) ∧
      (workPeer (commitReq txid (getRESPArry task)) peer).1.pstate =
        peer.1.pstate ∧
      ((workPeer (commitReq txid (getRESPArry task)) peer).1.acknowledged =
          true ↔
        peer.1.pstate = .working ∧ SequentialMap.isStore task = true) ∧
      (peer.1.pstate = .working →
        (workPeer (commitReq txid (getRESPArry task)) peer).1.pworkingDataRet =
          (SequentialMap.step kvdb task).1) := by
  have sendable : Sendable (commitReq txid (getRESPArry task)) :=
    sendable_logToStr (show txid < 2 ^ 64 by omega)
      (show LogState.commit.code < 2 ^ 64 by decide)
      (show (getRESPArry task).length < 2 ^ 31 - 64 by omega)
  have executed := Participant.runComds_eq_step kvdb (Or.inl update)
  have fits : Sendable (SequentialMap.step kvdb task).1 := by
    rw [← executed]
    exact sendable_runComds_update kvdb update (by omega)
  have refused : (SequentialMap.step kvdb task).1 = getErrorMessage ↔
      SequentialMap.isStore task = false := by
    rw [← executed, SequentialMap.isStore_eq update]
    exact Participant.runComds_error_iff kvdb task
  obtain ⟨kept, same, answered, skipped⟩ := holds.exchange sendable fits
    (if SequentialMap.isStore task then txid + 1 else txid)
    (SequentialMap.step kvdb task).2 fun p number map => by
      have own : Log.readTxid txid = p.txid := by
        rw [Log.readTxid_of_lt small, number]
      rw [p.pWorker_commitReq lower (by omega), SequentialMap.isStore_eq update,
        map, ← executed]
      by_cases accepted : Participant.Accepted task = true
      · rw [if_pos ⟨own, accepted⟩, if_pos accepted]
        exact ⟨_, rfl, by rw [← number]; rfl, by rw [← map]; rfl⟩
      · rw [if_neg fun both => accepted both.2, if_neg accepted,
          Participant.runComds_of_not_accepted kvdb (by simpa using accepted)]
        exact ⟨_, rfl, number, map⟩
  refine ⟨kept, same, ?_, fun working => (answered working).2⟩
  unfold Entry.acknowledged
  rw [Bool.and_eq_true, decide_eq_true_eq, decide_eq_true_eq]
  by_cases working : peer.1.pstate = .working
  · rw [(answered working).1, (answered working).2, ne_eq, refused,
      Bool.not_eq_false]
    simp only [working, true_and]
  · rw [skipped working]
    simp only [working, false_and, iff_false, not_and]
    intro ok
    cases ok

/-- The read of a participant at work. -/
theorem read
    (holds : Holds txid kvdb peer)
    {task : List Bytes}
    (isRead : isRequest task = true)
    (short : (getRESPArry task).length < 2 ^ 30)
    (within : SequentialMap.Within (2 ^ 30) kvdb) :
    Holds txid kvdb (workPeer (getReq (getRESPArry task)) peer) ∧
      (workPeer (getReq (getRESPArry task)) peer).1.pstate = peer.1.pstate ∧
      ((workPeer (getReq (getRESPArry task)) peer).1.answered = true ↔
        peer.1.pstate = .working) ∧
      (peer.1.pstate = .working →
        (workPeer (getReq (getRESPArry task)) peer).1.pworkingDataRet =
          (SequentialMap.step kvdb task).1) := by
  have sendable : Sendable (getReq (getRESPArry task)) :=
    sendable_logToStr (show superTxid < 2 ^ 64 by decide)
      (show LogState.commit.code < 2 ^ 64 by decide)
      (show (getRESPArry task).length < 2 ^ 31 - 64 by omega)
  have executed := Participant.runComds_eq_step kvdb (Or.inr isRead)
  have fits : Sendable (SequentialMap.step kvdb task).1 := by
    rw [← executed]
    exact sendable_runComds_read within isRead
  obtain ⟨kept, same, answered, skipped⟩ := holds.exchange sendable fits
    txid kvdb fun p number map => by
      refine ⟨p, ?_, number, map⟩
      rw [p.pWorker_getReq isRead sendable, map, executed]
  refine ⟨kept, same, ?_, fun working => (answered working).2⟩
  unfold Entry.answered
  rw [Bool.and_eq_true, decide_eq_true_eq, decide_eq_true_eq]
  by_cases working : peer.1.pstate = .working
  · rw [(answered working).1, (answered working).2, ← executed]
    simp only [working, Participant.runComds_ne_nil, ne_eq, not_false_eq_true,
      and_self]
  · rw [skipped working]
    simp only [working, iff_false, not_and]
    intro ok
    cases ok

end Holds

/-- A coordinator at work, with at least one participant at work, all of which
answer and have its number and the same map. -/
structure Aligned (kvdb : KV) (s : Sys) : Prop where
  cstate : s.co.cstate = .working
  start : txidStart ≤ s.co.txid
  word : s.co.txid < 2 ^ 64
  somebody : ∃ id ∈ s.co.ids, (s.co.entry id).pstate = .working
  peers : ∀ id ∈ s.co.ids, Holds s.co.txid kvdb (s.peer id)

/-- The same participants are in the same states. -/
structure Sys.SameStates (s s' : Sys) : Prop where
  ids : s'.co.ids = s.co.ids
  pstate : ∀ id ∈ s.co.ids,
    (s'.co.entry id).pstate = (s.co.entry id).pstate

theorem Sys.SameStates.refl (s : Sys) : s.SameStates s :=
  ⟨rfl, fun _ _ => rfl⟩

theorem Sys.SameStates.trans
    {s s' s'' : Sys}
    (first : s.SameStates s')
    (second : s'.SameStates s'') :
    s.SameStates s'' where
  ids := second.ids.trans first.ids
  pstate := fun id inside =>
    (second.pstate id (first.ids ▸ inside)).trans (first.pstate id inside)

namespace Aligned

variable
  {kvdb : KV}
  {s s' : Sys}
  {task : List Bytes}
  {reply : Bytes}

/-- The participants have changed together. -/
theorem of_peers
    (aligned : Aligned kvdb s)
    (s' : Sys)
    (kvdb' : KV)
    (cstate : s'.co.cstate = .working)
    (ids : s'.co.ids = s.co.ids)
    (start : txidStart ≤ s'.co.txid)
    (word : s'.co.txid < 2 ^ 64)
    (peers : ∀ id ∈ s.co.ids,
      Holds s'.co.txid kvdb' (s'.peer id) ∧
        (s'.peer id).1.pstate = (s.peer id).1.pstate) :
    Aligned kvdb' s' ∧ s.SameStates s' := by
  have same : s.SameStates s' := ⟨ids, fun id inside => (peers id inside).2⟩
  obtain ⟨worker, inside, working⟩ := aligned.somebody
  refine ⟨⟨cstate, start, word, ⟨worker, ids ▸ inside, ?_⟩, ?_⟩, same⟩
  · rw [same.pstate worker inside]
    exact working
  · intro id inside
    exact (peers id (ids ▸ inside)).1

/-- The coordinator executes an update like the sequential map, below the
bound of its transaction numbers. -/
theorem updated
    (aligned : Aligned kvdb s)
    (update : isUpdate task = true)
    (short : (getRESPArry task).length < 2 ^ 30)
    (small : s.co.txid < 2 ^ 63)
    (result : Updated s (getRESPArry task) reply s') :
    reply = (SequentialMap.step kvdb task).1 ∧
      Aligned (SequentialMap.step kvdb task).2 s' ∧ s.SameStates s' ∧
      s'.co.txid =
        if SequentialMap.isStore task then s.co.txid + 1 else s.co.txid := by
  have voted := fun id inside =>
    (aligned.peers id inside).vote aligned.start aligned.word
  have committed := fun id inside =>
    (voted id inside).1.commit aligned.start small update short
  have peers : ∀ id ∈ s.co.ids,
      Holds (if SequentialMap.isStore task then s.co.txid + 1 else s.co.txid)
          (SequentialMap.step kvdb task).2
          (updatePeer s.co.txid (getRESPArry task) (s.peer id)) ∧
        (updatePeer s.co.txid (getRESPArry task) (s.peer id)).1.pstate =
          (s.peer id).1.pstate := fun id inside =>
    ⟨(committed id inside).1,
      (committed id inside).2.1.trans (voted id inside).2.1⟩
  have acknowledged : ∀ id ∈ s.co.ids,
      ((updatePeer s.co.txid (getRESPArry task) (s.peer id)).1.acknowledged =
          true ↔
        (s.peer id).1.pstate = .working ∧
          SequentialMap.isStore task = true) := by
    intro id inside
    have := (committed id inside).2.2.1
    rw [(voted id inside).2.1] at this
    exact this
  obtain ⟨worker, inside, working⟩ := aligned.somebody
  cases result with
  | refused noVote =>
      have granted := (voted worker inside).2.2.mpr ⟨working, small⟩
      rw [noVote worker inside] at granted
      cases granted
  | unanswered vote silent =>
      have rejected : SequentialMap.isStore task = false := by
        by_contra store
        have positive := (acknowledged worker inside).mpr
          ⟨working, by simpa using store⟩
        rw [silent worker inside] at positive
        cases positive
      have error : (SequentialMap.step kvdb task).1 = getErrorMessage := by
        rw [← Participant.runComds_eq_step kvdb (Or.inl update),
          Participant.runComds_error_iff,
          ← SequentialMap.isStore_eq update]
        exact rejected
      simp only [rejected, Bool.false_eq_true, if_false] at peers ⊢
      have kept := aligned.of_peers
        ((s.withRecord ⟨s.co.txid, .pre, getRESPArry task⟩
          s.co.txid).onPeers s.co.ids
            (updatePeer s.co.txid (getRESPArry task)))
        (SequentialMap.step kvdb task).2 aligned.cstate rfl aligned.start
        aligned.word fun id inside => by
          rw [Sys.peer_onPeers, if_pos inside]
          exact peers id inside
      exact ⟨error.symm, kept.1, kept.2, rfl⟩
  | @committed vote id member answered =>
      obtain ⟨isWorking, store⟩ := (acknowledged id member).mp answered
      have data := (committed id member).2.2.2
        ((voted id member).2.1.trans isWorking)
      simp only [store, if_true] at peers ⊢
      have kept := aligned.of_peers
        ((s.withRecord ⟨s.co.txid, .commit, getRESPArry task⟩
          (s.co.txid + 1)).onPeers s.co.ids
            (updatePeer s.co.txid (getRESPArry task)))
        (SequentialMap.step kvdb task).2 aligned.cstate rfl
        (Nat.le_succ_of_le aligned.start)
        (show s.co.txid + 1 < 2 ^ 64 by omega) fun id inside => by
          rw [Sys.peer_onPeers, if_pos inside]
          exact peers id inside
      exact ⟨data, kept.1, kept.2, rfl⟩

/-- From the bound on, every update is refused. -/
theorem updated_above
    (aligned : Aligned kvdb s)
    (large : 2 ^ 63 ≤ s.co.txid)
    (result : Updated s (getRESPArry task) reply s') :
    reply = getErrorMessage ∧ Aligned kvdb s' ∧ s.SameStates s' ∧
      s'.co.txid = s.co.txid := by
  have voted := fun id inside =>
    (aligned.peers id inside).vote aligned.start aligned.word
  have impossible : ¬ ∃ id ∈ s.co.ids,
      (workPeer (voteReq s.co.txid) (s.peer id)).1.voted = true := by
    rintro ⟨id, inside, vote⟩
    have := ((voted id inside).2.2.mp vote).2
    omega
  cases result with
  | refused noVote =>
      have kept := aligned.of_peers
        ((s.withRecord ⟨s.co.txid, .pre, getRESPArry task⟩
          s.co.txid).onPeers s.co.ids (workPeer (voteReq s.co.txid)))
        kvdb aligned.cstate rfl aligned.start aligned.word fun id inside => by
          rw [Sys.peer_onPeers, if_pos inside]
          exact ⟨(voted id inside).1, (voted id inside).2.1⟩
      exact ⟨rfl, kept.1, kept.2, rfl⟩
  | unanswered vote silent => exact absurd vote impossible
  | committed vote member answered => exact absurd vote impossible

/-- A read or any other command. -/
theorem dispatched
    (aligned : Aligned kvdb s)
    (notUpdate : isUpdate task = false)
    (short : (getRESPArry task).length < 2 ^ 30)
    (within : SequentialMap.Within (2 ^ 30) kvdb)
    (result : Dispatched s task reply s') :
    reply = (SequentialMap.step kvdb task).1 ∧
      Aligned (SequentialMap.step kvdb task).2 s' ∧ s.SameStates s' ∧
      s'.co.txid = s.co.txid := by
  have readers : ∀ (isRead : isRequest task = true) asked,
      Aligned (SequentialMap.step kvdb task).2
          (s.onPeers asked (workPeer (getReq (getRESPArry task)))) ∧
        s.SameStates
          (s.onPeers asked (workPeer (getReq (getRESPArry task)))) := by
    intro isRead asked
    have same : (SequentialMap.step kvdb task).2 = kvdb := by
      rw [← Participant.runComds_eq_step kvdb (Or.inr isRead)]
      obtain ⟨name, args, rfl, isGet⟩ := request_head isRead
      exact Participant.runComds_get_snd kvdb args isGet
    rw [same]
    refine aligned.of_peers _ kvdb aligned.cstate rfl aligned.start
      aligned.word fun id inside => ?_
    rw [Sys.peer_onPeers]
    split
    · have read := (aligned.peers id inside).read isRead short within
      exact ⟨read.1, read.2.1⟩
    · exact ⟨aligned.peers id inside, rfl⟩
  cases result with
  | update update updated =>
      rw [update] at notUpdate
      cases notUpdate
  | unread isRead silent =>
      obtain ⟨worker, inside, working⟩ := aligned.somebody
      have answers := ((aligned.peers worker inside).read isRead short
        within).2.2.1.mpr working
      rw [silent worker inside] at answers
      cases answers
  | @read isRead before later id order silent answered =>
      have inside : id ∈ s.co.ids := by
        rw [order]
        simp
      obtain ⟨_, _, answers, data⟩ :=
        (aligned.peers id inside).read isRead short within
      have kept := readers isRead (before ++ [id])
      exact ⟨data (answers.mp answered), kept.1, kept.2, rfl⟩
  | other _ notRead =>
      rw [SequentialMap.step_of_unknown kvdb notUpdate notRead]
      exact ⟨rfl, aligned, .refl s, rfl⟩

/-- One client. -/
theorem working
    (aligned : Aligned kvdb s)
    (within : SequentialMap.Within (2 ^ 30) kvdb)
    (short : (getRESPArry task).length < 2 ^ 30)
    (heap : Nat → Nat → Option Bytes) :
    ∃ reply s', Lab3.working heap (sent (getRESPArry task)) s =
        some (reply, s') ∧ s.SameStates s' ∧
      if SequentialMap.isStore task = true ∧ 2 ^ 63 ≤ s.co.txid then
        reply = getErrorMessage ∧ Aligned kvdb s'
      else
        reply = (SequentialMap.step kvdb task).1 ∧
          Aligned (SequentialMap.step kvdb task).2 s' ∧
          s'.co.txid =
            if SequentialMap.isStore task then s.co.txid + 1
            else s.co.txid := by
  have received := recvCommand_getRESPArry heap
    (show (getRESPArry task).length < 2 ^ 31 by omega) []
  rw [List.append_nil] at received
  rw [Lab3.working, received, Option.bind_eq_bind, Option.bind_some]
  dsimp only
  by_cases empty : task.length < 1
  · have isEmpty : task = [] := List.length_eq_zero_iff.mp (by omega)
    subst isEmpty
    rw [if_pos empty]
    exact ⟨_, _, rfl, .refl s, rfl, aligned, rfl⟩
  · rw [if_neg empty, if_neg (not_not_intro aligned.cstate)]
    obtain ⟨reply, s', executed, result⟩ := exec_dispatch s task
    refine ⟨reply, s', executed, ?_⟩
    cases update : isUpdate task with
    | false =>
        have noStore : ¬ SequentialMap.isStore task = true := fun store => by
          rw [SequentialMap.isUpdate_of_isStore store] at update
          cases update
        obtain ⟨isReply, kept, same, number⟩ :=
          aligned.dispatched update short within result
        rw [if_neg fun both => noStore both.1, if_neg noStore]
        exact ⟨same, isReply, kept, number⟩
    | true =>
        have updated : Updated s (getRESPArry task) reply s' := by
          cases result with
          | update _ updated => exact updated
          | unread isRead silent =>
              exact absurd isRead (not_isRequest_of_isUpdate update)
          | read isRead order silent answered =>
              exact absurd isRead (not_isRequest_of_isUpdate update)
          | other notUpdate notRead =>
              rw [update] at notUpdate
              cases notUpdate
        by_cases small : s.co.txid < 2 ^ 63
        · obtain ⟨isReply, kept, same, number⟩ :=
            aligned.updated update short small updated
          rw [if_neg fun both => absurd both.2 (by omega)]
          exact ⟨same, isReply, kept, number⟩
        · obtain ⟨isReply, kept, same, number⟩ :=
            aligned.updated_above (by omega) updated
          refine ⟨same, ?_⟩
          by_cases store : SequentialMap.isStore task = true
          · rw [if_pos ⟨store, by omega⟩]
            exact ⟨isReply, kept⟩
          · have refused : SequentialMap.step kvdb task =
                (getErrorMessage, kvdb) := by
              rw [← Participant.runComds_eq_step kvdb (Or.inl update)]
              apply Participant.runComds_of_not_accepted
              rw [← SequentialMap.isStore_eq update]
              simpa using store
            rw [if_neg fun both => store both.1, if_neg store, refused]
            exact ⟨isReply, kept, number⟩

end Aligned

/-! ## Clients one after the other -/

/-- `Working` for each of the commands: the strings given to `sendResult`. -/
def serveAll (heap : Nat → Nat → Option Bytes) :
    List (List Bytes) → Sys → Option (List Bytes × Sys)
  | [], s => some ([], s)
  | task :: tasks, s => do
      let (reply, s) ← working heap (sent (getRESPArry task)) s
      let (replies, s) ← serveAll heap tasks s
      some (reply :: replies, s)

namespace Aligned

variable
  {kvdb : KV}
  {s : Sys}
  {tasks : List (List Bytes)}

/-- Every client is answered. -/
theorem serveAll_total
    (aligned : Aligned kvdb s)
    (within : SequentialMap.Within (2 ^ 30) kvdb)
    (short : ∀ task ∈ tasks, (getRESPArry task).length < 2 ^ 30)
    (heap : Nat → Nat → Option Bytes) :
    ∃ replies s', serveAll heap tasks s = some (replies, s') ∧
      s.SameStates s' := by
  induction tasks generalizing kvdb s with
  | nil => exact ⟨_, _, rfl, .refl s⟩
  | cons task tasks inductionHypothesis =>
      have shortTask := short task (by simp)
      have shortTasks := fun other member =>
        short other (List.mem_cons_of_mem task member)
      obtain ⟨reply, s', served, same, outcome⟩ :=
        aligned.working within shortTask heap
      obtain ⟨kvdb', within', aligned'⟩ : ∃ kvdb',
          SequentialMap.Within (2 ^ 30) kvdb' ∧ Aligned kvdb' s' := by
        split at outcome
        · exact ⟨kvdb, within, outcome.2⟩
        · exact ⟨_, within.step fun element member =>
            element_length_lt_of_getRESPArry_lt shortTask member,
            outcome.2.1⟩
      obtain ⟨replies, s'', rest, same'⟩ :=
        inductionHypothesis aligned' within' shortTasks
      refine ⟨reply :: replies, s'', ?_, same.trans same'⟩
      simp only [serveAll, served, rest, Option.bind_eq_bind,
        Option.bind_some]

/-- Below the bound the clients are served like by the sequential map. -/
theorem serveAll_below
    (aligned : Aligned kvdb s)
    (within : SequentialMap.Within (2 ^ 30) kvdb)
    (short : ∀ task ∈ tasks, (getRESPArry task).length < 2 ^ 30)
    (heap : Nat → Nat → Option Bytes)
    (below : tasks.countP SequentialMap.isStore = 0 ∨
      s.co.txid + tasks.countP SequentialMap.isStore ≤ 2 ^ 63) :
    ∃ s', serveAll heap tasks s =
        some ((SequentialMap.run kvdb tasks).1, s') ∧
      Aligned (SequentialMap.run kvdb tasks).2 s' := by
  induction tasks generalizing kvdb s with
  | nil => exact ⟨s, rfl, aligned⟩
  | cons task tasks inductionHypothesis =>
      have shortTask := short task (by simp)
      have shortTasks := fun other member =>
        short other (List.mem_cons_of_mem task member)
      obtain ⟨reply, s', served, _, outcome⟩ :=
        aligned.working within shortTask heap
      rw [List.countP_cons] at below
      have served' : ¬ (SequentialMap.isStore task = true ∧
          2 ^ 63 ≤ s.co.txid) := by
        rintro ⟨store, large⟩
        rw [if_pos store] at below
        omega
      rw [if_neg served'] at outcome
      obtain ⟨rfl, aligned', number⟩ := outcome
      have below' : tasks.countP SequentialMap.isStore = 0 ∨
          s'.co.txid + tasks.countP SequentialMap.isStore ≤ 2 ^ 63 := by
        rw [number]
        split
        · rename_i store
          rw [if_pos store] at below
          omega
        · rename_i noStore
          rw [if_neg noStore] at below
          omega
      obtain ⟨s'', rest, kept⟩ := inductionHypothesis aligned'
        (within.step fun element member =>
          element_length_lt_of_getRESPArry_lt shortTask member)
        shortTasks below'
      refine ⟨s'', ?_, kept⟩
      simp only [serveAll, served, rest, Option.bind_eq_bind,
        Option.bind_some, SequentialMap.run]

/-- Beyond the bound an update is refused that the map takes. -/
theorem serveAll_above
    (aligned : Aligned kvdb s)
    (within : SequentialMap.Within (2 ^ 30) kvdb)
    (short : ∀ task ∈ tasks, (getRESPArry task).length < 2 ^ 30)
    (heap : Nat → Nat → Option Bytes)
    (updates : tasks.countP SequentialMap.isStore ≠ 0)
    (above : 2 ^ 63 < s.co.txid + tasks.countP SequentialMap.isStore)
    {replies : List Bytes}
    {s' : Sys}
    (answered : serveAll heap tasks s = some (replies, s')) :
    replies ≠ (SequentialMap.run kvdb tasks).1 := by
  induction tasks generalizing kvdb s replies with
  | nil => exact absurd rfl updates
  | cons task tasks inductionHypothesis =>
      have shortTask := short task (by simp)
      have shortTasks := fun other member =>
        short other (List.mem_cons_of_mem task member)
      obtain ⟨reply, next, served, _, outcome⟩ :=
        aligned.working within shortTask heap
      rw [serveAll, served, Option.bind_eq_bind, Option.bind_some] at answered
      obtain ⟨⟨rest, last⟩, answeredRest, isLast⟩ :=
        Option.bind_eq_some_iff.mp answered
      cases isLast
      rw [List.countP_cons] at updates above
      by_cases refused : SequentialMap.isStore task = true ∧
          2 ^ 63 ≤ s.co.txid
      · rw [if_pos refused] at outcome
        have update := SequentialMap.isUpdate_of_isStore refused.1
        have positive : (SequentialMap.step kvdb task).1 ≠ getErrorMessage := by
          rw [← Participant.runComds_eq_step kvdb (Or.inl update), ne_eq,
            Participant.runComds_error_iff, ← SequentialMap.isStore_eq update,
            refused.1]
          exact Bool.noConfusion
        intro same
        rw [SequentialMap.run, List.cons.injEq, outcome.1] at same
        exact positive same.1.symm
      · rw [if_neg refused] at outcome
        obtain ⟨rfl, aligned', number⟩ := outcome
        intro same
        rw [SequentialMap.run, List.cons.injEq] at same
        refine inductionHypothesis aligned'
          (within.step fun element member =>
            element_length_lt_of_getRESPArry_lt shortTask member)
          shortTasks ?_ ?_ answeredRest same.2
        · intro none
          rw [none] at updates above
          split at updates
          · rename_i store
            rw [if_pos store] at above
            exact refused ⟨store, by omega⟩
          · exact updates rfl
        · rw [number]
          split
          · rename_i store
            rw [if_pos store] at above
            omega
          · rename_i noStore
            rw [if_neg noStore] at above
            omega

end Aligned

/-- Clients one after the other, with no communication error: the strings given
to `sendResult` are those of one sequential map, and every participant at work
has this map afterwards, exactly as long as the updates are numbered below
`2 ^ 63`. -/
theorem serveAll_sequential
    {kvdb : KV}
    {s : Sys}
    (aligned : Aligned kvdb s)
    (within : SequentialMap.Within (2 ^ 30) kvdb)
    {tasks : List (List Bytes)}
    (short : ∀ task ∈ tasks, (getRESPArry task).length < 2 ^ 30)
    (heap : Nat → Nat → Option Bytes) :
    ∃ replies s', serveAll heap tasks s = some (replies, s') ∧
      s.SameStates s' ∧
      (replies = (SequentialMap.run kvdb tasks).1 ∧
          (∀ id ∈ s'.co.ids, (s'.co.entry id).pstate = .working →
            (s'.node id).proc.kvdb = (SequentialMap.run kvdb tasks).2) ↔
        tasks.countP SequentialMap.isStore = 0 ∨
          s.co.txid + tasks.countP SequentialMap.isStore ≤ 2 ^ 63) := by
  obtain ⟨replies, s', served, same⟩ :=
    aligned.serveAll_total within short heap
  refine ⟨replies, s', served, same, ?_⟩
  constructor
  · rintro ⟨isRun, _⟩
    by_contra above
    rw [not_or] at above
    exact aligned.serveAll_above within short heap above.1 (by omega) served
      isRun
  · intro below
    obtain ⟨last, served', kept⟩ :=
      aligned.serveAll_below within short heap below
    rw [served] at served'
    cases served'
    exact ⟨rfl, fun id inside working => (kept.peers id inside).map working⟩

/-- `pnum` participants at work after commands `DEL` without keys up to a
transaction number. -/
def afterDeletes (pnum txid : Nat) : Sys where
  co :=
    { Coordinator.init pnum with
      txid := txid
      cstate := .working
      lg := fun id =>
        if txidStart ≤ id ∧ id < txid then
          some ⟨id, .commit, getRESPArry [str "DEL"]⟩
        else none
      entry := fun _ => { Entry.init with pstate := .working } }
  node := fun _ =>
    { proc :=
        { txid := txid
          lg := fun id =>
            if txidStart ≤ id ∧ id < txid then
              some ⟨id, .commit, getRESPArry [str "DEL"]⟩
            else none
          kvdb := .empty }
      link := true
      late := none
      restarted := false
      received := []
      fates := [] }

theorem afterDeletes_aligned
    {pnum txid : Nat}
    (somebody : 0 < pnum)
    (start : txidStart ≤ txid)
    (word : txid < 2 ^ 64) :
    Aligned KV.empty (afterDeletes pnum txid) where
  cstate := rfl
  start := start
  word := word
  somebody := ⟨1, Coordinator.mem_ids.mpr ⟨le_rfl, somebody⟩, rfl⟩
  peers := fun _ _ =>
    { faultless := fun _ => ⟨rfl, by simp [Sys.peer, afterDeletes]⟩
      aligned := fun _ => rfl
      map := fun _ => rfl }

theorem SequentialMap.within_empty (bound : Nat) : Within bound KV.empty := by
  intro key value found
  cases found

/-- Commands for the new database. -/
def firstCommands : List (List Bytes) :=
  [[str "SET", str "k", str "v"], [str "GET", str "k"],
    [str "DEL", str "k", str "k", str "l"], [str "GET", str "k"],
    [str "SET", str "k"]]

theorem serveAll_sequential_first :
    ∃ s', serveAll (fun _ _ => none) firstCommands (afterDeletes 2 5) =
      some ([str "+OK\r\n", str "*1\r\n$1\r\nv\r\n", str ":1\r\n",
        str "*1\r\n$3\r\nnil\r\n", str "-ERROR\r\n"], s') := by
  obtain ⟨replies, s', served, _, exact'⟩ :=
    serveAll_sequential
      (afterDeletes_aligned (show 0 < 2 by decide)
        (show txidStart ≤ 5 by decide) (by decide))
      (SequentialMap.within_empty _)
      (show ∀ task ∈ firstCommands, (getRESPArry task).length < 2 ^ 30 by
        decide)
      fun _ _ => none
  have isRun := (exact'.mpr (Or.inr (by decide))).1
  refine ⟨s', ?_⟩
  rw [served, isRun]
  congr 2

/-- With the number `2 ^ 63` the coordinator refuses a `SET` that the map
takes. -/
theorem serveAll_refuses :
    Aligned KV.empty (afterDeletes 1 (2 ^ 63)) ∧
      (∃ s', serveAll (fun _ _ => none) [[str "SET", str "k", str "v"]]
          (afterDeletes 1 (2 ^ 63)) = some ([getErrorMessage], s')) ∧
      (SequentialMap.run KV.empty [[str "SET", str "k", str "v"]]).1 =
        [getSuccessMessage] := by
  have aligned := afterDeletes_aligned (show 0 < 1 by decide)
    (show txidStart ≤ 2 ^ 63 by decide) (by decide)
  refine ⟨aligned, ?_, by decide⟩
  obtain ⟨reply, s', served, _, outcome⟩ :=
    aligned.working (SequentialMap.within_empty _)
      (show (getRESPArry [str "SET", str "k", str "v"]).length < 2 ^ 30 by
        decide) fun _ _ => none
  rw [if_pos ⟨by decide, le_rfl⟩] at outcome
  obtain ⟨rfl, _⟩ := outcome
  refine ⟨s', ?_⟩
  rw [serveAll, served]
  rfl

end Lab3
end CloudComputing
