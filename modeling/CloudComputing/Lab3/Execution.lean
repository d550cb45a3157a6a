import CloudComputing.Lab3.Coordinator

/-!
# Execution of the coordinator's functions

What a program of the coordinating thread does to the coordinator and its
participants, one lemma for each construct.  The workers of different
participants do not touch each other's variables, so a loop over all
participants changes what belongs to each of them by one function
(`Sys.onPeers`).
-/

namespace CloudComputing
namespace Lab3

open CloudComputing.Lab3.Parser

namespace Prog

variable {α β : Type}

@[simp] theorem exec_pure (value : α) (s : Sys) :
    (pure value : Prog α).exec s = some (value, s) := rfl

@[simp] theorem exec_fail (s : Sys) : (Prog.fail : Prog α).exec s = none := rfl

@[simp] theorem exec_read (s : Sys) : Prog.read.exec s = some (s.co, s) := rfl

@[simp] theorem exec_write (change : Coordinator → Coordinator) (s : Sys) :
    (Prog.write change).exec s = some ((), { s with co := change s.co }) := rfl

/-- Sequential composition executes the second program after the first. -/
@[simp] theorem exec_bind
    (prog : Prog α)
    (next : α → Prog β)
    (s : Sys) :
    (prog >>= next).exec s =
      (prog.exec s).bind fun done => (next done.1).exec done.2 := by
  change (prog.bind next).exec s = _
  induction prog generalizing s with
  | ret value => rfl
  | fail => rfl
  | get rest inductionHypothesis => exact inductionHypothesis s.co s
  | modify change rest inductionHypothesis => exact inductionHypothesis _
  | lock op port rest inductionHypothesis =>
      cases op with
      | pRelease =>
          simp only [Prog.bind, Prog.exec]
          cases s.serve port with
          | none => rfl
          | some served => exact inductionHypothesis served
      | pGet => exact inductionHypothesis s
      | cGet => exact inductionHypothesis s
      | cRelease => exact inductionHypothesis s

end Prog

namespace Sys

/-- What belongs to one participant: the coordinator's entry for it and the
participant itself. -/
def peer (s : Sys) (id : Nat) : Entry × Node := (s.co.entry id, s.node id)

/-- The same coordinator with other participants. -/
def withPeers (s : Sys) (peers : Nat → Entry × Node) : Sys :=
  { co := { s.co with entry := fun id => (peers id).1 }
    node := fun id => (peers id).2 }

/-- Apply a function to what belongs to each of the listed participants. -/
def onPeers
    (s : Sys)
    (ids : List Nat)
    (change : Entry × Node → Entry × Node) : Sys :=
  s.withPeers fun id => if id ∈ ids then change (s.peer id) else s.peer id

@[simp] theorem peer_withPeers (s : Sys) (peers : Nat → Entry × Node) :
    (s.withPeers peers).peer = peers := rfl

@[simp] theorem withPeers_peer (s : Sys) : s.withPeers s.peer = s := rfl

@[simp] theorem withPeers_withPeers
    (s : Sys)
    (peers peers' : Nat → Entry × Node) :
    (s.withPeers peers).withPeers peers' = s.withPeers peers' := rfl

theorem setPeer_eq (s : Sys) (id : Nat) (peer : Entry × Node) :
    s.setPeer id peer = s.withPeers (Function.update s.peer id peer) := by
  have entries : Function.update s.co.entry id peer.1 =
      fun other => (Function.update s.peer id peer other).1 := by
    funext other
    by_cases same : other = id
    · subst same
      simp
    · simp [same, Sys.peer]
  have nodes : Function.update s.node id peer.2 =
      fun other => (Function.update s.peer id peer other).2 := by
    funext other
    by_cases same : other = id
    · subst same
      simp
    · simp [same, Sys.peer]
  rw [setPeer, withPeers, Coordinator.setEntry, entries, nodes]

@[simp] theorem peer_setPeer_self
    (s : Sys)
    (id : Nat)
    (peer : Entry × Node) :
    (s.setPeer id peer).peer id = peer := by
  rw [setPeer_eq, peer_withPeers, Function.update_self]

theorem peer_setPeer_of_ne
    (s : Sys)
    {id other : Nat}
    (peer : Entry × Node)
    (different : other ≠ id) :
    (s.setPeer id peer).peer other = s.peer other := by
  rw [setPeer_eq, peer_withPeers, Function.update_of_ne different]

theorem peer_onPeers
    (s : Sys)
    (ids : List Nat)
    (change : Entry × Node → Entry × Node)
    (id : Nat) :
    (s.onPeers ids change).peer id =
      if id ∈ ids then change (s.peer id) else s.peer id := rfl

theorem entry_onPeers
    (s : Sys)
    {ids : List Nat}
    (change : Entry × Node → Entry × Node)
    {id : Nat}
    (member : id ∈ ids) :
    (s.onPeers ids change).co.entry id = (change (s.peer id)).1 := by
  change ((s.onPeers ids change).peer id).1 = _
  rw [peer_onPeers, if_pos member]

theorem node_onPeers
    (s : Sys)
    {ids : List Nat}
    (change : Entry × Node → Entry × Node)
    {id : Nat}
    (member : id ∈ ids) :
    (s.onPeers ids change).node id = (change (s.peer id)).2 := by
  change ((s.onPeers ids change).peer id).2 = _
  rw [peer_onPeers, if_pos member]

@[simp] theorem onPeers_nil
    (s : Sys)
    (change : Entry × Node → Entry × Node) :
    s.onPeers [] change = s := by
  simp only [onPeers, List.not_mem_nil, if_false]
  rfl

/-- One participant after the other is all participants at once. -/
theorem onPeers_cons
    (s : Sys)
    {id : Nat}
    {ids : List Nat}
    (fresh : id ∉ ids)
    (change : Entry × Node → Entry × Node) :
    (s.setPeer id (change (s.peer id))).onPeers ids change =
      s.onPeers (id :: ids) change := by
  rw [setPeer_eq, onPeers, onPeers, withPeers_withPeers, peer_withPeers]
  congr 1
  funext other
  by_cases same : other = id
  · subst same
    simp [fresh]
  · simp [same]

theorem onPeers_onPeers
    (s : Sys)
    (ids : List Nat)
    (first second : Entry × Node → Entry × Node) :
    (s.onPeers ids first).onPeers ids second =
      s.onPeers ids (second ∘ first) := by
  rw [onPeers, onPeers, onPeers, withPeers_withPeers, peer_withPeers]
  congr 1
  funext id
  by_cases member : id ∈ ids
  · simp [member]
  · simp [member]

section Coordinator

variable (s : Sys) (ids : List Nat) (change : Entry × Node → Entry × Node)

@[simp] theorem onPeers_txid : (s.onPeers ids change).co.txid = s.co.txid := rfl

@[simp] theorem onPeers_lg : (s.onPeers ids change).co.lg = s.co.lg := rfl

@[simp] theorem onPeers_ids : (s.onPeers ids change).co.ids = s.co.ids := rfl

end Coordinator

end Sys

theorem Coordinator.nodup_ids (co : Coordinator) : co.ids.Nodup :=
  List.nodup_range'

theorem Coordinator.mem_ids {co : Coordinator} {id : Nat} :
    id ∈ co.ids ↔ 1 ≤ id ∧ id ≤ co.pnum := by
  simp only [Coordinator.ids, List.mem_range'_1]
  omega

/-! ## Tasks for the workers -/

/-- A worker thread `pWorking` takes a task. -/
def workPeer (task : Bytes) (peer : Entry × Node) : Entry × Node :=
  pWorking { peer.1 with ptask := task } peer.2

/-- A worker thread `pRecovery` takes a task that decodes to `l`. -/
def recovPeer (l : Log) (task : Bytes) (peer : Entry × Node) : Entry × Node :=
  let entry := { peer.1 with pRtask := task }
  if entry.pstate ≠ .recovery then
    ({ entry with precoveryRet := retSkip }, peer.2)
  else if txidStart ≤ l.ID then
    let entry := { entry with maxTxid := some (entry.maxTxid.getD 0) }
    if l.ID ≠ entry.maxTxid.getD 0 + 1 then
      ({ entry with precoveryRet := retSkip }, peer.2)
    else pRecoverySend entry peer.2
  else pRecoverySend entry peer.2

theorem pRecovery_eq
    {l : Log}
    {task : Bytes}
    (decoded : Log.strToLog task = some l)
    (peer : Entry × Node) :
    pRecovery { peer.1 with pRtask := task } peer.2 =
      some (recovPeer l task peer) := by
  rw [pRecovery, recovPeer]
  by_cases inRecovery : peer.1.pstate = .recovery
  · simp only [inRecovery, ne_eq, not_true_eq_false, if_false, decoded,
      Option.bind_eq_bind, Option.bind_some]
    split
    · split <;> rfl
    · rfl
  · simp only [ne_eq, inRecovery, not_false_eq_true, if_true]

theorem setTask_serve_work (id : Nat) (task : Bytes) (s : Sys) :
    ({ s with co := setTask (.work id) task s.co }).serve (.work id) =
      some (s.setPeer id (workPeer task (s.peer id))) := by
  simp only [Sys.serve, setTask, Sys.setPeer, Coordinator.setEntry,
    Function.update_self, Function.update_idem, workPeer, Sys.peer]

theorem setTask_serve_recov
    (id : Nat)
    {task : Bytes}
    {l : Log}
    (decoded : Log.strToLog task = some l)
    (s : Sys) :
    ({ s with co := setTask (.recov id) task s.co }).serve (.recov id) =
      some (s.setPeer id (recovPeer l task (s.peer id))) := by
  have answer := pRecovery_eq decoded (s.peer id)
  simp only [Sys.peer] at answer
  simp only [Sys.serve, setTask, Sys.setPeer, Coordinator.setEntry,
    Function.update_self, Function.update_idem, answer, Option.map_some,
    Sys.peer]

@[simp] theorem exec_post_work (id : Nat) (task : Bytes) (s : Sys) :
    (post (.work id) task).exec s =
      some ((), s.setPeer id (workPeer task (s.peer id))) := by
  have served := setTask_serve_work id task s
  rw [show (post (.work id) task).exec s =
    (({ s with co := setTask (.work id) task s.co } : Sys).serve
      (.work id)).bind fun s => some ((), s) from rfl, served]
  rfl

theorem exec_post_recov
    (id : Nat)
    {task : Bytes}
    {l : Log}
    (decoded : Log.strToLog task = some l)
    (s : Sys) :
    (post (.recov id) task).exec s =
      some ((), s.setPeer id (recovPeer l task (s.peer id))) := by
  have served := setTask_serve_recov id decoded s
  rw [show (post (.recov id) task).exec s =
    (({ s with co := setTask (.recov id) task s.co } : Sys).serve
      (.recov id)).bind fun s => some ((), s) from rfl, served]
  rfl

@[simp] theorem exec_collect (port : Port) (s : Sys) :
    (collect port).exec s = some (result port s.co, s) := rfl

/-- Every participant's worker takes the same task. -/
theorem exec_postAll_work
    (task : Bytes)
    {ids : List Nat}
    (nodup : ids.Nodup)
    (s : Sys) :
    (postAll .work task ids).exec s =
      some ((), s.onPeers ids (workPeer task)) := by
  induction ids generalizing s with
  | nil => simp [postAll]
  | cons id ids inductionHypothesis =>
      obtain ⟨fresh, rest⟩ := List.nodup_cons.mp nodup
      rw [postAll, Prog.exec_bind, exec_post_work, Option.bind_some,
        inductionHypothesis rest, Sys.onPeers_cons s fresh]

/-- Every participant's recovery worker takes the same task. -/
theorem exec_postAll_recov
    {task : Bytes}
    {l : Log}
    (decoded : Log.strToLog task = some l)
    {ids : List Nat}
    (nodup : ids.Nodup)
    (s : Sys) :
    (postAll .recov task ids).exec s =
      some ((), s.onPeers ids (recovPeer l task)) := by
  induction ids generalizing s with
  | nil => simp [postAll]
  | cons id ids inductionHypothesis =>
      obtain ⟨fresh, rest⟩ := List.nodup_cons.mp nodup
      rw [postAll, Prog.exec_bind, exec_post_recov id decoded,
        Option.bind_some, inductionHypothesis rest, Sys.onPeers_cons s fresh]

/-- A record is given to every participant, one after the other. -/
theorem exec_pushAll
    {text : Bytes}
    {l : Log}
    (decoded : Log.strToLog text = some l)
    {ids : List Nat}
    (nodup : ids.Nodup)
    (s : Sys) :
    (pushAll text ids).exec s =
      some ((), s.onPeers ids (recovPeer l text)) := by
  induction ids generalizing s with
  | nil => simp [pushAll]
  | cons id ids inductionHypothesis =>
      obtain ⟨fresh, rest⟩ := List.nodup_cons.mp nodup
      rw [pushAll, Prog.exec_bind, exec_post_recov id decoded,
        Option.bind_some, Prog.exec_bind, exec_collect, Option.bind_some,
        inductionHypothesis rest, Sys.onPeers_cons s fresh]

/-- A record of the coordinator's log is given to every participant. -/
theorem exec_pushRecord
    {tid : Nat}
    {record l : Log}
    (decoded : Log.strToLog record.logToStr = some l)
    {ids : List Nat}
    (nodup : ids.Nodup)
    (s : Sys)
    (stored : s.co.lg tid = some record) :
    (pushRecord tid ids).exec s =
      some ((), s.onPeers ids (recovPeer l record.logToStr)) := by
  induction ids generalizing s with
  | nil => simp [pushRecord]
  | cons id ids inductionHypothesis =>
      obtain ⟨fresh, rest⟩ := List.nodup_cons.mp nodup
      rw [pushRecord, Prog.exec_bind, Prog.exec_read, Option.bind_some]
      simp only [Logger.getLogByTXID, stored]
      rw [Prog.exec_bind, exec_post_recov id decoded, Option.bind_some,
        Prog.exec_bind, exec_collect, Option.bind_some,
        inductionHypothesis rest
          (s.setPeer id (recovPeer l record.logToStr (s.peer id))) stored,
        Sys.onPeers_cons s fresh]

/-! ## `UpdateDB` and `Request` -/

/-- The vote of a participant counts. -/
def Entry.voted (entry : Entry) : Bool :=
  entry.pworkingRet = kvOk && entry.pworkingDataRet = str "PRE"

/-- The answer of a participant to a commit counts. -/
def Entry.acknowledged (entry : Entry) : Bool :=
  entry.pworkingRet = kvOk && entry.pworkingDataRet ≠ getErrorMessage

theorem exec_collectVotes (ids : List Nat) (vote : Bool) (s : Sys) :
    (collectVotes ids vote).exec s =
      some (vote || ids.any fun id => (s.co.entry id).voted, s) := by
  induction ids generalizing vote with
  | nil => simp [collectVotes]
  | cons id ids inductionHypothesis =>
      rw [collectVotes, Prog.exec_bind, exec_collect, Option.bind_some,
        inductionHypothesis]
      simp only [result, List.any_cons, Entry.voted, Bool.or_assoc]
      rfl

/-- One participant's answer in the commit loop. -/
def Entry.tally (entry : Entry) (done : Bool × Bytes) : Bool × Bytes :=
  if entry.acknowledged then (true, entry.pworkingDataRet) else done

theorem exec_collectCommits (ids : List Nat) (done : Bool × Bytes) (s : Sys) :
    (collectCommits ids done).exec s =
      some (ids.foldl (fun done id => (s.co.entry id).tally done) done, s) := by
  induction ids generalizing done with
  | nil => simp [collectCommits]
  | cons id ids inductionHypothesis =>
      rw [collectCommits, Prog.exec_bind, exec_collect, Option.bind_some,
        inductionHypothesis]
      simp only [result, List.foldl_cons, Entry.tally, Entry.acknowledged,
        Bool.and_eq_true, decide_eq_true_eq]
      rfl

/-- The commit loop finds an answer exactly when there is one, and returns one
of them. -/
theorem foldl_tally
    (entry : Nat → Entry)
    (ids : List Nat)
    (done : Bool × Bytes) :
    (ids.foldl (fun done id => (entry id).tally done) done = done ∧
        ∀ id ∈ ids, (entry id).acknowledged = false) ∨
      ∃ id ∈ ids, (entry id).acknowledged = true ∧
        ids.foldl (fun done id => (entry id).tally done) done =
          (true, (entry id).pworkingDataRet) := by
  induction ids generalizing done with
  | nil => exact Or.inl ⟨rfl, by simp⟩
  | cons id ids inductionHypothesis =>
      rw [List.foldl_cons]
      rcases inductionHypothesis ((entry id).tally done) with
        ⟨unchanged, none⟩ | ⟨later, member, acknowledged, found⟩
      · rw [unchanged]
        by_cases acknowledged : (entry id).acknowledged = true
        · exact Or.inr ⟨id, by simp, acknowledged, by
            rw [Entry.tally, if_pos acknowledged]⟩
        · have silent : (entry id).acknowledged = false := by
            simpa using acknowledged
          refine Or.inl ⟨by rw [Entry.tally, if_neg acknowledged], ?_⟩
          intro other member
          rcases List.mem_cons.mp member with rfl | member
          · exact silent
          · exact none other member
      · exact Or.inr ⟨later, List.mem_cons_of_mem id member, acknowledged,
          found⟩

/-- What `UpdateDB` does to one participant when there is a vote. -/
def updatePeer (txid : Nat) (resp : Bytes) (peer : Entry × Node) :
    Entry × Node :=
  workPeer (commitReq txid resp) (workPeer (voteReq txid) peer)

/-- The system after a record is written, with a new own number. -/
def Sys.withRecord (s : Sys) (record : Log) (txid : Nat) : Sys :=
  { s with co := { s.co with lg := s.co.lg.writeLog record, txid := txid } }

section Record

variable (s : Sys) (record : Log) (txid : Nat)

@[simp] theorem Sys.withRecord_txid :
    (s.withRecord record txid).co.txid = txid := rfl

@[simp] theorem Sys.withRecord_lg :
    (s.withRecord record txid).co.lg = s.co.lg.writeLog record := rfl

@[simp] theorem Sys.withRecord_ids :
    (s.withRecord record txid).co.ids = s.co.ids := rfl

@[simp] theorem Sys.peer_withRecord :
    (s.withRecord record txid).peer = s.peer := rfl

end Record

/-- The possible results of `UpdateDB`: no vote, no answer to the commit, or
the answer of one participant. -/
inductive Updated (s : Sys) (resp : Bytes) : Bytes → Sys → Prop
  | refused
      (noVote : ∀ id ∈ s.co.ids,
        (workPeer (voteReq s.co.txid) (s.peer id)).1.voted = false) :
      Updated s resp getErrorMessage
        ((s.withRecord ⟨s.co.txid, .pre, resp⟩ s.co.txid).onPeers s.co.ids
          (workPeer (voteReq s.co.txid)))
  | unanswered
      (vote : ∃ id ∈ s.co.ids,
        (workPeer (voteReq s.co.txid) (s.peer id)).1.voted = true)
      (silent : ∀ id ∈ s.co.ids,
        (updatePeer s.co.txid resp (s.peer id)).1.acknowledged = false) :
      Updated s resp getErrorMessage
        ((s.withRecord ⟨s.co.txid, .pre, resp⟩ s.co.txid).onPeers s.co.ids
          (updatePeer s.co.txid resp))
  | committed
      (vote : ∃ id ∈ s.co.ids,
        (workPeer (voteReq s.co.txid) (s.peer id)).1.voted = true)
      {id : Nat}
      (member : id ∈ s.co.ids)
      (answered :
        (updatePeer s.co.txid resp (s.peer id)).1.acknowledged = true) :
      Updated s resp (updatePeer s.co.txid resp (s.peer id)).1.pworkingDataRet
        ((s.withRecord ⟨s.co.txid, .commit, resp⟩ (s.co.txid + 1)).onPeers
          s.co.ids (updatePeer s.co.txid resp))

/-- `UpdateDB` fails no assertion and has one of its three results. -/
theorem exec_updateDB (s : Sys) (resp : Bytes) :
    ∃ reply s', (updateDB resp).exec s = some (reply, s') ∧
      Updated s resp reply s' := by
  let prepared := s.withRecord ⟨s.co.txid, .pre, resp⟩ s.co.txid
  let polled := prepared.onPeers s.co.ids (workPeer (voteReq s.co.txid))
  let done := prepared.onPeers s.co.ids (updatePeer s.co.txid resp)
  have peerPolled : ∀ id ∈ s.co.ids,
      polled.co.entry id =
        (workPeer (voteReq s.co.txid) (s.peer id)).1 := by
    intro id member
    exact prepared.entry_onPeers _ member
  have peerDone : ∀ id ∈ s.co.ids,
      done.co.entry id = (updatePeer s.co.txid resp (s.peer id)).1 := by
    intro id member
    exact prepared.entry_onPeers _ member
  have voting : (postAll .work (voteReq s.co.txid) s.co.ids).exec prepared =
      some ((), polled) := exec_postAll_work _ s.co.nodup_ids _
  have committing :
      (postAll .work (commitReq s.co.txid resp) s.co.ids).exec polled =
        some ((), done) := by
    rw [exec_postAll_work _ s.co.nodup_ids, Sys.onPeers_onPeers]
    rfl
  simp only [updateDB, Prog.exec_bind, Prog.exec_read, Prog.exec_write,
    Option.bind_some]
  change ∃ reply s',
    ((postAll .work (voteReq s.co.txid) s.co.ids).exec prepared).bind _ =
      some (reply, s') ∧ _
  rw [voting, Option.bind_some, exec_collectVotes, Option.bind_some]
  by_cases vote : ∃ id ∈ s.co.ids,
      (workPeer (voteReq s.co.txid) (s.peer id)).1.voted = true
  · have counted : (s.co.ids.any fun id => (polled.co.entry id).voted) =
        true := by
      obtain ⟨id, member, voted⟩ := vote
      exact List.any_eq_true.mpr
        ⟨id, member, by rw [peerPolled id member, voted]⟩
    simp only [counted, Bool.or_true, if_true, Prog.exec_bind, committing,
      Option.bind_some, exec_collectCommits]
    rcases foldl_tally done.co.entry s.co.ids (false, getErrorMessage) with
      ⟨nothing, silent⟩ | ⟨id, member, acknowledged, answer⟩
    · rw [nothing]
      refine ⟨_, done, rfl, .unanswered vote ?_⟩
      intro id member
      rw [← peerDone id member]
      exact silent id member
    · rw [answer]
      have changed : done.co.lg.chageLogState done.co.txid .commit =
          some (s.co.lg.writeLog ⟨s.co.txid, .commit, resp⟩) :=
        Logger.chageLogState_writeLog s.co.lg ⟨s.co.txid, .pre, resp⟩ .commit
      simp only [if_true, Prog.exec_bind, Prog.exec_read, Option.bind_some,
        changed, Prog.exec_write, Prog.exec_pure]
      rw [peerDone id member] at acknowledged ⊢
      exact ⟨_, _, rfl, .committed vote member acknowledged⟩
  · have silent : ∀ id ∈ s.co.ids,
        (workPeer (voteReq s.co.txid) (s.peer id)).1.voted = false := by
      intro id member
      by_contra voted
      exact vote ⟨id, member, by simpa using voted⟩
    have counted : (s.co.ids.any fun id => (polled.co.entry id).voted) =
        false := by
      rw [List.any_eq_false]
      intro id member
      rw [peerPolled id member, silent id member]
      exact Bool.false_ne_true
    simp only [counted, Bool.or_false, Bool.false_eq_true, if_false,
      Prog.exec_pure]
    exact ⟨_, polled, rfl, .refused silent⟩

/-- The answer of a participant to a read counts. -/
def Entry.answered (entry : Entry) : Bool :=
  entry.pworkingRet = kvOk && entry.pworkingDataRet ≠ []

/-- `Request` asks the participants one after the other until one answers. -/
theorem exec_requestFrom
    (resp : Bytes)
    {ids : List Nat}
    (nodup : ids.Nodup)
    (s : Sys) :
    ∃ asked rest reply,
      ids = asked ++ rest ∧
      (requestFrom resp ids).exec s =
        some (reply, s.onPeers asked (workPeer (getReq resp))) ∧
      ((rest = [] ∧ reply = getErrorMessage ∧ ∀ id ∈ asked,
          (workPeer (getReq resp) (s.peer id)).1.answered = false) ∨
        ∃ before id, asked = before ++ [id] ∧
          (∀ other ∈ before,
            (workPeer (getReq resp) (s.peer other)).1.answered = false) ∧
          (workPeer (getReq resp) (s.peer id)).1.answered = true ∧
          reply = (workPeer (getReq resp) (s.peer id)).1.pworkingDataRet) := by
  induction ids generalizing s with
  | nil => exact ⟨[], [], getErrorMessage, rfl, by simp [requestFrom],
      Or.inl ⟨rfl, rfl, by simp⟩⟩
  | cons id ids inductionHypothesis =>
      obtain ⟨fresh, nodupRest⟩ := List.nodup_cons.mp nodup
      let peer := workPeer (getReq resp) (s.peer id)
      have entry : (s.setPeer id peer).co.entry id = peer.1 := by
        simp [Sys.setPeer, Coordinator.setEntry]
      have start : (requestFrom resp (id :: ids)).exec s =
          (if peer.1.answered then pure peer.1.pworkingDataRet
            else requestFrom resp ids : Prog Bytes).exec
            (s.setPeer id peer) := by
        rw [requestFrom, Prog.exec_bind, exec_post_work, Option.bind_some,
          Prog.exec_bind, exec_collect, Option.bind_some]
        simp only [result, Entry.answered, Bool.and_eq_true,
          decide_eq_true_eq, ← entry]
        rfl
      rw [start]
      by_cases answered : peer.1.answered = true
      · rw [if_pos answered]
        refine ⟨[id], ids, peer.1.pworkingDataRet, rfl, ?_, Or.inr
          ⟨[], id, rfl, by simp, answered, rfl⟩⟩
        rw [Prog.exec_pure, ← Sys.onPeers_cons s (List.not_mem_nil)]
        rw [Sys.onPeers_nil]
      · rw [if_neg answered]
        have silent : peer.1.answered = false := by simpa using answered
        obtain ⟨asked, rest, reply, split, executed, outcome⟩ :=
          inductionHypothesis nodupRest (s.setPeer id peer)
        have freshAsked : id ∉ asked := fun member =>
          fresh (by rw [split]; exact List.mem_append_left rest member)
        have same : ∀ other, other ∈ asked →
            (s.setPeer id peer).peer other = s.peer other := by
          intro other member
          have different : other ≠ id := fun equal =>
            freshAsked (equal ▸ member)
          rw [Sys.setPeer_eq, Sys.peer_withPeers,
            Function.update_of_ne different]
        refine ⟨id :: asked, rest, reply, by rw [split]; rfl, ?_, ?_⟩
        · rw [executed, Sys.onPeers_cons s freshAsked]
        · rcases outcome with ⟨all, error, silentRest⟩ |
            ⟨before, last, isLast, silentBefore, answer, isReply⟩
          · refine Or.inl ⟨all, error, ?_⟩
            intro other member
            rcases List.mem_cons.mp member with rfl | member
            · exact silent
            · rw [← same other member]
              exact silentRest other member
          · have lastSame := same last (by rw [isLast]; simp)
            rw [lastSame] at answer isReply
            refine Or.inr ⟨id :: before, last, by rw [isLast]; rfl, ?_,
              answer, isReply⟩
            intro other member
            rcases List.mem_cons.mp member with rfl | member
            · exact silent
            · rw [← same other (by rw [isLast]; simp [member])]
              exact silentBefore other member

end Lab3
end CloudComputing
