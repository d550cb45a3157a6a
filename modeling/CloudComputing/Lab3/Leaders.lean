import CloudComputing.Lab3.Discipline
import CloudComputing.Lab3.Recovery

/-!
# The leaders of a recovery

`recoveryFromP` has an endless loop with a `goto` to its head, around a loop
over 64-bit numbers.  Here both loops are relations without a bound on their
rounds (`Fetches`, `RecoversFromP`), over any coordinator, any table and any
fates of the exchanges.

A leader leaves the table when it is chosen, and while it is not in recovery
nothing puts it back (`Sys.Candidate`), so no participant leads twice.  The
inner loop ends even for the largest 64-bit number: a participant has no
record below its first number, so the fetch after the wrap fails.
-/

namespace CloudComputing
namespace Lab3

open Decimal CloudComputing.Lab3.Parser Network

/-! ## Participants have no early records -/

namespace Participant

/-- A participant logs from `TXID_START` on. -/
structure Begun (p : Participant) : Prop where
  start : txidStart ≤ p.txid
  early : ∀ id, id < txidStart → p.lg id = none

theorem Begun.init : Participant.init.Begun where
  start := le_rfl
  early := fun _ _ => rfl

/-- A message appends under the participant's own number, if at all. -/
theorem Begun.pWorker
    {p p' : Participant}
    (begun : p.Begun)
    {task reply : Bytes}
    (replied : p.pWorker task = some (reply, p')) :
    p'.Begun := by
  rw [Participant.pWorker, Option.bind_eq_bind,
    Option.bind_eq_some_iff] at replied
  obtain ⟨l, _, replied⟩ := replied
  have start := begun.start
  split at replied
  · -- a command outside the numbering
    rw [Option.bind_eq_bind, Option.bind_eq_some_iff] at replied
    obtain ⟨done, _, replied⟩ := replied
    rw [← (Prod.mk.inj (Option.some.inj replied)).2]
    exact ⟨start, begun.early⟩
  split at replied
  · rw [← (Prod.mk.inj (Option.some.inj replied)).2]
    exact begun
  split at replied
  · dsimp only at replied
    split at replied
    · rw [← (Prod.mk.inj (Option.some.inj replied)).2]
      exact begun
    · rw [Option.bind_eq_some_iff] at replied
      obtain ⟨entry, _, replied⟩ := replied
      rw [← (Prod.mk.inj (Option.some.inj replied)).2]
      exact begun
  split at replied
  · rw [← (Prod.mk.inj (Option.some.inj replied)).2]
    exact begun
  split at replied
  · rename_i own
    rw [Option.bind_eq_bind, Option.bind_eq_some_iff] at replied
    obtain ⟨⟨rc, kvdb⟩, _, replied⟩ := replied
    dsimp only at replied
    split at replied
    · rw [← (Prod.mk.inj (Option.some.inj replied)).2]
      refine ⟨show txidStart ≤ p.txid + 1 by omega, fun id before => ?_⟩
      change p.lg.writeLog l id = none
      rw [Logger.writeLog_of_ne _ _ (by omega)]
      exact begun.early id before
    · rw [← (Prod.mk.inj (Option.some.inj replied)).2]
      exact ⟨start, begun.early⟩
  · rw [← (Prod.mk.inj (Option.some.inj replied)).2]
    exact begun

/-- A participant whose log is gap-free from `TXID_START` on. -/
theorem Begun.of_replica
    {admissible : Nat → Log → Prop}
    {p : Participant}
    (replica : Replica admissible p) :
    p.Begun where
  start := replica.start
  early := by
    intro id before
    cases stored : p.lg id with
    | none => rfl
    | some record =>
        have := (replica.within id record stored).1
        omega

/-- The request for record `0` fails an assertion of the participant. -/
theorem Begun.pWorker_ask_zero
    {p : Participant}
    (begun : p.Begun) :
    p.pWorker (askReq 0) = none := by
  have start := begun.start
  have number : Log.readTxid 0 = 0 := Log.readTxid_of_lt (by decide)
  simp only [txidStart] at start
  rw [askReq, pWorker_askData, number, if_neg (by omega),
    begun.early 0 (by decide), Option.map_none]

end Participant

namespace Node

/-- What holds of a new process and is kept by every message is kept by an
exchange. -/
theorem sendAndRecv_keeps
    {holds : Participant → Prop}
    (fresh : holds .init)
    (keeps : ∀ p task reply p', holds p →
      p.pWorker task = some (reply, p') → holds p')
    {node : Node}
    (before : holds node.proc)
    (smsg : Bytes) :
    holds (node.sendAndRecv smsg).2.2.proc := by
  have handled : ∀ {reads : List Nat} {reply : Bytes} {next : Participant},
      handle node.proc reads smsg = .replied reply next → holds next := by
    intro reads reply next replied
    unfold handle at replied
    split at replied
    · cases replied
    · split at replied
      · cases replied
      · rename_i worked
        cases replied
        exact keeps _ _ _ _ before worked
  unfold sendAndRecv
  dsimp only
  split
  · exact before
  · exact before
  · split
    · exact before
    · exact before
    · unfold runUnanswered
      split
      · exact before
      · exact fresh
      · exact handled ‹_›
    · exact fresh
  · split
    · exact before
    · exact fresh
    · split
      · exact handled ‹_›
      · exact handled ‹_›

theorem begun_sendAndRecv
    {node : Node}
    (begun : node.proc.Begun)
    (smsg : Bytes) :
    (node.sendAndRecv smsg).2.2.proc.Begun :=
  sendAndRecv_keeps .init
    (fun _ _ _ _ before replied => before.pWorker replied) begun smsg

/-- A request that fails an assertion of the participant is not answered. -/
theorem sendAndRecv_of_aborts
    {node : Node}
    {smsg : Bytes}
    (sendable : Sendable smsg)
    (aborts : node.proc.pWorker smsg = none) :
    (node.sendAndRecv smsg).1 ≠ kvOk := by
  have aborted : ∀ reads, handle node.proc reads smsg = .aborted := by
    intro reads
    obtain ⟨rest, received⟩ := recv_wire_of_sendable reads sendable
    simp only [handle, received, aborts]
  unfold sendAndRecv
  dsimp only
  split
  · exact show kvNetwork ≠ kvOk by decide
  · exact NetError.code_ne_kvOk _
  · exact NetError.code_ne_kvOk _
  · simp only [aborted]
    exact show kvNetworkClose ≠ kvOk by decide

end Node

/-! ## One record is fetched -/

/-- The body of the fetch loop of `recoveryFromP`; `false` at its `goto`. -/
def fetchOne (leader : Nat) (ids : List Nat) (minID : Nat) : Prog Bool := do
  -- send the ask task
  post (.work leader) (askReq minID)
  -- get the log
  let (ret, data) ← collect (.work leader)
  if ret = kvOk ∧ data ≠ [] then
    -- for c's log
    match Log.strToLog data with
    | none => Prog.fail
    | some tempLog =>
        Prog.write (adopt tempLog)
        pushAll data ids
        return true
  else return false

/-- A participant that may lead: it is in the table, or in recovery, where
`pRecovery` may enter it. -/
def Entry.Candidate (entry : Entry) : Prop :=
  entry.pstate = .recovery ∨ entry.maxTxid.isSome = true

theorem candidate_of_workPeer
    {task : Bytes}
    {peer : Entry × Node}
    (candidate : (workPeer task peer).1.Candidate) :
    peer.1.Candidate := by
  unfold workPeer pWorking at candidate
  dsimp only at candidate
  split at candidate
  · exact candidate
  · rename_i working
    split at candidate
    · exact Or.inr (candidate.resolve_left (by simp))
    · exact candidate

theorem candidate_of_recovPeer
    {l : Log}
    {task : Bytes}
    {peer : Entry × Node}
    (candidate : (recovPeer l task peer).1.Candidate) :
    peer.1.Candidate := by
  by_cases recovering : peer.1.pstate = .recovery
  · exact Or.inl recovering
  · rw [recovPeer_of_not_recovery l task recovering] at candidate
    exact candidate

theorem begun_workPeer
    (task : Bytes)
    {peer : Entry × Node}
    (begun : peer.2.proc.Begun) :
    (workPeer task peer).2.proc.Begun := by
  unfold workPeer pWorking
  dsimp only
  split
  · exact begun
  · exact Node.begun_sendAndRecv begun _

theorem begun_recovPeer
    (l : Log)
    (task : Bytes)
    {peer : Entry × Node}
    (begun : peer.2.proc.Begun) :
    (recovPeer l task peer).2.proc.Begun := by
  have sent : ∀ entry, (pRecoverySend entry peer.2).2.proc.Begun := by
    intro entry
    have kept := Node.begun_sendAndRecv begun entry.pRtask
    unfold pRecoverySend
    dsimp only
    split
    · exact kept
    · split
      · exact kept
      · exact kept
  unfold recovPeer
  dsimp only
  split
  · exact begun
  · split
    · split
      · exact begun
      · exact sent _
    · exact sent _

/-- A later state of the same recovery: no participant has become a candidate,
and the participants still have no early records. -/
structure Narrowed (s s' : Sys) : Prop where
  ids : s'.co.ids = s.co.ids
  candidates : ∀ id, (s'.co.entry id).Candidate → (s.co.entry id).Candidate
  begun : (∀ id, (s.node id).proc.Begun) → ∀ id, (s'.node id).proc.Begun

namespace Narrowed

theorem refl (s : Sys) : Narrowed s s :=
  ⟨rfl, fun _ candidate => candidate, fun begun => begun⟩

theorem trans
    {s s' s'' : Sys}
    (first : Narrowed s s')
    (second : Narrowed s' s'') :
    Narrowed s s'' where
  ids := second.ids.trans first.ids
  candidates := fun id candidate =>
    first.candidates id (second.candidates id candidate)
  begun := fun begun => second.begun (first.begun begun)

/-- A function that makes no candidates is applied to some participants. -/
theorem onPeers
    (s : Sys)
    (ids : List Nat)
    {change : Entry × Node → Entry × Node}
    (candidates : ∀ peer : Entry × Node,
      (change peer).1.Candidate → peer.1.Candidate)
    (begun : ∀ peer : Entry × Node,
      peer.2.proc.Begun → (change peer).2.proc.Begun) :
    Narrowed s (s.onPeers ids change) where
  ids := rfl
  candidates := by
    intro id candidate
    change ((s.onPeers ids change).peer id).1.Candidate at candidate
    rw [Sys.peer_onPeers] at candidate
    split at candidate
    · exact candidates (s.peer id) candidate
    · exact candidate
  begun := by
    intro before id
    change ((s.onPeers ids change).peer id).2.proc.Begun
    rw [Sys.peer_onPeers]
    split
    · exact begun (s.peer id) (before id)
    · exact before id

/-- The coordinator takes over a record. -/
theorem adopt (record : Log) (s : Sys) :
    Narrowed s { s with co := Lab3.adopt record s.co } := by
  unfold Lab3.adopt
  split
  · exact ⟨rfl, fun _ candidate => candidate, fun begun => begun⟩
  · exact .refl s

end Narrowed

theorem setPeer_onPeers
    (s : Sys)
    (id : Nat)
    (change : Entry × Node → Entry × Node) :
    s.setPeer id (change (s.peer id)) = s.onPeers [id] change := by
  rw [← Sys.onPeers_cons s (List.not_mem_nil (a := id)), Sys.onPeers_nil]

/-- The leader answers, and its record is given to everybody; or it does not
answer. -/
theorem exec_fetchOne (leader minID : Nat) (s : Sys) :
    (fetchOne leader s.co.ids minID).exec s =
      let asked := s.onPeers [leader] (workPeer (askReq minID))
      if (asked.co.entry leader).pworkingRet = kvOk ∧
          (asked.co.entry leader).pworkingDataRet ≠ [] then
        (Log.strToLog (asked.co.entry leader).pworkingDataRet).map fun l =>
          (true,
            ({ asked with co := adopt l asked.co } : Sys).onPeers s.co.ids
              (recovPeer l (asked.co.entry leader).pworkingDataRet))
      else some (false, asked) := by
  rw [fetchOne, Prog.exec_bind, exec_post_work, Option.bind_some,
    Prog.exec_bind, exec_collect, Option.bind_some, setPeer_onPeers]
  generalize s.onPeers [leader] (workPeer (askReq minID)) = asked
  change (if (asked.co.entry leader).pworkingRet = kvOk ∧
      (asked.co.entry leader).pworkingDataRet ≠ [] then _ else _ :
        Prog Bool).exec asked = if _ then _ else _
  by_cases answered : (asked.co.entry leader).pworkingRet = kvOk ∧
      (asked.co.entry leader).pworkingDataRet ≠ []
  · rw [if_pos answered, if_pos answered]
    cases decoded : Log.strToLog (asked.co.entry leader).pworkingDataRet with
    | none => rfl
    | some l =>
        simp only [Option.map_some]
        rw [Prog.exec_bind, Prog.exec_write, Option.bind_some, Prog.exec_bind,
          exec_pushAll decoded s.co.nodup_ids, Option.bind_some,
          Prog.exec_pure]
  · rw [if_neg answered, if_neg answered, Prog.exec_pure]

theorem Narrowed.fetchOne
    {leader minID : Nat}
    {s s' : Sys}
    {fetched : Bool}
    (executed :
      (fetchOne leader s.co.ids minID).exec s = some (fetched, s')) :
    Narrowed s s' := by
  have asked : Narrowed s (s.onPeers [leader] (workPeer (askReq minID))) :=
    .onPeers s [leader] (fun _ => candidate_of_workPeer)
      (fun _ => begun_workPeer _)
  rw [exec_fetchOne] at executed
  dsimp only at executed
  split at executed
  · obtain ⟨l, _, done⟩ := Option.map_eq_some_iff.mp executed
    rw [← (Prod.mk.inj done).2]
    refine (asked.trans (.adopt l _)).trans ?_
    exact .onPeers _ _ (fun _ => candidate_of_recovPeer)
      (fun _ => begun_recovPeer _ _)
  · rw [← (Prod.mk.inj (Option.some.inj executed)).2]
    exact asked

/-- No participant answers for record `0`. -/
theorem fetchOne_zero
    (leader : Nat)
    {s : Sys}
    (begun : ∀ id, (s.node id).proc.Begun) :
    ∃ s', (Lab3.fetchOne leader s.co.ids 0).exec s = some (false, s') := by
  refine ⟨s.onPeers [leader] (workPeer (askReq 0)), ?_⟩
  rw [exec_fetchOne]
  have refused : ((s.onPeers [leader] (workPeer (askReq 0))).co.entry
      leader).pworkingRet ≠ kvOk := by
    rw [Sys.entry_onPeers s _ (List.mem_singleton_self leader)]
    unfold workPeer pWorking
    dsimp only
    split
    · exact show retSkip ≠ kvOk by decide
    · have aborted := Node.sendAndRecv_of_aborts (by decide)
        (begun leader).pWorker_ask_zero
      split
      · exact aborted
      · exact aborted
  exact if_neg fun answered => refused answered.1

/-! ## The loops without bounds -/

/-- `minID++` for a `txid`, a 64-bit number. -/
def nextTxid (minID : Nat) : Nat := (minID + 1) % 2 ^ 64

/-- The fetch loop of `recoveryFromP` runs from `minID` and `s` to its end: to
`minID` and the state after it, or to a failed assertion. -/
inductive Fetches (leader : Nat) (ids : List Nat) (maxID : Nat) :
    Nat → Sys → Option (Nat × Sys) → Prop
  | past
      {minID : Nat}
      {s : Sys}
      (above : maxID < minID) :
      Fetches leader ids maxID minID s (some (minID, s))
  | aborted
      {minID : Nat}
      {s : Sys}
      (within : minID ≤ maxID)
      (failed : (fetchOne leader ids minID).exec s = none) :
      Fetches leader ids maxID minID s none
  /-- The `goto next`. -/
  | lost
      {minID : Nat}
      {s s' : Sys}
      (within : minID ≤ maxID)
      (refused : (fetchOne leader ids minID).exec s = some (false, s')) :
      Fetches leader ids maxID minID s (some (minID, s'))
  | again
      {minID : Nat}
      {s s' : Sys}
      {result : Option (Nat × Sys)}
      (within : minID ≤ maxID)
      (fetched : (fetchOne leader ids minID).exec s = some (true, s'))
      (rest : Fetches leader ids maxID (nextTxid minID) s' result) :
      Fetches leader ids maxID minID s result

/-- A chosen leader is put into the working state and leaves the table. -/
def Sys.promote (s : Sys) (leader : Nat) : Sys :=
  { s with
    co := s.co.setEntry leader
      { s.co.entry leader with pstate := .working, maxTxid := none } }

/-- The `while` loop of `recoveryFromP` runs from `minID` and `s` to its end:
with the leaders it chooses, each with its `maxID`, to the state after it or to
a failed assertion. -/
inductive RecoversFromP (ids : List Nat) :
    Nat → Sys → List (Nat × Nat) → Option Sys → Prop
  | done
      {minID maxID : Nat}
      {s : Sys}
      (last : s.co.getRecoveryLeader = (maxID, 0)) :
      RecoversFromP ids minID s [] ((recoveryFromC.exec s).map Prod.snd)
  | aborted
      {minID maxID leader : Nat}
      {s : Sys}
      (chosen : s.co.getRecoveryLeader = (maxID, leader))
      (isLeader : leader ≠ 0)
      (failed : Fetches leader ids maxID minID (s.promote leader) none) :
      RecoversFromP ids minID s [(leader, maxID)] none
  | again
      {minID maxID leader minID' : Nat}
      {s s' : Sys}
      {rounds : List (Nat × Nat)}
      {result : Option Sys}
      (chosen : s.co.getRecoveryLeader = (maxID, leader))
      (isLeader : leader ≠ 0)
      (fetched : Fetches leader ids maxID minID (s.promote leader)
        (some (minID', s')))
      (rest : RecoversFromP ids minID' s' rounds result) :
      RecoversFromP ids minID s ((leader, maxID) :: rounds) result

/-! ## The fetch loop ends -/

section Fetch

variable {leader maxID : Nat}

theorem Narrowed.fetches
    {ids : List Nat}
    {minID minID' : Nat}
    {s s' : Sys}
    (isIds : ids = s.co.ids)
    (fetched : Fetches leader ids maxID minID s (some (minID', s'))) :
    Narrowed s s' := by
  generalize ending : some (minID', s') = result at fetched
  induction fetched with
  | past above =>
      rw [(Prod.mk.inj (Option.some.inj ending)).2]
      exact .refl _
  | aborted within failed => cases ending
  | lost within refused =>
      rw [(Prod.mk.inj (Option.some.inj ending)).2]
      exact .fetchOne (isIds ▸ refused)
  | again within fetched rest inductionHypothesis =>
      have step : Narrowed _ _ := .fetchOne (isIds ▸ fetched)
      exact step.trans (inductionHypothesis (isIds.trans step.ids.symm) ending)

/-- One pass of the loop, when the loop ends from wherever it leads. -/
theorem fetches_step
    {minID : Nat}
    {s : Sys}
    (rest : ∀ s', Narrowed s s' →
      ∃ result, Fetches leader s'.co.ids maxID (nextTxid minID) s' result) :
    ∃ result, Fetches leader s.co.ids maxID minID s result := by
  by_cases within : minID ≤ maxID
  · cases executed : (fetchOne leader s.co.ids minID).exec s with
    | none => exact ⟨none, .aborted within executed⟩
    | some done =>
        obtain ⟨fetched, s'⟩ := done
        cases fetched with
        | false => exact ⟨some (minID, s'), .lost within executed⟩
        | true =>
            have step : Narrowed s s' := .fetchOne executed
            obtain ⟨result, ends⟩ := rest s' step
            exact ⟨result, .again within executed (step.ids ▸ ends)⟩
  · exact ⟨some (minID, s), .past (by omega)⟩

/-- From `0` the loop ends with its first fetch. -/
theorem fetches_zero
    {s : Sys}
    (begun : ∀ id, (s.node id).proc.Begun) :
    ∃ result, Fetches leader s.co.ids maxID 0 s result := by
  obtain ⟨s', refused⟩ := fetchOne_zero leader begun
  exact ⟨some (0, s'), .lost (Nat.zero_le maxID) refused⟩

/-- The loop ends, at the latest with the first fetch after a wrap. -/
theorem fetches_of_lt
    {count minID : Nat}
    {s : Sys}
    (begun : ∀ id, (s.node id).proc.Begun)
    (inRange : minID + count + 1 = 2 ^ 64) :
    ∃ result, Fetches leader s.co.ids maxID minID s result := by
  induction count generalizing minID s with
  | zero =>
      have wraps : nextTxid minID = 0 := by
        rw [nextTxid, show minID + 1 = 2 ^ 64 by omega, Nat.mod_self]
      apply fetches_step
      intro s' narrowed
      rw [wraps]
      exact fetches_zero (narrowed.begun begun)
  | succ count inductionHypothesis =>
      have next : nextTxid minID = minID + 1 :=
        Nat.mod_eq_of_lt (by omega)
      apply fetches_step
      intro s' narrowed
      rw [next]
      exact inductionHypothesis (narrowed.begun begun) (by omega)

theorem fetches_ends
    (leader maxID minID : Nat)
    {s : Sys}
    (begun : ∀ id, (s.node id).proc.Begun) :
    ∃ result, Fetches leader s.co.ids maxID minID s result := by
  apply fetches_step
  intro s' narrowed
  have inRange : nextTxid minID < 2 ^ 64 := Nat.mod_lt _ (by decide)
  have count : nextTxid minID + (2 ^ 64 - 1 - nextTxid minID) + 1 = 2 ^ 64 := by
    omega
  exact fetches_of_lt (narrowed.begun begun) count

/-- The loop has one result. -/
theorem Fetches.unique
    {ids : List Nat}
    {minID : Nat}
    {s : Sys}
    {result result' : Option (Nat × Sys)}
    (first : Fetches leader ids maxID minID s result)
    (second : Fetches leader ids maxID minID s result') :
    result' = result := by
  induction first with
  | past above =>
      cases second with
      | past => rfl
      | aborted within => omega
      | lost within => omega
      | again within => omega
  | aborted within failed =>
      cases second with
      | past above => omega
      | aborted => rfl
      | lost _ refused => rw [failed] at refused; cases refused
      | again _ fetched => rw [failed] at fetched; cases fetched
  | lost within refused =>
      cases second with
      | past above => omega
      | aborted _ failed => rw [refused] at failed; cases failed
      | lost _ refused' => rw [refused] at refused'; cases refused'; rfl
      | again _ fetched => rw [refused] at fetched; cases fetched
  | again within fetched rest inductionHypothesis =>
      cases second with
      | past above => omega
      | aborted _ failed => rw [fetched] at failed; cases failed
      | lost _ refused => rw [fetched] at refused; cases refused
      | again _ fetched' rest' =>
          rw [fetched] at fetched'
          cases fetched'
          exact inductionHypothesis rest'

end Fetch

/-! ## The loop over leaders ends -/

instance (entry : Entry) : Decidable entry.Candidate :=
  inferInstanceAs
    (Decidable (entry.pstate = .recovery ∨ entry.maxTxid.isSome = true))

/-- The participants that may still be chosen. -/
def Sys.candidates (s : Sys) : Finset Nat :=
  s.co.ids.toFinset.filter fun id => (s.co.entry id).Candidate

theorem Sys.mem_candidates {s : Sys} {id : Nat} :
    id ∈ s.candidates ↔ id ∈ s.co.ids ∧ (s.co.entry id).Candidate := by
  simp only [Sys.candidates, Finset.mem_filter, List.mem_toFinset]

theorem Narrowed.subset
    {s s' : Sys}
    (narrowed : Narrowed s s') :
    s'.candidates ⊆ s.candidates := by
  intro id
  simp only [Sys.mem_candidates, narrowed.ids]
  exact fun ⟨member, candidate⟩ => ⟨member, narrowed.candidates id candidate⟩

theorem Sys.promote_entry (s : Sys) (leader id : Nat) :
    (s.promote leader).co.entry id =
      if id = leader then
        { s.co.entry leader with pstate := .working, maxTxid := none }
      else s.co.entry id :=
  Coordinator.setEntry_entry s.co leader id _

theorem Sys.not_candidate_promote (s : Sys) (leader : Nat) :
    ¬ ((s.promote leader).co.entry leader).Candidate := by
  rw [Sys.promote_entry, if_pos rfl]
  simp [Entry.Candidate]

theorem Narrowed.promote (s : Sys) (leader : Nat) :
    Narrowed s (s.promote leader) where
  ids := rfl
  candidates := by
    intro id candidate
    by_cases isLeader : id = leader
    · rw [isLeader] at candidate
      exact absurd candidate (s.not_candidate_promote leader)
    · rwa [Sys.promote_entry, if_neg isLeader] at candidate
  begun := fun begun => begun

/-- The chosen leader was a candidate, and a round leaves it none. -/
theorem candidate_of_chosen
    {s : Sys}
    {maxID leader : Nat}
    (chosen : s.co.getRecoveryLeader = (maxID, leader))
    (isLeader : leader ≠ 0) :
    leader ∈ s.candidates := by
  obtain ⟨max, holder, found, _, choice⟩ := getRecoveryLeader_spec s.co
  rw [chosen, Prod.mk.injEq] at found
  obtain ⟨rfl, rfl⟩ := found
  rcases choice with ⟨none, _⟩ | ⟨_, member, number, _⟩
  · exact absurd none isLeader
  · exact Sys.mem_candidates.mpr ⟨member, Or.inr (by rw [number]; rfl)⟩

/-- From every state the loop ends, and its leaders are different candidates. -/
theorem recoversFromP_ends
    (minID : Nat)
    (s : Sys)
    (begun : ∀ id, (s.node id).proc.Begun) :
    ∃ rounds result,
      RecoversFromP s.co.ids minID s rounds result ∧
      (rounds.map Prod.fst).Nodup ∧
      ∀ round ∈ rounds, round.1 ∈ s.candidates := by
  induction count : s.candidates.card using Nat.strong_induction_on
    generalizing minID s with
  | _ size inductionHypothesis =>
      obtain ⟨maxID, leader, chosen, _⟩ := getRecoveryLeader_spec s.co
      by_cases isLeader : leader = 0
      · subst isLeader
        exact ⟨[], _, .done chosen, List.nodup_nil, by simp⟩
      · have candidate := candidate_of_chosen chosen isLeader
        obtain ⟨fetched, ends⟩ :=
          fetches_ends leader maxID minID (s := s.promote leader) begun
        cases fetched with
        | none =>
            refine ⟨[(leader, maxID)], none, .aborted chosen isLeader ends,
              by simp, ?_⟩
            intro round member
            rw [List.mem_singleton.mp member]
            exact candidate
        | some next =>
            obtain ⟨minID', s'⟩ := next
            have fetch : Narrowed (s.promote leader) s' := .fetches rfl ends
            have narrowed : Narrowed s s' :=
              (Narrowed.promote s leader).trans fetch
            have gone : leader ∉ s'.candidates := by
              intro again
              exact s.not_candidate_promote leader
                (fetch.candidates leader (Sys.mem_candidates.mp again).2)
            have smaller : s'.candidates.card < size := by
              rw [← count]
              exact Finset.card_lt_card ⟨narrowed.subset,
                fun all => gone (all candidate)⟩
            obtain ⟨rounds, result, rest, nodup, members⟩ :=
              inductionHypothesis _ smaller minID' s'
                (narrowed.begun begun) rfl
            refine ⟨(leader, maxID) :: rounds, result,
              .again chosen isLeader ends (narrowed.ids ▸ rest), ?_, ?_⟩
            · rw [List.map_cons, List.nodup_cons]
              refine ⟨fun member => ?_, nodup⟩
              obtain ⟨round, inside, isLeader'⟩ := List.mem_map.mp member
              have again : round.1 ∈ s'.candidates := members round inside
              rw [show round.1 = leader from isLeader'] at again
              exact gone again
            · intro round member
              rcases List.mem_cons.mp member with rfl | member
              · exact candidate
              · exact narrowed.subset (members round member)

/-- The loop has one run. -/
theorem RecoversFromP.unique
    {ids : List Nat}
    {minID : Nat}
    {s : Sys}
    {rounds rounds' : List (Nat × Nat)}
    {result result' : Option Sys}
    (first : RecoversFromP ids minID s rounds result)
    (second : RecoversFromP ids minID s rounds' result') :
    rounds' = rounds ∧ result' = result := by
  induction first generalizing rounds' with
  | done last =>
      cases second with
      | done => exact ⟨rfl, rfl⟩
      | aborted chosen isLeader =>
          rw [last] at chosen
          exact absurd (Prod.mk.inj chosen).2.symm isLeader
      | again chosen isLeader =>
          rw [last] at chosen
          exact absurd (Prod.mk.inj chosen).2.symm isLeader
  | aborted chosen isLeader failed =>
      cases second with
      | done last =>
          rw [last] at chosen
          exact absurd (Prod.mk.inj chosen).2.symm isLeader
      | aborted chosen' =>
          rw [chosen] at chosen'
          cases chosen'
          exact ⟨rfl, rfl⟩
      | again chosen' _ fetched =>
          rw [chosen] at chosen'
          cases chosen'
          cases failed.unique fetched
  | again chosen isLeader fetched rest inductionHypothesis =>
      cases second with
      | done last =>
          rw [last] at chosen
          exact absurd (Prod.mk.inj chosen).2.symm isLeader
      | aborted chosen' _ failed =>
          rw [chosen] at chosen'
          cases chosen'
          cases fetched.unique failed
      | again chosen' _ fetched' rest' =>
          rw [chosen] at chosen'
          cases chosen'
          cases fetched.unique fetched'
          obtain ⟨sameRounds, sameResult⟩ := inductionHypothesis rest'
          exact ⟨by rw [sameRounds], sameResult⟩

/-! ## The bounded loops of the executable program -/

theorem exec_fetchLoop_succ
    (leader : Nat)
    (ids : List Nat)
    (count minID : Nat)
    (s : Sys) :
    (fetchLoop leader ids (count + 1) minID).exec s =
      ((fetchOne leader ids minID).exec s).bind fun done =>
        if done.1 then (fetchLoop leader ids count (minID + 1)).exec done.2
        else some (minID, done.2) := by
  rw [fetchLoop, fetchOne, Prog.exec_bind, Prog.exec_bind, exec_post_work,
    Option.bind_some, Option.bind_some, Prog.exec_bind, Prog.exec_bind,
    exec_collect, Option.bind_some, Option.bind_some]
  generalize s.setPeer leader (workPeer (askReq minID) (s.peer leader)) = asked
  dsimp only
  by_cases answered : (result (.work leader) asked.co).1 = kvOk ∧
      (result (.work leader) asked.co).2 ≠ []
  · rw [if_pos answered, if_pos answered]
    cases Log.strToLog (result (.work leader) asked.co).2 with
    | none => rfl
    | some l =>
        dsimp only
        rw [Prog.exec_bind, Prog.exec_bind, Prog.exec_write, Prog.exec_write,
          Option.bind_some, Option.bind_some, Prog.exec_bind, Prog.exec_bind,
          Option.bind_assoc]
        rfl
  · rw [if_neg answered, if_neg answered]
    rfl

/-- Without a wrap the fetch loop is the one of the program. -/
theorem Fetches.exec
    {leader maxID minID : Nat}
    {ids : List Nat}
    {s : Sys}
    {result : Option (Nat × Sys)}
    (fetches : Fetches leader ids maxID minID s result)
    (small : maxID + 1 < 2 ^ 64) :
    (fetchLoop leader ids (maxID + 1 - minID) minID).exec s = result := by
  have counted : ∀ {minID}, minID ≤ maxID →
      maxID + 1 - minID = maxID - minID + 1 := by
    intro minID within
    omega
  induction fetches with
  | past above =>
      rw [show maxID + 1 - _ = 0 from Nat.sub_eq_zero_of_le above]
      rfl
  | aborted within failed =>
      rw [counted within, exec_fetchLoop_succ, failed, Option.bind_none]
  | lost within refused =>
      rw [counted within, exec_fetchLoop_succ, refused]
      rfl
  | again within fetched rest inductionHypothesis =>
      rename_i minID s s' result
      have next : nextTxid minID = minID + 1 := Nat.mod_eq_of_lt (by omega)
      rw [next, Nat.add_sub_add_right] at inductionHypothesis
      rw [counted within, exec_fetchLoop_succ, fetched]
      exact inductionHypothesis

/-- With leaders' numbers that do not wrap, and enough rounds, the loop is the
one of the program. -/
theorem RecoversFromP.exec
    {minID : Nat}
    {ids : List Nat}
    {s : Sys}
    {rounds : List (Nat × Nat)}
    {result : Option Sys}
    (recovers : RecoversFromP ids minID s rounds result)
    (small : ∀ round ∈ rounds, round.2 + 1 < 2 ^ 64)
    {bound : Nat}
    (enough : rounds.length < bound) :
    (recoveryFromPLoop ids bound minID).exec s =
      result.map fun s' => ((), s') := by
  induction recovers generalizing bound with
  | done last =>
      obtain ⟨bound, rfl⟩ :=
        Nat.exists_eq_add_one_of_ne_zero (show bound ≠ 0 by omega)
      rw [recoveryFromPLoop, Prog.exec_bind, Prog.exec_read, Option.bind_some]
      simp only [last, if_true]
      rw [Option.map_map]
      exact Option.map_id'.symm
  | aborted chosen isLeader failed =>
      obtain ⟨bound, rfl⟩ :=
        Nat.exists_eq_add_one_of_ne_zero (show bound ≠ 0 by omega)
      have fetched := failed.exec (small _ (List.mem_singleton_self _))
      rw [recoveryFromPLoop, Prog.exec_bind, Prog.exec_read, Option.bind_some]
      simp only [chosen, if_neg isLeader]
      rw [Prog.exec_bind, Prog.exec_write, Option.bind_some, Prog.exec_bind]
      exact congrArg (Option.bind · _) fetched
  | again chosen isLeader fetched rest inductionHypothesis =>
      obtain ⟨bound, rfl⟩ :=
        Nat.exists_eq_add_one_of_ne_zero (show bound ≠ 0 by omega)
      have fetched' := fetched.exec (small _ List.mem_cons_self)
      have rest' := inductionHypothesis
        (fun round member => small round (List.mem_cons_of_mem _ member))
        (Nat.lt_of_succ_lt_succ enough)
      rw [recoveryFromPLoop, Prog.exec_bind, Prog.exec_read, Option.bind_some]
      simp only [chosen, if_neg isLeader]
      rw [Prog.exec_bind, Prog.exec_write, Option.bind_some, Prog.exec_bind,
        ← rest']
      exact congrArg (Option.bind · _) fetched'

/-- Rounds with different leaders are no more than the participants, so the
bound on the rounds of the program is never exceeded. -/
theorem exec_recoveryFromP
    {min : Nat}
    {s : Sys}
    (begun : ∀ id, (s.node id).proc.Begun)
    {rounds : List (Nat × Nat)}
    {result : Option Sys}
    (recovers : RecoversFromP s.co.ids min s rounds result)
    (small : ∀ round ∈ rounds, round.2 + 1 < 2 ^ 64) :
    (recoveryFromP min).exec s = result.map fun s' => ((), s') := by
  obtain ⟨rounds', result', ends, nodup, members⟩ :=
    recoversFromP_ends min s begun
  obtain ⟨rfl, rfl⟩ := ends.unique recovers
  have inside : rounds.map Prod.fst ⊆ s.co.ids := by
    intro leader member
    obtain ⟨round, isRound, rfl⟩ := List.mem_map.mp member
    exact (Sys.mem_candidates.mp (members round isRound)).1
  have few := (nodup.subperm inside).length_le
  have count : s.co.ids.length = s.co.pnum := List.length_range'
  rw [List.length_map] at few
  rw [recoveryFromP, Prog.exec_bind, Prog.exec_read, Option.bind_some]
  exact recovers.exec small (show rounds.length < s.co.pnum + 1 by omega)

/-- From every state of the coordinator, its table and its participants, and
whatever happens to the exchanges, `recoveryFromP` ends, in one way, and no
participant leads twice. -/
theorem recoveryFromP_ends
    (min : Nat)
    (s : Sys)
    (begun : ∀ id, (s.node id).proc.Begun) :
    ∃ rounds result,
      RecoversFromP s.co.ids min s rounds result ∧
      (rounds.map Prod.fst).Nodup ∧
      (∀ round ∈ rounds, round.1 ∈ s.co.ids) ∧
      ∀ rounds' result', RecoversFromP s.co.ids min s rounds' result' →
        rounds' = rounds ∧ result' = result := by
  obtain ⟨rounds, result, ends, nodup, members⟩ :=
    recoversFromP_ends min s begun
  refine ⟨rounds, result, ends, nodup, ?_, fun _ _ => ends.unique⟩
  intro round member
  exact (Sys.mem_candidates.mp (members round member)).1

/-- Two participants in recovery that report larger numbers than the
coordinator's; the second one, which leads first, has lost its connection. -/
def aheadOfCoordinator : Sys :=
  { co :=
      { Coordinator.init 2 with
        entry := fun id =>
          { Entry.init with pstate := .recovery, maxTxid := some (5 + id) } }
    node := fun id =>
      { proc := .init
        link := decide (id = 1)
        late := none
        restarted := false
        received := []
        fates := [] } }

theorem recoveryFromP_ends_ahead :
    (∀ id, (aheadOfCoordinator.node id).proc.Begun) ∧
      ∃ rounds result,
        RecoversFromP aheadOfCoordinator.co.ids txidStart aheadOfCoordinator
          rounds result ∧
        (rounds.map Prod.fst).Nodup ∧
        (∀ round ∈ rounds, round.1 ∈ aheadOfCoordinator.co.ids) ∧
        ∀ rounds' result',
          RecoversFromP aheadOfCoordinator.co.ids txidStart aheadOfCoordinator
            rounds' result' →
          rounds' = rounds ∧ result' = result :=
  ⟨fun _ => .init,
    recoveryFromP_ends txidStart aheadOfCoordinator fun _ => .init⟩

end Lab3
end CloudComputing
