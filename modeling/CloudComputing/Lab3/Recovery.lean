import CloudComputing.Lab3.Replaying

/-!
# The recovery of the coordinator

What `Recovery` does under the two mutexes, from any state in which the
coordinator's log is committed and the connected participants have admissible
logs.  The loops are `recoveryFromC`, which replays the coordinator's log, and
`recoveryFromP`, which chooses a leader, fetches its records and gives them to
the others, and chooses again when the leader fails.

At the end the coordinator's log has only grown by admissible records, and
every participant back in the working state has the coordinator's transaction
number.
-/

namespace CloudComputing
namespace Lab3

open CloudComputing.Lab3.Parser Network

/-- The coordinator's log below its own number: complete, with admissible
records only.  The entry at the own number may be a record of an update that
was not committed. -/
structure Committed
    (admissible : Nat → Log → Prop)
    (lg : Logger)
    (txid : Nat) : Prop where
  start : txidStart ≤ txid
  bound : txid ≤ 2 ^ 63
  covers : IndexedLog.Covers lg txidStart txid
  records : ∀ id record, lg id = some record → id < txid →
    LogRecord id record ∧ admissible id record
  above : ∀ id, txid < id → lg id = none

namespace Committed

variable
  {admissible : Nat → Log → Prop}
  {lg : Logger}
  {txid : Nat}

/-- The log of a new coordinator. -/
theorem init : Committed admissible .empty txidStart where
  start := le_rfl
  bound := by decide
  covers := by
    intro id lower upper
    omega
  records := by
    intro id record stored
    cases stored
  above := fun _ _ => rfl

/-- Writing at the own number changes nothing that is committed. -/
theorem prepare
    (committed : Committed admissible lg txid)
    {record : Log}
    (number : record.ID = txid) :
    Committed admissible (lg.writeLog record) txid where
  start := committed.start
  bound := committed.bound
  covers := by
    intro id lower upper
    rw [Logger.writeLog_of_ne _ _ (by omega)]
    exact committed.covers id lower upper
  records := by
    intro id other stored below
    rw [Logger.writeLog_of_ne _ _ (by omega)] at stored
    exact committed.records id other stored below
  above := by
    intro id higher
    rw [Logger.writeLog_of_ne _ _ (by omega)]
    exact committed.above id higher

/-- Writing an admissible record at the own number commits it. -/
theorem append
    (committed : Committed admissible lg txid)
    {record : Log}
    (well : LogRecord txid record)
    (allowed : admissible txid record) :
    Committed admissible (lg.writeLog record) (txid + 1) where
  start := by
    have := committed.start
    omega
  bound := by
    have := well.small
    omega
  covers := by
    intro id lower upper
    by_cases last : id = record.ID
    · exact ⟨record, by rw [last, Logger.writeLog_self]⟩
    · rw [Logger.writeLog_of_ne _ _ last]
      have number := well.number
      exact committed.covers id lower (by omega)
  records := by
    intro id other stored below
    have number := well.number
    by_cases last : id = record.ID
    · rw [last, Logger.writeLog_self, Option.some_inj] at stored
      rw [last, number, ← stored]
      exact ⟨well, allowed⟩
    · rw [Logger.writeLog_of_ne _ _ last] at stored
      exact committed.records id other stored (by omega)
  above := by
    intro id higher
    have number := well.number
    rw [Logger.writeLog_of_ne _ _ (by omega)]
    exact committed.above id (by omega)

/-- Logs that are committed for a predicate are committed for a weaker one, as
far as their own records go. -/
theorem weaken
    (committed : Committed admissible lg txid)
    {admissible' : Nat → Log → Prop}
    (weaker : ∀ id record, lg id = some record → id < txid →
      admissible id record → admissible' id record) :
    Committed admissible' lg txid where
  start := committed.start
  bound := committed.bound
  covers := committed.covers
  records := by
    intro id record stored below
    obtain ⟨well, allowed⟩ := committed.records id record stored below
    exact ⟨well, weaker id record stored below allowed⟩
  above := committed.above

end Committed

/-- A coordinator later in the same life: its number has not decreased and its
committed records are the same. -/
structure Advanced (co co' : Coordinator) : Prop where
  ids : co'.ids = co.ids
  forward : co.txid ≤ co'.txid
  unchanged : ∀ id, id < co.txid → co'.lg id = co.lg id

namespace Advanced

theorem refl (co : Coordinator) : Advanced co co :=
  ⟨rfl, le_rfl, fun _ _ => rfl⟩

theorem trans
    {co co' co'' : Coordinator}
    (first : Advanced co co')
    (second : Advanced co' co'') :
    Advanced co co'' where
  ids := second.ids.trans first.ids
  forward := first.forward.trans second.forward
  unchanged := fun id below =>
    (second.unchanged id (by have := first.forward; omega)).trans
      (first.unchanged id below)

/-- A coordinator that differs in other variables. -/
theorem of_same
    {co co' : Coordinator}
    (ids : co'.ids = co.ids)
    (txid : co'.txid = co.txid)
    (lg : co'.lg = co.lg) :
    Advanced co co' :=
  ⟨ids, by omega, fun _ _ => by rw [lg]⟩

end Advanced

/-- The state during a recovery. -/
structure InRecovery
    (admissible : Nat → Log → Prop)
    (duty : Nat → Duty)
    (s : Sys) : Prop where
  log : Committed admissible s.co.lg s.co.txid
  peers : ∀ id ∈ s.co.ids, Recovering admissible (duty id) (s.peer id)

/-- The next numbers of all participants in the table lie between two
bounds. -/
def Sys.Table (s : Sys) (lower upper : Nat) : Prop :=
  ∀ id ∈ s.co.ids, ∀ max, (s.peer id).1.maxTxid = some max →
    lower ≤ max + 1 ∧ max + 1 ≤ upper

/-- Working participants of the second state were so, and the same, in the
first one. -/
def WorkersKept (s s' : Sys) : Prop :=
  ∀ id ∈ s.co.ids, (s'.peer id).1.pstate = .working →
    (s.peer id).1.pstate = .working ∧ (s'.peer id).2 = (s.peer id).2

/-- No participant enters the table. -/
def TableShrinks (s s' : Sys) : Prop :=
  ∀ id ∈ s.co.ids, (s'.peer id).1.maxTxid.isSome →
    (s.peer id).1.maxTxid.isSome

theorem WorkersKept.trans
    {s s' s'' : Sys}
    (first : WorkersKept s s')
    (second : WorkersKept s' s'')
    (ids : s'.co.ids = s.co.ids) :
    WorkersKept s s'' := by
  intro id member working
  obtain ⟨working', same'⟩ := second id (ids ▸ member) working
  obtain ⟨working'', same''⟩ := first id member working'
  exact ⟨working'', same'.trans same''⟩

theorem TableShrinks.trans
    {s s' s'' : Sys}
    (first : TableShrinks s s')
    (second : TableShrinks s' s'')
    (ids : s'.co.ids = s.co.ids) :
    TableShrinks s s'' :=
  fun id member present =>
    first id member (second id (ids ▸ member) present)

/-- No participant is at work. -/
def NoneWorking (s : Sys) : Prop :=
  ∀ id ∈ s.co.ids, (s.peer id).1.pstate ≠ .working

/-- Every participant at work has a certain next transaction number. -/
def WorkingAt (txid : Nat) (s : Sys) : Prop :=
  ∀ id ∈ s.co.ids, (s.peer id).1.pstate = .working →
    (s.peer id).2.proc.txid = txid

section Replaced

/-! ### One participant is replaced -/

variable
  {s : Sys}
  {id : Nat}
  {peer : Entry × Node}

theorem InRecovery.setPeer
    {admissible : Nat → Log → Prop}
    {duty : Nat → Duty}
    (state : InRecovery admissible duty s)
    (kept : Recovering admissible (duty id) peer) :
    InRecovery admissible duty (s.setPeer id peer) := by
  refine ⟨state.log, fun other member => ?_⟩
  by_cases same : other = id
  · subst same
    rw [Sys.peer_setPeer_self]
    exact kept
  · rw [Sys.peer_setPeer_of_ne _ _ same]
    exact state.peers other member

theorem TableShrinks.setPeer
    (noEntry : peer.1.maxTxid = none) :
    TableShrinks s (s.setPeer id peer) := by
  intro other _ present
  by_cases same : other = id
  · subst same
    rw [Sys.peer_setPeer_self, noEntry] at present
    cases present
  · rwa [Sys.peer_setPeer_of_ne _ _ same] at present

theorem Sys.Table.setPeer
    {lower upper : Nat}
    (table : s.Table lower upper)
    (noEntry : peer.1.maxTxid = none) :
    (s.setPeer id peer).Table lower upper := by
  intro other member max present
  by_cases same : other = id
  · subst same
    rw [Sys.peer_setPeer_self, noEntry] at present
    cases present
  · rw [Sys.peer_setPeer_of_ne _ _ same] at present
    exact table other member max present

end Replaced

section Loops

variable
  {admissible : Nat → Log → Prop}
  {duty : Nat → Duty}
  {s : Sys}

/-- One record is given to all participants. -/
theorem InRecovery.push
    (state : InRecovery admissible duty s)
    {id : Nat}
    {record : Log}
    (well : LogRecord id record)
    (allowed : admissible id record) :
    InRecovery admissible duty
        (s.onPeers s.co.ids (recovPeer record record.logToStr)) ∧
      WorkersKept s (s.onPeers s.co.ids (recovPeer record record.logToStr)) ∧
      TableShrinks s (s.onPeers s.co.ids (recovPeer record record.logToStr)) ∧
      ∀ upper, id + 1 ≤ upper → s.Table id upper →
        (s.onPeers s.co.ids (recovPeer record record.logToStr)).Table (id + 1)
          upper := by
  refine ⟨⟨state.log, fun other member => ?_⟩, fun other member => ?_,
    fun other member => ?_, fun upper notLast table other member => ?_⟩
  all_goals
    have member' : other ∈ s.co.ids := member
    obtain ⟨kept, working, entry⟩ :=
      (state.peers other member').push well allowed
    rw [Sys.peer_onPeers, if_pos member']
  · exact kept
  · exact working
  · intro present
    obtain ⟨max, isMax⟩ := Option.isSome_iff_exists.mp present
    obtain ⟨before, isBefore, _⟩ := entry max isMax
    rw [isBefore]
    rfl
  · intro max isMax
    obtain ⟨before, isBefore, change⟩ := entry max isMax
    obtain ⟨lower, bound⟩ := table other member' before isBefore
    by_cases due : before + 1 = id
    · rw [if_pos due] at change
      omega
    · rw [if_neg due] at change
      omega

/-! ## `recoveryFromC` -/

/-- Replaying the coordinator's log brings every participant in recovery to
the coordinator's number. -/
theorem exec_recoveryFromCLoop
    (state : InRecovery admissible duty s)
    {count tid : Nat}
    (lower : txidStart ≤ tid)
    (stop : tid + count = s.co.txid)
    (table : s.Table tid s.co.txid) :
    ∃ s', (recoveryFromCLoop s.co.ids count tid).exec s = some ((), s') ∧
      InRecovery admissible duty s' ∧ s'.co.txid = s.co.txid ∧
      s'.co.lg = s.co.lg ∧ s'.co.ids = s.co.ids ∧
      s'.Table s.co.txid s.co.txid ∧ WorkersKept s s' := by
  induction count generalizing s tid with
  | zero =>
      refine ⟨s, rfl, state, rfl, rfl, rfl, ?_, fun _ _ working =>
        ⟨working, rfl⟩⟩
      rw [show tid = s.co.txid by omega] at table
      exact table
  | succ count inductionHypothesis =>
      obtain ⟨record, stored⟩ := state.log.covers tid lower (by omega)
      obtain ⟨well, allowed⟩ :=
        state.log.records tid record stored (by omega)
      let pushed := s.onPeers s.co.ids (recovPeer record record.logToStr)
      obtain ⟨kept, workers, _, narrowed⟩ := state.push well allowed
      obtain ⟨s', executed, kept', txid, lg, ids, table', workers'⟩ :=
        inductionHypothesis (s := pushed) kept
          (show txidStart ≤ tid + 1 by omega)
          (show tid + 1 + count = s.co.txid by omega)
          (narrowed s.co.txid (by omega) table)
      refine ⟨s', ?_, kept', txid, lg, ids, table', workers.trans workers' rfl⟩
      rw [recoveryFromCLoop, Prog.exec_bind,
        exec_pushRecord well.decoded s.co.nodup_ids s stored,
        Option.bind_some]
      exact executed

theorem exec_recoveryFromC
    (state : InRecovery admissible duty s)
    (table : s.Table txidStart s.co.txid) :
    ∃ s', recoveryFromC.exec s = some ((), s') ∧
      InRecovery admissible duty s' ∧ s'.co.txid = s.co.txid ∧
      s'.co.lg = s.co.lg ∧ s'.co.ids = s.co.ids ∧
      s'.Table s.co.txid s.co.txid ∧ WorkersKept s s' := by
  have start := state.log.start
  have stop : txidStart + (s.co.txid - txidStart) = s.co.txid := by omega
  rw [recoveryFromC, Prog.exec_bind, Prog.exec_read, Option.bind_some]
  exact exec_recoveryFromCLoop state le_rfl stop table

/-! ## `recoveryFromP` -/

/-- A participant that is not in recovery is left alone. -/
theorem recovPeer_of_not_recovery
    (l : Log)
    (task : Bytes)
    {peer : Entry × Node}
    (idle : peer.1.pstate ≠ .recovery) :
    recovPeer l task peer =
      ({ peer.1 with pRtask := task, precoveryRet := retSkip }, peer.2) := by
  simp only [recovPeer, ne_eq, idle, not_false_eq_true, if_true]

/-- The coordinator takes over a fetched record that is the next of its own
log. -/
def adopt (record : Log) (co : Coordinator) : Coordinator :=
  if record.ID = co.txid then
    { co with lg := co.lg.writeLog record, txid := co.txid + 1 }
  else co

theorem InRecovery.adopt
    (state : InRecovery admissible duty s)
    {id : Nat}
    {record : Log}
    (well : LogRecord id record)
    (allowed : admissible id record)
    (current : id ≤ s.co.txid) :
    InRecovery admissible duty { s with co := Lab3.adopt record s.co } ∧
      Advanced s.co (Lab3.adopt record s.co) ∧
      (Lab3.adopt record s.co).txid = max s.co.txid (id + 1) := by
  have number := well.number
  by_cases next : record.ID = s.co.txid
  · have isNext : id = s.co.txid := number.symm.trans next
    subst isNext
    simp only [Lab3.adopt, if_pos next]
    refine ⟨⟨state.log.append well allowed, state.peers⟩,
      ⟨rfl, by simp, fun other below => ?_⟩, by simp⟩
    exact Logger.writeLog_of_ne _ _ (by omega)
  · simp only [Lab3.adopt, if_neg next]
    exact ⟨state, .refl _, by omega⟩

/-- The leader is the only participant at work, and it has the records up to
`maxID`. -/
structure Leads (s : Sys) (leader maxID : Nat) : Prop where
  member : leader ∈ s.co.ids
  working : (s.peer leader).1.pstate = .working
  only : ∀ id ∈ s.co.ids, (s.peer id).1.pstate = .working → id = leader
  reached : (s.peer leader).2.proc.txid = maxID + 1

/-- The coordinator asks the leader for a record. -/
def Sys.asked (s : Sys) (leader minID : Nat) : Sys :=
  s.setPeer leader (workPeer (askReq minID) (s.peer leader))

/-- The coordinator takes over a record and gives it to all participants. -/
def Sys.fetched (s : Sys) (record : Log) : Sys :=
  ({ s with co := adopt record s.co } : Sys).onPeers s.co.ids
    (recovPeer record record.logToStr)

/-- The state before a round of the fetch loop: `minID` is the number of the
next record to ask the leader for, and nobody lacks an earlier one. -/
structure Fetching
    (admissible : Nat → Log → Prop)
    (duty : Nat → Duty)
    (s : Sys)
    (leader maxID minID : Nat) : Prop where
  state : InRecovery admissible duty s
  leads : Leads s leader maxID
  lower : txidStart ≤ minID
  current : minID ≤ s.co.txid
  notPast : s.co.txid ≤ maxID + 1
  table : s.Table minID (maxID + 1)

/-- What the fetch loop leaves: the coordinator has come to the leader's
number, or the leader has failed and waits. -/
structure Fetched
    (admissible : Nat → Log → Prop)
    (duty : Nat → Duty)
    (s s' : Sys)
    (maxID minID minID' : Nat) : Prop where
  state : InRecovery admissible duty s'
  advanced : Advanced s.co s'.co
  ordered : minID ≤ minID'
  current : minID' ≤ s'.co.txid
  notPast : s'.co.txid ≤ maxID + 1
  table : s'.Table minID' (maxID + 1)
  shrinks : TableShrinks s s'
  leaders : NoneWorking s' ∨
    (minID' = maxID + 1 ∧ WorkingAt (maxID + 1) s')

section Fetch

variable {leader maxID minID : Nat}

/-- Someone who works where nobody else does. -/
theorem Leads.setPeer
    {peer : Entry × Node}
    (member : leader ∈ s.co.ids)
    (only : ∀ id ∈ s.co.ids, (s.peer id).1.pstate = .working → id = leader)
    (working : peer.1.pstate = .working)
    (reached : peer.2.proc.txid = maxID + 1) :
    Leads (s.setPeer leader peer) leader maxID where
  member := member
  working := by
    rw [Sys.peer_setPeer_self]
    exact working
  only := by
    intro id inside isWorking
    by_contra different
    rw [Sys.peer_setPeer_of_ne _ _ different] at isWorking
    exact different (only id inside isWorking)
  reached := by
    rw [Sys.peer_setPeer_self]
    exact reached

/-- When the leader no longer works, nobody does. -/
theorem Leads.failed
    (leads : Leads s leader maxID)
    {peer : Entry × Node}
    (idle : peer.1.pstate ≠ .working) :
    NoneWorking (s.setPeer leader peer) := by
  intro id inside isWorking
  by_cases same : id = leader
  · subst same
    rw [Sys.peer_setPeer_self] at isWorking
    exact idle isWorking
  · rw [Sys.peer_setPeer_of_ne _ _ same] at isWorking
    exact same (leads.only id inside isWorking)

theorem Leads.workingAt (leads : Leads s leader maxID) :
    WorkingAt (maxID + 1) s := by
  intro id inside working
  rw [leads.only id inside working]
  exact leads.reached

/-- A record given to all participants does not concern the leader. -/
theorem Leads.push
    (leads : Leads s leader maxID)
    {record : Log}
    (workers : WorkersKept s
      (s.onPeers s.co.ids (recovPeer record record.logToStr))) :
    Leads (s.onPeers s.co.ids (recovPeer record record.logToStr)) leader
      maxID := by
  have idle : (s.peer leader).1.pstate ≠ .recovery := by
    rw [leads.working]
    simp
  have same : (s.onPeers s.co.ids (recovPeer record record.logToStr)).peer
      leader = ({ (s.peer leader).1 with
        pRtask := record.logToStr, precoveryRet := retSkip },
          (s.peer leader).2) := by
    rw [Sys.peer_onPeers, if_pos leads.member,
      recovPeer_of_not_recovery record record.logToStr idle]
  refine ⟨leads.member, ?_, ?_, ?_⟩
  · rw [same]
    exact leads.working
  · intro id inside isWorking
    exact leads.only id inside (workers id inside isWorking).1
  · rw [same]
    exact leads.reached

/-- The answer of the leader is the record asked for, or the leader fails and
nobody works any more. -/
theorem Fetching.ask
    (fetching : Fetching admissible duty s leader maxID minID)
    (more : minID ≤ maxID) :
    InRecovery admissible duty (s.asked leader minID) ∧
      TableShrinks s (s.asked leader minID) ∧
      (s.asked leader minID).Table minID (maxID + 1) ∧
      ((Leads (s.asked leader minID) leader maxID ∧
          ∃ record, LogRecord minID record ∧ admissible minID record ∧
            result (.work leader) (s.asked leader minID).co =
              (kvOk, record.logToStr)) ∨
        (NoneWorking (s.asked leader minID) ∧
          (result (.work leader) (s.asked leader minID).co).1 ≠ kvOk)) := by
  have leads := fetching.leads
  have reached := leads.reached
  obtain ⟨kept, noEntry, outcome⟩ :=
    (fetching.state.peers leader leads.member).ask leads.working
      fetching.lower (by omega)
  have entry : (s.asked leader minID).co.entry leader =
      (workPeer (askReq minID) (s.peer leader)).1 :=
    congrArg Prod.fst (s.peer_setPeer_self leader _)
  simp only [result, entry]
  refine ⟨fetching.state.setPeer kept, .setPeer noEntry,
    fetching.table.setPeer noEntry, ?_⟩
  rcases outcome with
    ⟨answered, working, process, record, well, allowed, text⟩ |
      ⟨failed, waiting⟩
  · refine Or.inl ⟨Leads.setPeer leads.member leads.only working ?_,
      record, well, allowed, by rw [answered, text]⟩
    rw [process]
    exact reached
  · refine Or.inr ⟨leads.failed ?_, failed⟩
    rw [waiting]
    simp

theorem Sys.ids_fetched (s : Sys) (record : Log) :
    (s.fetched record).co.ids = s.co.ids := by
  simp only [Sys.fetched, Lab3.adopt]
  split
  · rfl
  · rfl

/-- With the record of the round fetched, the next round begins. -/
theorem Fetching.fetched
    (fetching : Fetching admissible duty s leader maxID minID)
    (more : minID ≤ maxID)
    {record : Log}
    (well : LogRecord minID record)
    (allowed : admissible minID record) :
    Fetching admissible duty (s.fetched record) leader maxID (minID + 1) ∧
      Advanced s.co (s.fetched record).co ∧
      TableShrinks s (s.fetched record) := by
  have lower := fetching.lower
  have notPast := fetching.notPast
  let s₁ : Sys := { s with co := Lab3.adopt record s.co }
  obtain ⟨state₁, advanced, txid⟩ :=
    fetching.state.adopt well allowed fetching.current
  have ids : s₁.co.ids = s.co.ids := advanced.ids
  have peer : s₁.peer = s.peer := by
    funext id
    simp only [s₁, Sys.peer, Lab3.adopt]
    split
    · rfl
    · rfl
  obtain ⟨state₂, workers, shrinks, narrowed⟩ :=
    InRecovery.push (s := s₁) state₁ well allowed
  have leads₁ : Leads s₁ leader maxID := by
    refine ⟨ids ▸ fetching.leads.member, ?_, ?_, ?_⟩
    · rw [peer]
      exact fetching.leads.working
    · rw [peer, ids]
      exact fetching.leads.only
    · rw [peer]
      exact fetching.leads.reached
  have table₁ : s₁.Table minID (maxID + 1) := by
    simp only [Sys.Table, peer, ids]
    exact fetching.table
  have same : s.fetched record =
      s₁.onPeers s₁.co.ids (recovPeer record record.logToStr) := by
    rw [Sys.fetched, ids]
  rw [same]
  refine ⟨⟨state₂, leads₁.push workers, by omega, ?_, ?_,
    narrowed (maxID + 1) (by omega) table₁⟩,
    ⟨advanced.ids, advanced.forward, advanced.unchanged⟩, ?_⟩
  · rw [Sys.onPeers_txid, show s₁.co.txid = _ from txid]
    omega
  · rw [Sys.onPeers_txid, show s₁.co.txid = _ from txid]
    omega
  · intro id inside present
    have present₁ := shrinks id (ids ▸ inside) present
    rwa [peer] at present₁

/-- What a round and the later rounds leave together. -/
theorem Fetched.of_round
    {s₁ s' : Sys}
    {minID₁ minID' : Nat}
    (advanced : Advanced s.co s₁.co)
    (shrinks : TableShrinks s s₁)
    (ordered : minID ≤ minID₁)
    (rest : Fetched admissible duty s₁ s' maxID minID₁ minID') :
    Fetched admissible duty s s' maxID minID minID' where
  state := rest.state
  advanced := advanced.trans rest.advanced
  ordered := ordered.trans rest.ordered
  current := rest.current
  notPast := rest.notPast
  table := rest.table
  shrinks := shrinks.trans rest.shrinks advanced.ids
  leaders := rest.leaders

/-- A round of the fetch loop whose answer is a record. -/
theorem exec_fetchLoop_record
    {ids : List Nat}
    (isIds : ids = s.co.ids)
    (count : Nat)
    {record : Log}
    (decoded : Log.strToLog record.logToStr = some record)
    (answer : result (.work leader) (s.asked leader minID).co =
      (kvOk, record.logToStr)) :
    (fetchLoop leader ids (count + 1) minID).exec s =
      (fetchLoop leader ids count (minID + 1)).exec
        ((s.asked leader minID).fetched record) := by
  have nonempty : record.logToStr ≠ [] := by
    intro empty
    have := length_logToStr record
    rw [empty, List.length_nil] at this
    omega
  have asked : ids = (s.asked leader minID).co.ids := isIds
  have nodup : ids.Nodup := isIds ▸ s.co.nodup_ids
  rw [fetchLoop, Prog.exec_bind, exec_post_work, Option.bind_some,
    Prog.exec_bind, exec_collect, Option.bind_some]
  rw [Sys.asked] at answer asked ⊢
  generalize s.setPeer leader (workPeer (askReq minID) (s.peer leader)) = s₁
    at answer asked ⊢
  dsimp only
  rw [answer, if_pos ⟨rfl, nonempty⟩]
  dsimp only
  rw [decoded]
  dsimp only
  rw [Prog.exec_bind, Prog.exec_write, Option.bind_some, Prog.exec_bind,
    exec_pushAll decoded nodup, Option.bind_some, asked]
  rfl

/-- A round of the fetch loop in which the leader fails. -/
theorem exec_fetchLoop_failed
    (ids : List Nat)
    (count : Nat)
    (failed : (result (.work leader) (s.asked leader minID).co).1 ≠ kvOk) :
    (fetchLoop leader ids (count + 1) minID).exec s =
      some (minID, s.asked leader minID) := by
  rw [fetchLoop, Prog.exec_bind, exec_post_work, Option.bind_some,
    Prog.exec_bind, exec_collect, Option.bind_some]
  change (if (result (.work leader) (s.asked leader minID).co).1 = kvOk ∧
    (result (.work leader) (s.asked leader minID).co).2 ≠ [] then _ else _ :
      Prog Nat).exec (s.asked leader minID) = _
  rw [if_neg fun both => failed both.1, Prog.exec_pure]

/-- The fetch loop either brings the coordinator to the leader's number, or
the leader fails and waits. -/
theorem exec_fetchLoop
    (fetching : Fetching admissible duty s leader maxID minID)
    {ids : List Nat}
    (isIds : ids = s.co.ids)
    {count : Nat}
    (stop : minID + count = maxID + 1) :
    ∃ minID' s',
      (fetchLoop leader ids count minID).exec s = some (minID', s') ∧
      Fetched admissible duty s s' maxID minID minID' := by
  induction count generalizing s minID with
  | zero =>
      exact ⟨minID, s, rfl, fetching.state, .refl _, le_rfl, fetching.current,
        fetching.notPast, fetching.table, fun _ _ present => present,
        Or.inr ⟨stop, fetching.leads.workingAt⟩⟩
  | succ count inductionHypothesis =>
      have more : minID ≤ maxID := by omega
      obtain ⟨asked, shrinks, table, outcome⟩ := fetching.ask more
      have same : Advanced s.co (s.asked leader minID).co :=
        .of_same rfl rfl rfl
      rcases outcome with ⟨leads, record, well, allowed, answer⟩ |
        ⟨idle, failed⟩
      · have again : Fetching admissible duty (s.asked leader minID) leader
            maxID minID :=
          ⟨asked, leads, fetching.lower, fetching.current, fetching.notPast,
            table⟩
        obtain ⟨next, advanced, narrower⟩ := again.fetched more well allowed
        obtain ⟨minID', s', executed, rest⟩ :=
          inductionHypothesis next
            (by rw [Sys.ids_fetched]; exact isIds) (by omega)
        refine ⟨minID', s', ?_, rest.of_round (same.trans advanced)
          (shrinks.trans narrower rfl) (by omega)⟩
        rw [exec_fetchLoop_record isIds count well.decoded answer]
        exact executed
      · exact ⟨minID, s.asked leader minID,
          exec_fetchLoop_failed ids count failed, asked, same, le_rfl,
          fetching.current, fetching.notPast, table, shrinks, Or.inl idle⟩

end Fetch

/-- The fold of `getRecoveryLeader` finds the largest number in the table
above its start, with a holder. -/
theorem foldl_leader
    (entry : Nat → Entry)
    (ids : List Nat)
    (best : Nat × Nat) :
    ∃ max leader,
      ids.foldl
        (fun (best : Nat × Nat) id =>
          match (entry id).maxTxid with
          | some max => if best.1 < max then (max, id) else best
          | none => best)
        best = (max, leader) ∧
      best.1 ≤ max ∧
      (∀ id ∈ ids, ∀ other, (entry id).maxTxid = some other → other ≤ max) ∧
      ((max, leader) = best ∨
        (leader ∈ ids ∧ (entry leader).maxTxid = some max ∧ best.1 < max)) := by
  induction ids generalizing best with
  | nil => exact ⟨best.1, best.2, rfl, le_rfl, by simp, Or.inl rfl⟩
  | cons id ids inductionHypothesis =>
      rw [List.foldl_cons]
      cases present : (entry id).maxTxid with
      | none =>
          obtain ⟨max, leader, found, notLess, bounds, holder⟩ :=
            inductionHypothesis best
          refine ⟨max, leader, found, notLess, ?_, ?_⟩
          · intro other member number isNumber
            rcases List.mem_cons.mp member with rfl | member
            · rw [present] at isNumber
              cases isNumber
            · exact bounds other member number isNumber
          · exact holder.imp_right fun ⟨member, rest⟩ =>
              ⟨List.mem_cons_of_mem id member, rest⟩
      | some number =>
          by_cases better : best.1 < number
          · obtain ⟨max, leader, found, notLess, bounds, holder⟩ :=
              inductionHypothesis (number, id)
            simp only [if_pos better]
            simp only at notLess holder
            refine ⟨max, leader, found, by omega, ?_, Or.inr ?_⟩
            · intro other member number' isNumber
              rcases List.mem_cons.mp member with rfl | member
              · rw [present, Option.some_inj] at isNumber
                omega
              · exact bounds other member number' isNumber
            · rcases holder with isStart | ⟨member, isMax, larger⟩
              · rw [Prod.mk.injEq] at isStart
                rw [isStart.1, isStart.2]
                exact ⟨by simp, present, better⟩
              · exact ⟨List.mem_cons_of_mem id member, isMax, by omega⟩
          · obtain ⟨max, leader, found, notLess, bounds, holder⟩ :=
              inductionHypothesis best
            simp only [if_neg better]
            refine ⟨max, leader, found, notLess, ?_, ?_⟩
            · intro other member number' isNumber
              rcases List.mem_cons.mp member with rfl | member
              · rw [present, Option.some_inj] at isNumber
                omega
              · exact bounds other member number' isNumber
            · exact holder.imp_right fun ⟨member, rest⟩ =>
                ⟨List.mem_cons_of_mem id member, rest⟩

/-- `getRecoveryLeader` returns no leader, and no number in the table is above
`_TXID - 1`; or a holder of the largest number. -/
theorem getRecoveryLeader_spec (co : Coordinator) :
    ∃ max leader, co.getRecoveryLeader = (max, leader) ∧
      (∀ id ∈ co.ids, ∀ other,
        (co.entry id).maxTxid = some other → other ≤ max) ∧
      ((leader = 0 ∧ max = co.txid - 1) ∨
        (leader ≠ 0 ∧ leader ∈ co.ids ∧
          (co.entry leader).maxTxid = some max ∧ co.txid - 1 < max)) := by
  obtain ⟨max, leader, found, _, bounds, holder⟩ :=
    foldl_leader co.entry co.ids (co.txid - 1, 0)
  refine ⟨max, leader, found, bounds, ?_⟩
  rcases holder with isStart | ⟨member, rest⟩
  · rw [Prod.mk.injEq] at isStart
    exact Or.inl ⟨isStart.2, isStart.1⟩
  · have := (Coordinator.mem_ids.mp member).1
    exact Or.inr ⟨by omega, member, rest⟩

/-- Number of participants in the table. -/
def Sys.tableSize (s : Sys) : Nat :=
  (s.co.ids.toFinset.filter fun id =>
    (s.peer id).1.maxTxid.isSome = true).card

theorem TableShrinks.tableSize_le
    {s s' : Sys}
    (shrinks : TableShrinks s s')
    (ids : s'.co.ids = s.co.ids) :
    s'.tableSize ≤ s.tableSize := by
  apply Finset.card_le_card
  intro id
  simp only [ids, Finset.mem_filter, List.mem_toFinset]
  exact fun ⟨member, present⟩ => ⟨member, shrinks id member present⟩

theorem TableShrinks.tableSize_lt
    {s s' : Sys}
    (shrinks : TableShrinks s s')
    (ids : s'.co.ids = s.co.ids)
    {leader : Nat}
    (member : leader ∈ s.co.ids)
    (before : (s.peer leader).1.maxTxid.isSome = true)
    (after : (s'.peer leader).1.maxTxid = none) :
    s'.tableSize < s.tableSize := by
  apply Finset.card_lt_card
  rw [Finset.ssubset_iff_of_subset]
  · refine ⟨leader, ?_, ?_⟩
    · simp only [Finset.mem_filter, List.mem_toFinset]
      exact ⟨member, before⟩
    · simp [after]
  · intro id
    simp only [ids, Finset.mem_filter, List.mem_toFinset]
    exact fun ⟨inside, present⟩ => ⟨inside, shrinks id inside present⟩

/-- The state in which `recoveryFromP` chooses a leader.  An earlier leader
still at work has been followed up to its last record. -/
structure Choosing
    (admissible : Nat → Log → Prop)
    (duty : Nat → Duty)
    (s : Sys)
    (minID : Nat) : Prop where
  state : InRecovery admissible duty s
  lower : txidStart ≤ minID
  current : minID ≤ s.co.txid
  table : ∀ id ∈ s.co.ids, ∀ max,
    (s.peer id).1.maxTxid = some max → minID ≤ max + 1
  leaders : NoneWorking s ∨
    (s.Table minID s.co.txid ∧ WorkingAt s.co.txid s)

/-- The end of the choices: all numbers in the table are the coordinator's,
and so is the number of a leader that did not fail. -/
structure Caught
    (admissible : Nat → Log → Prop)
    (duty : Nat → Duty)
    (s s' : Sys) : Prop where
  state : InRecovery admissible duty s'
  advanced : Advanced s.co s'.co
  table : s'.Table s'.co.txid s'.co.txid
  working : WorkingAt s'.co.txid s'

/-- The leader is put to work, and leaves the table. -/
def Sys.chosen (s : Sys) (leader : Nat) : Sys :=
  s.setPeer leader
    ({ s.co.entry leader with pstate := .working, maxTxid := none },
      s.node leader)

/-- A participant in recovery can be put to work. -/
theorem Recovering.promote
    {admissible : Nat → Log → Prop}
    {duty : Duty}
    {peer : Entry × Node}
    (state : Recovering admissible duty peer)
    (recovering : peer.1.pstate = .recovery) :
    Recovering admissible duty
      ({ peer.1 with pstate := .working, maxTxid := none }, peer.2) := by
  obtain ⟨linked, alive, _⟩ := state.recovery recovering
  have known := state.reached (by rw [recovering]; simp)
  refine ⟨fun _ => known, state.sound, ?_, ?_, ?_, ?_⟩
  · intro keep
    obtain ⟨faultless, _, least⟩ := state.kept keep
    exact ⟨faultless, by simp, least⟩
  · intro isRecovery
    cases isRecovery
  · intro _
    exact ⟨linked, alive, rfl⟩
  · intro _ notWorking
    exact absurd rfl notWorking

/-- With a new leader the fetch loop begins.  The leader is ahead of the
coordinator, so no earlier leader has finished. -/
theorem Choosing.fetching
    {minID maxID leader : Nat}
    (choosing : Choosing admissible duty s minID)
    (member : leader ∈ s.co.ids)
    (number : (s.co.entry leader).maxTxid = some maxID)
    (above : s.co.txid - 1 < maxID)
    (largest : ∀ id ∈ s.co.ids, ∀ max,
      (s.co.entry id).maxTxid = some max → max ≤ maxID) :
    Fetching admissible duty (s.chosen leader) leader maxID minID ∧
      (s.chosen leader).tableSize < s.tableSize := by
  have started := choosing.state.log.start
  simp only [txidStart] at started
  have idle : NoneWorking s := by
    rcases choosing.leaders with none | ⟨bounded, _⟩
    · exact none
    · have := (bounded leader member maxID number).2
      omega
  have leaderState := choosing.state.peers leader member
  obtain ⟨recovering, reached, known⟩ := leaderState.of_table number
  have begun := (leaderState.sound known).replica.start
  simp only [txidStart] at begun
  have shrinks : TableShrinks s (s.chosen leader) := .setPeer rfl
  have bounded : s.Table minID (maxID + 1) := by
    intro id inside max present
    have bound := largest id inside max present
    exact ⟨choosing.table id inside max present, by omega⟩
  refine ⟨⟨choosing.state.setPeer (leaderState.promote recovering),
    Leads.setPeer member (fun id inside isWorking =>
      absurd isWorking (idle id inside)) rfl ?_, choosing.lower,
    choosing.current, ?_, bounded.setPeer rfl⟩,
    shrinks.tableSize_lt rfl member ?_ ?_⟩
  · change (s.peer leader).2.proc.txid = maxID + 1
    omega
  · change s.co.txid ≤ maxID + 1
    omega
  · rw [show (s.peer leader).1.maxTxid = some maxID from number]
    rfl
  · rw [Sys.chosen, Sys.peer_setPeer_self]

/-- After a fetch loop the next leader is chosen. -/
theorem Fetched.choosing
    {s' : Sys}
    {maxID minID minID' : Nat}
    (fetched : Fetched admissible duty s s' maxID minID minID')
    (lower : txidStart ≤ minID) :
    Choosing admissible duty s' minID' where
  state := fetched.state
  lower := lower.trans fetched.ordered
  current := fetched.current
  table := fun id inside max present =>
    (fetched.table id inside max present).1
  leaders := by
    refine fetched.leaders.imp_right fun ⟨finished, aligned⟩ => ?_
    have current := fetched.current
    have notPast := fetched.notPast
    have same : s'.co.txid = maxID + 1 := by omega
    rw [same]
    exact ⟨fetched.table, aligned⟩

/-- The last round of `recoveryFromP`: nobody is ahead of the coordinator,
which replays its own log. -/
theorem exec_recoveryFromC_choosing
    {minID : Nat}
    (choosing : Choosing admissible duty s minID)
    (largest : ∀ id ∈ s.co.ids, ∀ max,
      (s.co.entry id).maxTxid = some max → max ≤ s.co.txid - 1) :
    ∃ s', recoveryFromC.exec s = some ((), s') ∧
      Caught admissible duty s s' := by
  have started := choosing.state.log.start
  have lower := choosing.lower
  simp only [txidStart] at started lower
  have table : s.Table txidStart s.co.txid := by
    intro id inside max present
    have bound := largest id inside max present
    have least := choosing.table id inside max present
    simp only [txidStart]
    omega
  obtain ⟨s', executed, state', txid, lg, ids, equal, workers⟩ :=
    exec_recoveryFromC choosing.state table
  refine ⟨s', executed, state', .of_same ids txid lg, ?_, ?_⟩
  · rw [txid]
    exact equal
  · intro id inside working
    obtain ⟨before, same⟩ := workers id (ids ▸ inside) working
    rcases choosing.leaders with none | ⟨_, aligned⟩
    · exact absurd before (none id (ids ▸ inside))
    · rw [same, txid]
      exact aligned id (ids ▸ inside) before

/-- A round of `recoveryFromP` with a leader. -/
theorem exec_recoveryFromPLoop_leader
    (ids : List Nat)
    (rounds minID : Nat)
    {maxID leader : Nat}
    (found : s.co.getRecoveryLeader = (maxID, leader))
    (isLeader : leader ≠ 0) :
    (recoveryFromPLoop ids (rounds + 1) minID).exec s =
      ((fetchLoop leader ids (maxID + 1 - minID) minID).exec
        (s.chosen leader)).bind fun done =>
          (recoveryFromPLoop ids rounds done.1).exec done.2 := by
  have written : ({ s with
      co := s.co.setEntry leader { s.co.entry leader with
        pstate := .working, maxTxid := none } } : Sys) = s.chosen leader := by
    simp only [Sys.chosen, Sys.setPeer, Function.update_eq_self]
  rw [recoveryFromPLoop, Prog.exec_bind, Prog.exec_read, Option.bind_some]
  simp only [found]
  rw [if_neg isLeader, Prog.exec_bind, Prog.exec_write, Option.bind_some,
    written, Prog.exec_bind]

/-- Every round of `recoveryFromP` takes its leader out of the table. -/
theorem exec_recoveryFromPLoop
    {minID : Nat}
    (choosing : Choosing admissible duty s minID)
    {ids : List Nat}
    (isIds : ids = s.co.ids)
    {rounds : Nat}
    (enough : s.tableSize < rounds) :
    ∃ s', (recoveryFromPLoop ids rounds minID).exec s = some ((), s') ∧
      Caught admissible duty s s' := by
  induction rounds generalizing s minID with
  | zero => omega
  | succ rounds inductionHypothesis =>
      obtain ⟨maxID, leader, found, largest, choice⟩ :=
        getRecoveryLeader_spec s.co
      rcases choice with ⟨noLeader, isLast⟩ |
        ⟨isLeader, member, number, above⟩
      · obtain ⟨s', executed, caught⟩ :=
          exec_recoveryFromC_choosing choosing (isLast ▸ largest)
        refine ⟨s', ?_, caught⟩
        rw [recoveryFromPLoop, Prog.exec_bind, Prog.exec_read,
          Option.bind_some]
        simp only [found]
        rw [if_pos noLeader]
        exact executed
      · obtain ⟨fetching, smaller⟩ :=
          choosing.fetching member number above largest
        have notPast := fetching.notPast
        have current := fetching.current
        obtain ⟨minID', s₂, fetched, left⟩ :=
          exec_fetchLoop fetching isIds
            (show minID + (maxID + 1 - minID) = maxID + 1 by omega)
        have size := left.shrinks.tableSize_le left.advanced.ids
        obtain ⟨s', executed, caught⟩ :=
          inductionHypothesis (left.choosing choosing.lower)
            (isIds.trans left.advanced.ids.symm) (by omega)
        have same : Advanced s.co (s.chosen leader).co :=
          .of_same rfl rfl rfl
        refine ⟨s', ?_, caught.state,
          (same.trans left.advanced).trans caught.advanced, caught.table,
          caught.working⟩
        rw [exec_recoveryFromPLoop_leader ids rounds minID found isLeader,
          fetched, Option.bind_some]
        exact executed

end Loops

/-! ## The whole recovery -/

/-- The loop that fills the table enters every reported number, and compares
each with `_TXID - 1`. -/
theorem exec_collectTxids
    {ids : List Nat}
    (nodup : ids.Nodup)
    (consistance : Bool)
    (s : Sys) :
    (collectTxids ids consistance).exec s =
      some
        (consistance && ids.all fun id =>
          (s.peer id).1.reported.all (· = s.co.txid - 1),
          s.onPeers ids noteTxid) := by
  induction ids generalizing consistance s with
  | nil => simp [collectTxids]
  | cons id ids inductionHypothesis =>
      obtain ⟨fresh, rest⟩ := List.nodup_cons.mp nodup
      let noted := s.setPeer id (noteTxid (s.peer id))
      have others : (ids.all fun other =>
            (noted.peer other).1.reported.all (· = s.co.txid - 1)) =
          ids.all fun other =>
            (s.peer other).1.reported.all (· = s.co.txid - 1) := by
        rw [Bool.eq_iff_iff, List.all_eq_true, List.all_eq_true]
        refine forall₂_congr fun other member => ?_
        have different : other ≠ id := fun equal => fresh (equal ▸ member)
        simp only [noted, Sys.setPeer_eq, Sys.peer_withPeers,
          Function.update_of_ne different]
      have start : (collectTxids (id :: ids) consistance).exec s =
          (collectTxids ids (consistance &&
            (s.peer id).1.reported.all (· = s.co.txid - 1))).exec noted := by
        let max := Decimal.toUInt64
          (Decimal.strtol (s.co.entry id).preoveryDataRet)
        rw [collectTxids, Prog.exec_bind, exec_collect, Option.bind_some]
        change (Prog.read >>= fun co =>
          if (s.co.entry id).precoveryRet = kvOk ∧
              (s.co.entry id).preoveryDataRet ≠ [] then do
            Prog.write fun co => co.setEntry id
              { co.entry id with maxTxid := some max }
            collectTxids ids (consistance && max = co.txid - 1)
          else collectTxids ids consistance : Prog Bool).exec s = _
        rw [Prog.exec_bind, Prog.exec_read, Option.bind_some]
        by_cases answered : (s.co.entry id).precoveryRet = kvOk ∧
            (s.co.entry id).preoveryDataRet ≠ []
        · have reported : (s.peer id).1.reported = some max := by
            rw [Entry.reported]
            exact if_pos answered
          have note : noteTxid (s.peer id) =
              ({ s.co.entry id with maxTxid := some max }, s.node id) := by
            rw [noteTxid, reported]
            rfl
          have written : ({ s with
              co := s.co.setEntry id
                { s.co.entry id with maxTxid := some max } } : Sys) =
              noted := by
            simp only [noted, note, Sys.setPeer, Function.update_eq_self]
          rw [if_pos answered, Prog.exec_bind, Prog.exec_write,
            Option.bind_some, written, reported, Option.all_some]
        · have reported : (s.peer id).1.reported = none := by
            rw [Entry.reported]
            exact if_neg answered
          have same : noted = s := by
            simp only [noted, noteTxid, reported, Sys.setPeer_eq,
              Function.update_eq_self, Sys.withPeers_peer]
          rw [if_neg answered, same, reported, Option.all_none, Bool.and_true]
      rw [start, inductionHypothesis rest, Sys.onPeers_cons s fresh,
        Bool.and_assoc, List.all_cons]
      rw [show noted.co.txid = s.co.txid from rfl, others]

/-- `leastTxid` is at most its start and every number in the table, and no
smaller than all of them. -/
theorem leastTxid_spec
    (co : Coordinator)
    (minID : Nat) :
    leastTxid co minID ≤ minID ∧
      (∀ id ∈ co.ids, ∀ max, (co.entry id).maxTxid = some max →
        leastTxid co minID ≤ max) ∧
      ∀ bound, bound ≤ minID →
        (∀ id ∈ co.ids, ∀ max, (co.entry id).maxTxid = some max →
          bound ≤ max) →
        bound ≤ leastTxid co minID := by
  rw [leastTxid]
  generalize co.ids = ids
  induction ids generalizing minID with
  | nil => simp
  | cons id ids inductionHypothesis =>
      rw [List.foldl_cons]
      cases present : (co.entry id).maxTxid with
      | none =>
          obtain ⟨start, least, greatest⟩ := inductionHypothesis minID
          simp only [List.mem_cons]
          refine ⟨start, ?_, ?_⟩
          · rintro other (rfl | member) max isMax
            · rw [present] at isMax
              cases isMax
            · exact least other member max isMax
          · intro bound below all
            exact greatest bound below fun other member =>
              all other (Or.inr member)
      | some number =>
          have chosen : (if number < minID then number else minID) =
              min number minID := by
            split
            · exact (min_eq_left (by omega)).symm
            · exact (min_eq_right (by omega)).symm
          obtain ⟨start, least, greatest⟩ :=
            inductionHypothesis (min number minID)
          simp only [List.mem_cons, chosen]
          refine ⟨by omega, ?_, ?_⟩
          · rintro other (rfl | member) max isMax
            · rw [present, Option.some_inj] at isMax
              omega
            · exact least other member max isMax
          · intro bound below all
            refine greatest bound ?_ fun other member =>
              all other (Or.inr member)
            have := all id (Or.inl rfl) number present
            omega

/-- A participant after `Recovery`: it is back at work with the coordinator's
number, or it waits. -/
structure Settled
    (admissible : Nat → Log → Prop)
    (duty : Duty)
    (txid : Nat)
    (peer : Entry × Node) : Prop where
  sound : duty.known → NodeOk admissible duty.traced peer.2
  kept : duty.keep → peer.2.Faultless ∧ peer.1.pstate = .working ∧
    duty.least ≤ peer.2.proc.txid
  working : peer.1.pstate = .working → duty.known ∧ peer.2.link = true ∧
    peer.2.restarted = false ∧ peer.2.proc.txid = txid
  others : peer.1.pstate ≠ .working → peer.1.pstate = .waiting

/-- Put a participant whose number reached `_TXID - 1` back to work. -/
def leavePeer (txid : Nat) (peer : Entry × Node) : Entry × Node :=
  (if peer.1.maxTxid = some (txid - 1) then
      { peer.1 with pstate := .working }
    else peer.1, peer.2)

theorem Recovering.leave
    {admissible : Nat → Log → Prop}
    {duty : Duty}
    {peer : Entry × Node}
    {txid : Nat}
    (state : Recovering admissible duty peer)
    (start : txidStart ≤ txid)
    (table : ∀ max, peer.1.maxTxid = some max → max + 1 = txid)
    (aligned : peer.1.pstate = .working → peer.2.proc.txid = txid) :
    Settled admissible duty txid (leavePeer txid peer) := by
  simp only [txidStart] at start
  by_cases present : peer.1.maxTxid = some (txid - 1)
  · obtain ⟨recovering, number, known⟩ := state.of_table present
    obtain ⟨linked, alive, _⟩ := state.recovery recovering
    have begun := (state.sound known).replica.start
    simp only [txidStart] at begun
    rw [leavePeer, if_pos present]
    refine ⟨state.sound, ?_, ?_, ?_⟩
    · intro keep
      obtain ⟨faultless, _, least⟩ := state.kept keep
      exact ⟨faultless, rfl, least⟩
    · intro _
      exact ⟨known, linked, alive, show peer.2.proc.txid = txid by omega⟩
    · intro notWorking
      exact absurd rfl notWorking
  · have notRecovering : peer.1.pstate ≠ .recovery := by
      intro recovering
      have number := (state.recovery recovering).2.2
      have := table _ number
      rw [number, Option.some_inj] at present
      omega
    rw [leavePeer, if_neg present]
    refine ⟨state.sound, ?_, ?_, ?_⟩
    · intro keep
      obtain ⟨faultless, connected, least⟩ := state.kept keep
      refine ⟨faultless, ?_, least⟩
      by_contra notWorking
      exact connected (state.others notRecovering notWorking).1
    · intro working
      obtain ⟨linked, alive, _⟩ := state.working working
      have connected : peer.1.pstate ≠ .waiting := by
        rw [working]
        simp
      exact ⟨state.reached connected, linked, alive, aligned working⟩
    · intro notWorking
      exact (state.others notRecovering notWorking).1

/-- The state after every participant was asked for its number. -/
def Sys.queried (s : Sys) : Sys :=
  ({ s with co := enterRecovery s.co } : Sys).onPeers s.co.ids
    (noteTxid ∘ recovPeer txidLog txidReq)

/-- Every number that a participant reports is the last one of the
coordinator. -/
def Sys.consistance (s : Sys) : Bool :=
  s.co.ids.all fun id =>
    ((recovPeer txidLog txidReq (joinPeer (s.peer id))).1.reported).all
      (· = s.co.txid - 1)

theorem Sys.peer_queried
    (s : Sys)
    {id : Nat}
    (inside : id ∈ s.co.ids) :
    s.queried.peer id = queryPeer (s.peer id) := by
  rw [Sys.queried, Sys.peer_onPeers, if_pos inside]
  rfl

/-- The beginning of `Recovery`, up to its comparison of the numbers. -/
theorem exec_recoveryBody_queried (minID : Nat) (s : Sys) :
    (recoveryBody minID).exec s =
      (if s.consistance then Prog.write leaveRecovery
      else do
        let co ← Prog.read
        recoveryFromP (leastTxid co minID + 1)
        Prog.write leaveRecovery : Prog Unit).exec s.queried := by
  let s₁ : Sys := { s with co := enterRecovery s.co }
  have posted : (postAll .recov txidReq s.co.ids).exec s₁ =
      some ((), s₁.onPeers s.co.ids (recovPeer txidLog txidReq)) :=
    exec_postAll_recov strToLog_txidReq s.co.nodup_ids s₁
  have collected := exec_collectTxids s.co.nodup_ids true
    (s₁.onPeers s.co.ids (recovPeer txidLog txidReq))
  have same : (s.co.ids.all fun id =>
        ((s₁.onPeers s.co.ids (recovPeer txidLog txidReq)).peer
          id).1.reported.all (· = s.co.txid - 1)) = s.consistance := by
    rw [Sys.consistance, Bool.eq_iff_iff, List.all_eq_true, List.all_eq_true]
    refine forall₂_congr fun id inside => ?_
    rw [Sys.peer_onPeers, if_pos inside,
      show s₁.peer id = joinPeer (s.peer id) from rfl]
  rw [Sys.onPeers_onPeers, Sys.onPeers_txid, Bool.true_and,
    show s₁.co.txid = s.co.txid from rfl, same] at collected
  rw [recoveryBody, Prog.exec_bind, Prog.exec_write, Option.bind_some,
    Prog.exec_bind, Prog.exec_read, Option.bind_some, Prog.exec_bind]
  change ((postAll .recov txidReq s.co.ids).exec s₁).bind _ = _
  rw [posted, Option.bind_some, Prog.exec_bind]
  change ((collectTxids s.co.ids true).exec _).bind _ = _
  rw [collected, Option.bind_some]
  rfl

section Whole

variable
  {admissible : Nat → Log → Prop}
  {duty : Nat → Duty}
  {s : Sys}

/-- After the query a first leader can be chosen. -/
theorem Choosing.queried
    (log : Committed admissible s.co.lg s.co.txid)
    (peers : ∀ id ∈ s.co.ids, Joining admissible (duty id) (s.peer id))
    {minID : Nat}
    (lower : txidStart ≤ minID + 1)
    (older : minID + 1 ≤ s.co.txid) :
    Choosing admissible duty s.queried (leastTxid s.queried.co minID + 1) := by
  have state : InRecovery admissible duty s.queried := by
    refine ⟨log, fun id inside => ?_⟩
    rw [s.peer_queried inside]
    exact (peers id inside).query.1
  have begun : ∀ id ∈ s.queried.co.ids, ∀ max,
      (s.queried.co.entry id).maxTxid = some max → txidStart ≤ max + 1 := by
    intro id inside max present
    obtain ⟨_, number, known⟩ := (state.peers id inside).of_table present
    have := ((state.peers id inside).sound known).replica.start
    omega
  obtain ⟨notMore, least, greatest⟩ := leastTxid_spec s.queried.co minID
  refine ⟨state, ?_, ?_, ?_, Or.inl fun id inside => ?_⟩
  · have := greatest (txidStart - 1) (by omega) fun id inside max present => by
      have := begun id inside max present
      omega
    omega
  · change leastTxid s.queried.co minID + 1 ≤ s.co.txid
    omega
  · intro id inside max present
    have := least id inside max present
    omega
  · rw [s.peer_queried inside]
    exact (peers id inside).query.2.1

/-- When every reported number is the coordinator's last one, nobody has to
catch up. -/
theorem Choosing.caught
    {minID : Nat}
    (choosing : Choosing admissible duty s.queried minID)
    (peers : ∀ id ∈ s.co.ids, Joining admissible (duty id) (s.peer id))
    (consistance : s.consistance = true) :
    Caught admissible duty s s.queried := by
  have begun := choosing.state.log.start
  have current := choosing.current
  simp only [txidStart] at begun
  refine ⟨choosing.state, .of_same rfl rfl rfl, ?_, ?_⟩
  · intro id inside max present
    have isReported := (peers id inside).query.2.2
    rw [← s.peer_queried inside, present] at isReported
    have equal := List.all_eq_true.mp consistance id inside
    rw [← isReported, Option.all_some, decide_eq_true_eq] at equal
    change 5 ≤ s.co.txid at begun
    change s.co.txid ≤ max + 1 ∧ max + 1 ≤ s.co.txid
    omega
  · intro id inside working
    rw [s.peer_queried inside] at working
    exact absurd working (peers id inside).query.2.1

theorem Sys.tableSize_lt (s : Sys) : s.tableSize < s.co.pnum + 1 := by
  have filtered : s.tableSize ≤ s.co.ids.toFinset.card :=
    Finset.card_filter_le _ _
  have listed := List.toFinset_card_le s.co.ids
  have count : s.co.ids.length = s.co.pnum := List.length_range'
  omega

/-- The end of `Recovery` puts everybody who has caught up back to work. -/
theorem Caught.leave
    {s' : Sys}
    (caught : Caught admissible duty s s') :
    Committed admissible (leaveRecovery s'.co).lg (leaveRecovery s'.co).txid ∧
      Advanced s.co (leaveRecovery s'.co) ∧
      ∀ id ∈ s.co.ids, Settled admissible (duty id) (leaveRecovery s'.co).txid
        (({ s' with co := leaveRecovery s'.co } : Sys).peer id) := by
  have advanced := caught.advanced
  refine ⟨caught.state.log, ⟨advanced.ids, advanced.forward,
    advanced.unchanged⟩, fun id inside => ?_⟩
  have inside' : id ∈ s'.co.ids := by
    rw [advanced.ids]
    exact inside
  refine (caught.state.peers id inside').leave caught.state.log.start ?_
    (caught.working id inside')
  intro max present
  have := caught.table id inside' max present
  exact (show max + 1 = s'.co.txid by omega)

/-- `Recovery` under its mutexes fails no assertion.  The coordinator's log
stays committed and only grows, and every participant is back at work with the
coordinator's number or waits. -/
theorem exec_recoveryBody
    (log : Committed admissible s.co.lg s.co.txid)
    (peers : ∀ id ∈ s.co.ids, Joining admissible (duty id) (s.peer id))
    {minID : Nat}
    (lower : txidStart ≤ minID + 1)
    (older : minID + 1 ≤ s.co.txid) :
    ∃ s', (recoveryBody minID).exec s = some ((), s') ∧
      Committed admissible s'.co.lg s'.co.txid ∧ Advanced s.co s'.co ∧
      ∀ id ∈ s.co.ids,
        Settled admissible (duty id) s'.co.txid (s'.peer id) := by
  have choosing := Choosing.queried log peers lower older
  rw [exec_recoveryBody_queried]
  by_cases consistance : s.consistance = true
  · rw [if_pos consistance]
    exact ⟨_, Prog.exec_write _ _, (choosing.caught peers consistance).leave⟩
  · obtain ⟨s₁, executed, caught⟩ :=
      exec_recoveryFromPLoop choosing rfl s.queried.tableSize_lt
    have same : Advanced s.co s.queried.co := .of_same rfl rfl rfl
    have fromStart : Caught admissible duty s s₁ :=
      ⟨caught.state, same.trans caught.advanced, caught.table, caught.working⟩
    refine ⟨{ s₁ with co := leaveRecovery s₁.co }, ?_, fromStart.leave⟩
    rw [if_neg consistance, Prog.exec_bind, Prog.exec_read, Option.bind_some,
      Prog.exec_bind, recoveryFromP, Prog.exec_bind, Prog.exec_read,
      Option.bind_some]
    change ((recoveryFromPLoop s.queried.co.ids (s.queried.co.pnum + 1)
      (leastTxid s.queried.co minID + 1)).exec s.queried).bind _ = _
    rw [executed, Option.bind_some, Prog.exec_write]

end Whole

end Lab3
end CloudComputing
