import CloudComputing.Lab3.Recovery

/-!
# Recovery on comparable logs

When the coordinator's committed log and the logs of the connected participants
are prefixes of each other, `Recovery` brings every participant that it puts
back to work to the coordinator's log, and without failures that log is the
longest one.  The records of comparable logs form one assignment of records to
transaction numbers, which serves as the admissible records of the recovery.
-/

namespace CloudComputing
namespace Lab3

open CloudComputing.Lab3.Parser Network

/-- The coordinator's committed records in the order of their numbers. -/
def Coordinator.history (co : Coordinator) : List Log :=
  IndexedLog.entries co.lg txidStart co.txid

/-- A participant that takes part in the next recovery. -/
def Entry.Connected (entry : Entry) : Prop :=
  entry.pstate = .temp ∨ entry.pstate = .working

/-- A state from which a recovery starts: the coordinator's log is complete up
to its number, the logs of the connected participants replay to their maps, and
all these logs are pairwise comparable. -/
structure Recoverable (s : Sys) : Prop where
  log : Committed (fun _ _ => True) s.co.lg s.co.txid
  table : ∀ id ∈ s.co.ids, (s.co.entry id).maxTxid = none
  states : ∀ id ∈ s.co.ids,
    (s.co.entry id).Connected ∨ (s.co.entry id).pstate = .waiting
  participants : ∀ id ∈ s.co.ids, (s.co.entry id).Connected →
    Replica (fun _ _ => True) (s.node id).proc ∧ (s.node id).late = none
  ahead : ∀ id ∈ s.co.ids, (s.co.entry id).Connected →
    s.co.history <+: (s.node id).proc.history ∨
      (s.node id).proc.history <+: s.co.history
  comparable : ∀ id ∈ s.co.ids, ∀ id' ∈ s.co.ids,
    (s.co.entry id).Connected → (s.co.entry id').Connected →
    (s.node id).proc.history <+: (s.node id').proc.history ∨
      (s.node id').proc.history <+: (s.node id).proc.history

namespace Recoverable

variable {s : Sys}

/-- The records of the logs before a recovery. -/
def Source (s : Sys) (id : Nat) (record : Log) : Prop :=
  (id < s.co.txid ∧ s.co.lg id = some record) ∨
    ∃ owner ∈ s.co.ids, (s.co.entry owner).Connected ∧
      (s.node owner).proc.lg id = some record

/-- Comparable logs hold at most one record for each number. -/
theorem source_functional
    (recoverable : Recoverable s)
    (id : Nat)
    (record record' : Log)
    (source : Source s id record)
    (source' : Source s id record') :
    record = record' := by
  have lowerOf : ∀ owner ∈ s.co.ids, (s.co.entry owner).Connected →
      ∀ record, (s.node owner).proc.lg id = some record →
        txidStart ≤ id ∧ id < (s.node owner).proc.txid := by
    intro owner inside connected record stored
    obtain ⟨lower, upper, _⟩ :=
      (recoverable.participants owner inside connected).1.within id record
        stored
    exact ⟨lower, upper⟩
  -- the coordinator against a participant
  have mixed : ∀ owner ∈ s.co.ids, (s.co.entry owner).Connected →
      id < s.co.txid → ∀ record,
        (s.node owner).proc.lg id = some record →
          s.co.lg id = some record := by
    intro owner inside connected below record stored
    obtain ⟨lower, upper⟩ := lowerOf owner inside connected record stored
    have replica := (recoverable.participants owner inside connected).1
    rw [recoverable.log.covers.agree_of_comparable recoverable.log.start
      replica.start replica.covers (recoverable.ahead owner inside connected)
      lower below upper, stored]
  rcases source with ⟨below, stored⟩ | ⟨owner, inside, connected, stored⟩
  · rcases source' with ⟨_, stored'⟩ | ⟨owner', inside', connected', stored'⟩
    · rw [stored, Option.some_inj] at stored'
      exact stored'
    · have same := mixed owner' inside' connected' below record' stored'
      rw [stored, Option.some_inj] at same
      exact same
  · rcases source' with ⟨below', stored'⟩ |
      ⟨owner', inside', connected', stored'⟩
    · have same := mixed owner inside connected below' record stored
      rw [stored', Option.some_inj] at same
      exact same.symm
    · have replica := (recoverable.participants owner inside connected).1
      have replica' := (recoverable.participants owner' inside' connected').1
      obtain ⟨lower, upper⟩ := lowerOf owner inside connected record stored
      obtain ⟨_, upper'⟩ := lowerOf owner' inside' connected' record' stored'
      have agree := replica.covers.agree_of_comparable replica.start
        replica'.start replica'.covers
        (recoverable.comparable owner inside owner' inside' connected
          connected') lower upper upper'
      rw [stored, stored', Option.some_inj] at agree
      exact agree

/-- One of the logs before a recovery reaches farthest. -/
theorem exists_longest
    (s : Sys)
    (ids : List Nat) :
    ∃ bound, s.co.txid ≤ bound ∧
      (∀ id ∈ ids, (s.co.entry id).Connected →
        (s.node id).proc.txid ≤ bound) ∧
      (bound = s.co.txid ∨ ∃ id ∈ ids, (s.co.entry id).Connected ∧
        bound = (s.node id).proc.txid) := by
  induction ids with
  | nil => exact ⟨s.co.txid, le_rfl, by simp, Or.inl rfl⟩
  | cons id ids inductionHypothesis =>
      obtain ⟨bound, notBelow, largest, holder⟩ := inductionHypothesis
      by_cases better : (s.co.entry id).Connected ∧
          bound < (s.node id).proc.txid
      · refine ⟨(s.node id).proc.txid, by omega, ?_,
          Or.inr ⟨id, by simp, better.1, rfl⟩⟩
        intro other member connected
        rcases List.mem_cons.mp member with rfl | member
        · exact le_rfl
        · have := largest other member connected
          omega
      · refine ⟨bound, notBelow, ?_, ?_⟩
        · intro other member connected
          rcases List.mem_cons.mp member with rfl | member
          · by_contra larger
            exact better ⟨connected, by omega⟩
          · exact largest other member connected
        · exact holder.imp_right fun ⟨other, member, rest⟩ =>
            ⟨other, List.mem_cons_of_mem id member, rest⟩

/-- What the recovery is to show of each participant. -/
def duty (s : Sys) (id : Nat) : Duty where
  known := (s.co.entry id).Connected
  traced := False
  keep := (s.co.entry id).Connected ∧ (s.node id).Faultless
  least := (s.node id).proc.txid

/-- Every participant is ready to join the recovery. -/
theorem joining
    (recoverable : Recoverable s)
    {bound : Nat}
    (largest : ∀ id ∈ s.co.ids, (s.co.entry id).Connected →
      (s.node id).proc.txid ≤ bound)
    {id : Nat}
    (inside : id ∈ s.co.ids) :
    Joining (fun id record => id < bound ∧ Source s id record) (duty s id)
      (s.peer id) where
  valid := by
    intro invalid
    rcases recoverable.states id inside with (temp | working) | waiting
    · exact absurd (temp.symm.trans invalid) (by simp)
    · exact absurd (working.symm.trans invalid) (by simp)
    · exact absurd (waiting.symm.trans invalid) (by simp)
  reached := fun notWaiting =>
    (recoverable.states id inside).resolve_right notWaiting
  sound := by
    intro connected
    obtain ⟨replica, quiet⟩ :=
      recoverable.participants id inside connected
    refine .of_quiet (replica.weaken ?_) quiet False.elim
    intro number record stored _
    have upper := (replica.within number record stored).2.1
    have := largest id inside connected
    exact ⟨by omega, Or.inr ⟨id, inside, connected, stored⟩⟩
  kept := by
    rintro ⟨connected, faultless⟩
    refine ⟨faultless, ?_, le_rfl⟩
    intro waiting
    rcases connected with temp | working
    · exact absurd (temp.symm.trans waiting) (by simp)
    · exact absurd (working.symm.trans waiting) (by simp)
  table := recoverable.table id inside

/-- What a recovery leaves, when the logs before it reach up to `bound`. -/
structure Recovered (s s' : Sys) (bound : Nat) : Prop where
  log : Committed (fun id record => id < bound ∧ Source s id record)
    s'.co.lg s'.co.txid
  advanced : Advanced s.co s'.co
  settled : ∀ id ∈ s.co.ids,
    Settled (fun id record => id < bound ∧ Source s id record) (duty s id)
      s'.co.txid (s'.peer id)

namespace Recovered

variable
  {s s' : Sys}
  {bound : Nat}

/-- The coordinator does not come past the farthest log. -/
theorem notAbove
    (recovered : Recovered s s' bound)
    (started : txidStart ≤ bound) :
    s'.co.txid ≤ bound := by
  by_contra higher
  obtain ⟨record, stored⟩ :=
    recovered.log.covers bound started (by omega)
  have := (recovered.log.records bound record stored (by omega)).2.1
  omega

/-- A log before the recovery that is no longer is a prefix. -/
theorem history_prefix
    (recovered : Recovered s s' bound)
    (recoverable : Recoverable s)
    (largest : ∀ id ∈ s.co.ids, (s.co.entry id).Connected →
      (s.node id).proc.txid ≤ bound)
    {id : Nat}
    (inside : id ∈ s.co.ids)
    (connected : (s.co.entry id).Connected)
    (reached : (s.node id).proc.txid ≤ s'.co.txid) :
    (s.node id).proc.history <+: s'.co.history := by
  have replica := (recoverable.participants id inside connected).1
  have log := recovered.log
  refine (replica.covers.entries_prefix_iff replica.start log.covers).mpr
    ⟨Or.inl reached, fun number lower upper => ?_⟩
  refine replica.covers.agree_of_functional
    (fun id record record' left right =>
      recoverable.source_functional id record record' left.2 right.2)
    log.covers ?_
    (fun id record stored below => (log.records id record stored below).2)
    lower upper (by omega)
  intro number record stored below
  have := largest id inside connected
  exact ⟨by omega, Or.inr ⟨id, inside, connected, stored⟩⟩

/-- The coordinator's log has only grown. -/
theorem extended
    (recovered : Recovered s s' bound)
    (recoverable : Recoverable s) :
    s.co.history <+: s'.co.history := by
  have log := recoverable.log
  refine (log.covers.entries_prefix_iff log.start recovered.log.covers).mpr
    ⟨Or.inl recovered.advanced.forward, fun id _ below => ?_⟩
  exact (recovered.advanced.unchanged id below).symm

/-- A participant back at work has the coordinator's log, and the map that it
replays to. -/
theorem aligned
    (recovered : Recovered s s' bound)
    (recoverable : Recoverable s)
    {id : Nat}
    (inside : id ∈ s.co.ids)
    (working : (s'.co.entry id).pstate = .working) :
    (s'.node id).proc.txid = s'.co.txid ∧
      (s'.node id).proc.history = s'.co.history ∧
      (s'.node id).proc.kvdb =
        s'.co.history.foldl applyEvent KV.empty := by
  have log := recovered.log
  have settled := recovered.settled id inside
  obtain ⟨known, _, _, aligned⟩ := settled.working working
  have replica := (settled.sound known).replica
  have same : (s'.node id).proc.history = s'.co.history := by
    have aligned' : (s'.node id).proc.txid = s'.co.txid := aligned
    rw [Participant.history, Coordinator.history, aligned']
    apply IndexedLog.entries_congr
    intro number lower upper
    refine replica.covers.agree_of_functional
      (fun id record record' left right =>
        recoverable.source_functional id record record' left.2 right.2)
      log.covers ?_
      (fun id record stored below => (log.records id record stored below).2)
      lower (by rw [aligned]; exact upper) upper
    intro number record stored _
    exact (replica.within number record stored).2.2.2
  refine ⟨aligned, same, ?_⟩
  rw [← same]
  exact replica.store

/-- A participant that does not fail is back at work, with a log that is no
shorter. -/
theorem finished
    (recovered : Recovered s s' bound)
    {id : Nat}
    (inside : id ∈ s.co.ids)
    (connected : (s.co.entry id).Connected)
    (faultless : (s.node id).Faultless) :
    (s'.co.entry id).pstate = .working ∧
      (s.node id).proc.txid ≤ s'.co.txid := by
  obtain ⟨_, working, least⟩ :=
    (recovered.settled id inside).kept ⟨connected, faultless⟩
  have aligned := ((recovered.settled id inside).working working).2.2.2
  exact ⟨working, aligned ▸ least⟩

end Recovered

end Recoverable

open Recoverable in
/-- Recovery on comparable logs: the coordinator's log extends its previous
one, every participant back at work has the coordinator's log and the map that
it replays to, and if no connected participant fails, all of them are back at
work and the log is the longest of those before. -/
theorem recovery_correct
    {s : Sys}
    (recoverable : Recoverable s)
    {minID : Nat}
    (lower : txidStart ≤ minID + 1)
    (older : minID + 1 ≤ s.co.txid) :
    ∃ s', (recoveryBody minID).exec s = some ((), s') ∧
      s.co.history <+: s'.co.history ∧
      (∀ id ∈ s.co.ids, (s'.co.entry id).pstate = .working →
        (s'.node id).restarted = false →
          (s'.node id).proc.txid = s'.co.txid ∧
          (s'.node id).proc.history = s'.co.history ∧
          (s'.node id).proc.kvdb =
            s'.co.history.foldl applyEvent KV.empty) ∧
      ((∀ id ∈ s.co.ids, (s.co.entry id).Connected →
          (s.node id).Faultless) →
        (∀ id ∈ s.co.ids, (s.co.entry id).Connected →
          (s'.co.entry id).pstate = .working ∧
          (s.node id).proc.history <+: s'.co.history) ∧
        (s'.co.history = s.co.history ∨
          ∃ id ∈ s.co.ids, (s.co.entry id).Connected ∧
            s'.co.history = (s.node id).proc.history)) := by
  obtain ⟨bound, notBelow, largest, holder⟩ := exists_longest s s.co.ids
  have log : Committed (fun id record => id < bound ∧ Source s id record)
      s.co.lg s.co.txid :=
    recoverable.log.weaken fun id record stored below _ =>
      ⟨by omega, Or.inl ⟨below, stored⟩⟩
  obtain ⟨s', executed, log', advanced, settled⟩ :=
    exec_recoveryBody log (fun id inside => recoverable.joining largest inside)
      lower older
  have recovered : Recovered s s' bound := ⟨log', advanced, settled⟩
  have notAbove := recovered.notAbove (log.start.trans notBelow)
  have extended := recovered.extended recoverable
  refine ⟨s', executed, extended, ?_, ?_⟩
  · intro id inside working _
    exact recovered.aligned recoverable inside working
  · intro faultless
    have kept : ∀ id ∈ s.co.ids, (s.co.entry id).Connected →
        (s'.co.entry id).pstate = .working ∧
          (s.node id).proc.txid ≤ s'.co.txid ∧
          (s.node id).proc.history <+: s'.co.history := by
      intro id inside connected
      obtain ⟨working, reached⟩ := recovered.finished inside connected
        (faultless id inside connected)
      exact ⟨working, reached,
        recovered.history_prefix recoverable largest inside connected reached⟩
    refine ⟨fun id inside connected => ?_, ?_⟩
    · obtain ⟨working, _, isPrefix⟩ := kept id inside connected
      exact ⟨working, isPrefix⟩
    · rcases holder with isBound | ⟨id, inside, connected, isBound⟩
      · left
        have forward := advanced.forward
        refine (List.IsPrefix.eq_of_length extended ?_).symm
        rw [Coordinator.history, Coordinator.history,
          log.covers.length_entries, log'.covers.length_entries]
        omega
      · right
        obtain ⟨_, reached, isPrefix⟩ := kept id inside connected
        have replica := (recoverable.participants id inside connected).1
        refine ⟨id, inside, connected, ?_⟩
        refine (List.IsPrefix.eq_of_length isPrefix ?_).symm
        rw [Coordinator.history, Participant.history,
          replica.covers.length_entries, log'.covers.length_entries]
        omega

/-- A participant that has executed one command, connected to a new
coordinator together with a new participant. -/
def oneAhead : Sys where
  co := { Coordinator.init 2 with
    entry := fun _ => { Entry.init with pstate := .temp } }
  node id :=
    { proc := if id = 1 then
        Participant.init.append [str "SET", str "k", str "v"]
      else .init
      link := true
      late := none
      restarted := false
      received := []
      fates := [] }

theorem oneAhead_recoverable : Recoverable oneAhead := by
  have connected : ∀ id, (oneAhead.co.entry id).Connected :=
    fun _ => Or.inl rfl
  have replica : ∀ id, Replica (fun _ _ => True) (oneAhead.node id).proc := by
    intro id
    simp only [oneAhead]
    split
    · refine Replica.init.append ?_ trivial
      exact
        { number := rfl
          committed := rfl
          lower := le_rfl
          small := by decide
          event := ⟨_, rfl, by decide, by decide⟩
          sendable := by decide }
    · exact .init
  have empty : ∀ id, id ≠ 1 → (oneAhead.node id).proc.history = [] := by
    intro id other
    simp [oneAhead, other, Participant.history, Participant.init]
  refine ⟨.init, fun _ _ => rfl, fun id _ => Or.inl (connected id),
    fun id _ _ => ⟨replica id, rfl⟩, fun id _ _ => Or.inl ?_,
    fun id _ id' _ _ _ => ?_⟩
  · have none : oneAhead.co.history = [] := IndexedLog.entries_self _ _
    rw [none]
    exact List.nil_prefix
  · by_cases first : id = 1
    · by_cases first' : id' = 1
      · rw [first, first']
        exact Or.inl (List.prefix_refl _)
      · rw [empty id' first']
        exact Or.inr List.nil_prefix
    · rw [empty id first]
      exact Or.inl List.nil_prefix

theorem recovery_correct_oneAhead :
    ∃ s', (recoveryBody 4).exec oneAhead = some ((), s') ∧
      ∀ id ∈ oneAhead.co.ids, (s'.co.entry id).pstate = .working ∧
        (oneAhead.node id).proc.history <+: s'.co.history := by
  obtain ⟨s', executed, _, _, faultless⟩ :=
    recovery_correct oneAhead_recoverable
      (show txidStart ≤ 4 + 1 by decide) (by decide)
  have answers : ∀ id ∈ oneAhead.co.ids, (oneAhead.co.entry id).Connected →
      (oneAhead.node id).Faultless := by
    intro id _ _
    exact ⟨rfl, by simp [oneAhead]⟩
  exact ⟨s', executed, fun id inside =>
    (faultless answers).1 id inside (Or.inl rfl)⟩

end Lab3
end CloudComputing
