import CloudComputing.Lab3.Update
import CloudComputing.Lib.Runs

/-!
# The system of coordinator and participants

The coordinator with its participants as a transition system.  `UpdateDB`,
`Request` and `Recovery` exclude each other by `_workingMutex`, so each of them
is one event here; what the network and the participants do during a call are
the fates given with the event.  The other events are those that can happen
between two calls: connections break and come back, participants restart, late
requests are executed or lost, the coordinator restarts, and the threads
`_workThread` and `_recoveryThread` move on outside the mutex.

A failure that strikes during a call is a fate of its exchanges.  A coordinator
that dies during a call leaves its participants as a call does whose remaining
exchanges never arrive, followed by `restart`.
-/

namespace CloudComputing
namespace Lab3

open CloudComputing.Lab3.Parser Network

/-- Where the recovery thread stands in `Recovery`. -/
inductive RecoveryPhase
  /-- Before the call. -/
  | idle
  /-- In the loop that waits for `_tmpNum`. -/
  | waiting (minID : Nat)
  /-- In front of the two mutexes. -/
  | locking (minID : Nat)
  /-- Behind the two mutexes. -/
  | leaving
  deriving DecidableEq, Repr

/-- The system with its threads, and the answers given to clients so far. -/
structure World where
  sys : Sys
  /-- Where the recovery thread stands. -/
  phase : RecoveryPhase
  /-- The command with which `Working` stands in front of `_workingMutex`. -/
  pending : Option (List Bytes)
  /-- The commands and their answers, the latest first. -/
  answers : List (List Bytes × Bytes)

/-- The events of the system. -/
inductive Event
  /-- A connection breaks. -/
  | drop (id : Nat)
  /-- A participant's process ends and starts again. -/
  | crash (id : Nat)
  /-- A participant executes a request from its old connection. -/
  | drain (id : Nat)
  /-- A request in an old connection is lost. -/
  | lose (id : Nat)
  /-- `keepAlive` connects to a participant again. -/
  | reconnect (id : Nat)
  /-- The coordinator's process ends and starts again. -/
  | restart
  /-- `Recovery` is called and computes `minID`. -/
  | recoveryEnter
  /-- `Recovery` leaves its waiting loop. -/
  | recoveryWake
  /-- `Recovery` runs under the mutexes. -/
  | recoveryRun (fates : Nat → List Fate)
  /-- `Recovery` returns. -/
  | recoveryLeave
  /-- `Working` receives a command. -/
  | request (task : List Bytes)
  /-- `Working` runs under the mutex and answers. -/
  | serve (fates : Nat → List Fate)

namespace Sys

/-- Replace a participant. -/
def setNode (s : Sys) (id : Nat) (node : Node) : Sys :=
  { s with node := Function.update s.node id node }

/-- The fates of the exchanges of the next call. -/
def withFates (s : Sys) (fates : Nat → List Fate) : Sys :=
  { s with node := fun id => { s.node id with fates := fates id } }

/-- `keepAlive` after a successful `reconnect`. -/
def reconnect (s : Sys) (id : Nat) : Sys :=
  { co := { s.co.setEntry id { s.co.entry id with pstate := .temp } with
      tmpNum := s.co.tmpNum + 1 }
    node := Function.update s.node id { s.node id with link := true } }

/-- A new coordinator process for the same participants. -/
def restart (s : Sys) : Sys :=
  { co := .init s.co.pnum
    node := fun id => { s.node id with link := false } }

/-- `maxTxidTB.clear()` -/
def clearTable (s : Sys) : Sys :=
  { s with
    co := { s.co with
      entry := fun id => { s.co.entry id with maxTxid := none } } }

/-- Assign to `_cstate`. -/
def setCState (s : Sys) (cstate : CState) : Sys :=
  { s with co := { s.co with cstate := cstate } }

end Sys

namespace World

/-- `pnum` new participants and a new coordinator. -/
def init (pnum : Nat) : World where
  sys :=
    { co := .init pnum
      node := fun _ =>
        { proc := .init
          link := false
          late := none
          restarted := false
          received := []
          fates := [] } }
  phase := .idle
  pending := none
  answers := []

/-- Replace the state of a participant that exists. -/
def onNode (w : World) (id : Nat) (change : Node → Node) : Option World :=
  if id ∈ w.sys.co.ids then
    some { w with sys := w.sys.setNode id (change (w.sys.node id)) }
  else none

/-- One event; `none` when it is not possible, or when an assertion of the
coordinator fails. -/
def step (w : World) : Event → Option World
  | .drop id => w.onNode id fun node => { node with link := false }
  | .crash id => w.onNode id Node.crash
  | .drain id => w.onNode id Node.drain
  | .lose id => w.onNode id fun node => { node with late := none }
  | .reconnect id =>
      if id ∈ w.sys.co.ids ∧ (w.sys.co.entry id).pstate = .waiting ∧
          (w.sys.node id).late = none then
        some { w with sys := w.sys.reconnect id }
      else none
  | .restart =>
      some { w with sys := w.sys.restart, phase := .idle, pending := none }
  | .recoveryEnter =>
      match w.phase with
      | .idle =>
          some { w with
            sys := w.sys.clearTable, phase := .waiting (w.sys.co.txid - 1) }
      | _ => none
  | .recoveryWake =>
      match w.phase with
      | .waiting minID =>
          if w.sys.co.tmpNum ≠ 0 then
            some { w with
              sys := w.sys.setCState .recovery, phase := .locking minID }
          else none
      | _ => none
  | .recoveryRun fates =>
      match w.phase with
      | .locking minID => do
          let ((), sys) ← (recoveryBody minID).exec (w.sys.withFates fates)
          some { w with sys := sys, phase := .leaving }
      | _ => none
  | .recoveryLeave =>
      match w.phase with
      | .leaving =>
          some { w with sys := w.sys.setCState .working, phase := .idle }
      | _ => none
  | .request task =>
      match w.pending with
      | some _ => none
      | none =>
          if task.length < 1 ∨ w.sys.co.cstate ≠ .working then
            some { w with answers := (task, getErrorMessage) :: w.answers }
          else some { w with pending := some task }
  | .serve fates =>
      match w.pending with
      | none => none
      | some task => do
          let (rc, sys) ← (dispatch task).exec (w.sys.withFates fates)
          some { w with
            sys := sys, pending := none, answers := (task, rc) :: w.answers }

/-- Execute events whose check succeeds. -/
def runChecked
    (check : World → Event → Bool)
    (events : List Event)
    (w : World) : Option World :=
  events.foldlM (fun w event => if check w event then w.step event else none) w

/-- The states after any events from the start with `pnum` participants. -/
def Reachable (pnum : Nat) (w : World) : Prop :=
  ∃ events, Run step Run.free (init pnum) events w

end World

/-! ## The invariant -/

namespace AtRest

variable {admissible : Nat → Log → Prop} {s : Sys}

/-- Only what belongs to the participants has changed. -/
theorem of_peers
    (rest : AtRest admissible s)
    {s' : Sys}
    (ids : s'.co.ids = s.co.ids)
    (txid : s'.co.txid = s.co.txid)
    (lg : s'.co.lg = s.co.lg)
    (peers : ∀ id ∈ s.co.ids, Resting admissible s.co.txid (s'.peer id)) :
    AtRest admissible s' where
  log := by
    rw [lg, txid]
    exact rest.log
  peers := by
    intro id inside
    rw [txid]
    exact peers id (ids ▸ inside)

/-- One participant has changed. -/
theorem setNode
    (rest : AtRest admissible s)
    {id : Nat}
    {node : Node}
    (kept : Resting admissible s.co.txid (s.co.entry id, node)) :
    AtRest admissible (s.setNode id node) := by
  refine rest.of_peers rfl rfl rfl fun other inside => ?_
  by_cases same : other = id
  · rw [same, Sys.peer, Sys.setNode]
    simp only [Function.update_self]
    exact kept
  · rw [Sys.peer, Sys.setNode]
    simp only [Function.update_of_ne same]
    exact rest.peers other inside

theorem withFates
    (rest : AtRest admissible s)
    (fates : Nat → List Fate) :
    AtRest admissible (s.withFates fates) := by
  refine rest.of_peers rfl rfl rfl fun id inside => ?_
  have state := rest.peers id inside
  exact
    { valid := state.valid
      sound := state.sound.congr rfl rfl rfl state.sound.closed
      late := state.late
      connected := state.connected
      aligned := state.aligned }

end AtRest

namespace Resting

variable
  {admissible : Nat → Log → Prop}
  {txid : Nat}
  {entry : Entry}
  {node : Node}

theorem drop
    (state : Resting admissible txid (entry, node)) :
    Resting admissible txid (entry, { node with link := false }) where
  valid := state.valid
  sound := state.sound.congr rfl rfl rfl (by simp)
  late := state.late
  connected := by simp
  aligned := state.aligned

theorem crash
    (state : Resting admissible txid (entry, node)) :
    Resting admissible txid (entry, node.crash) where
  valid := state.valid
  sound := .of_quiet .init rfl fun _ => .of_new rfl rfl rfl
  late := fun isLate => absurd rfl isLate
  connected := by simp [Node.crash]
  aligned := by simp [Node.crash]

theorem drain
    (state : Resting admissible txid (entry, node)) :
    Resting admissible txid (entry, node.drain) := by
  cases request : node.late with
  | none =>
      have same : node.drain = node := by rw [Node.drain, request]
      rw [same]
      exact state
  | some smsg =>
      have waiting : entry.pstate = .waiting :=
        state.late (by simp [request])
      exact
        { valid := state.valid
          sound := state.sound.drain
          late := fun _ => waiting
          connected := fun working => absurd (waiting.symm.trans working)
            (by simp)
          aligned := fun working => absurd (waiting.symm.trans working)
            (by simp) }

theorem lose
    (state : Resting admissible txid (entry, node)) :
    Resting admissible txid (entry, { node with late := none }) where
  valid := state.valid
  sound := by
    refine .of_quiet state.sound.replica rfl fun isTraced => ?_
    obtain ⟨served, messages, _⟩ := state.sound.trace isTraced
    exact ⟨served, messages, by simp⟩
  late := fun isLate => absurd rfl isLate
  connected := state.connected
  aligned := state.aligned

theorem reconnect
    (state : Resting admissible txid (entry, node))
    (quiet : node.late = none) :
    Resting admissible txid
      ({ entry with pstate := .temp }, { node with link := true }) where
  valid := by simp
  sound := state.sound.congr rfl rfl rfl fun _ => quiet
  late := fun isLate => absurd quiet isLate
  connected := by simp
  aligned := by simp

theorem restart
    (state : Resting admissible txid (entry, node))
    (txid' : Nat) :
    Resting admissible txid' (.init, { node with link := false }) where
  valid := by simp [Entry.init]
  sound := state.sound.congr rfl rfl rfl (by simp)
  late := fun _ => rfl
  connected := by simp
  aligned := by simp [Entry.init]

/-- What a recovery is to show of a participant of the system. -/
def duty : Duty where
  known := True
  traced := True
  keep := False
  least := 0

theorem joining
    (state : Resting admissible txid (entry, node))
    (table : entry.maxTxid = none) :
    Joining admissible duty (entry, node) where
  valid := state.valid
  reached := fun _ => trivial
  sound := fun _ => state.sound
  kept := False.elim
  table := table

theorem of_settled
    {peer : Entry × Node}
    (state : Settled admissible duty txid peer) :
    Resting admissible txid peer where
  valid := by
    intro invalid
    have waiting := state.others (by rw [invalid]; simp)
    rw [invalid] at waiting
    cases waiting
  sound := state.sound trivial
  late := by
    intro isLate
    refine state.others fun working => isLate ?_
    exact (state.sound trivial).closed (state.working working).2.1
  connected := fun working _ => (state.working working).2.2.1
  aligned := fun working _ => (state.working working).2.2.2

end Resting

namespace World

/-- The invariant of the system: it is at rest, and a recovery that has begun
has cleared the table and computed `minID` from a number that the coordinator
has had. -/
structure Ok (admissible : Nat → Log → Prop) (w : World) : Prop where
  rest : AtRest admissible w.sys
  recovery : ∀ minID, w.phase = .waiting minID ∨ w.phase = .locking minID →
    txidStart ≤ minID + 1 ∧ minID + 1 ≤ w.sys.co.txid ∧
      ∀ id ∈ w.sys.co.ids, (w.sys.peer id).1.maxTxid = none

/-- The record of an update that the event executes is admissible, unless its
commit reaches nobody. -/
def Admits
    (admissible : Nat → Log → Prop)
    (w : World)
    (event : Event) : Prop :=
  ∀ fates, event = .serve fates → ∀ task, w.pending = some task →
    isUpdate task = true → CommitDelivered (w.sys.withFates fates) →
    LogRecord w.sys.co.txid
      ⟨w.sys.co.txid, .commit, getRESPArry task⟩ →
    admissible w.sys.co.txid ⟨w.sys.co.txid, .commit, getRESPArry task⟩

/-- The new participants and the new coordinator. -/
theorem Ok.init
    (admissible : Nat → Log → Prop)
    (pnum : Nat) :
    (World.init pnum).Ok admissible where
  rest :=
    { log := .init
      peers := fun id _ =>
        { valid := by simp [World.init, Sys.peer, Coordinator.init, Entry.init]
          sound := .of_quiet .init rfl fun _ => .of_new rfl rfl rfl
          late := fun isLate => absurd rfl isLate
          connected := by
            simp [World.init, Sys.peer, Coordinator.init, Entry.init]
          aligned := by
            simp [World.init, Sys.peer, Coordinator.init, Entry.init] } }
  recovery := by
    rintro minID (waiting | locking)
    · cases waiting
    · cases locking

section Step

variable
  {admissible : Nat → Log → Prop}
  {w w' : World}

theorem Ok.onNode
    (ok : w.Ok admissible)
    {id : Nat}
    {change : Node → Node}
    (kept : ∀ entry node txid, Resting admissible txid (entry, node) →
      Resting admissible txid (entry, change node))
    (taken : w.onNode id change = some w') :
    w'.Ok admissible ∧ Advanced w.sys.co w'.sys.co := by
  rw [World.onNode] at taken
  split at taken
  · rename_i inside
    cases taken
    refine ⟨⟨ok.rest.setNode (kept _ _ _ (ok.rest.peers id inside)), ?_⟩,
      .refl _⟩
    exact ok.recovery
  · cases taken

theorem Ok.reconnect
    (ok : w.Ok admissible)
    {id : Nat}
    (taken : w.step (.reconnect id) = some w') :
    w'.Ok admissible ∧ Advanced w.sys.co w'.sys.co := by
  simp only [World.step] at taken
  split at taken
  · rename_i possible
    obtain ⟨inside, _, quiet⟩ := possible
    cases taken
    have peer : ∀ other, (w.sys.reconnect id).peer other =
        if other = id then
          ({ w.sys.co.entry id with pstate := .temp },
            { w.sys.node id with link := true })
        else w.sys.peer other := by
      intro other
      by_cases same : other = id
      · simp [Sys.reconnect, Sys.peer, Coordinator.setEntry, same]
      · simp [Sys.reconnect, Sys.peer, Coordinator.setEntry, same]
    refine ⟨⟨ok.rest.of_peers rfl rfl rfl fun other member => ?_,
      fun minID begun => ?_⟩, .of_same rfl rfl rfl⟩
    · rw [peer]
      split
      · exact (ok.rest.peers id inside).reconnect quiet
      · exact ok.rest.peers other member
    · obtain ⟨lower, older, table⟩ := ok.recovery minID begun
      refine ⟨lower, older, fun other member => ?_⟩
      rw [peer]
      split
      · exact table id inside
      · exact table other member
  · cases taken

theorem Ok.restart
    (ok : w.Ok admissible)
    (taken : w.step .restart = some w') :
    w'.Ok admissible := by
  cases taken
  refine ⟨⟨.init, fun id inside => ?_⟩, ?_⟩
  · exact (ok.rest.peers id inside).restart txidStart
  · rintro minID (waiting | locking)
    · cases waiting
    · cases locking

theorem Ok.recoveryEnter
    (ok : w.Ok admissible)
    (taken : w.step .recoveryEnter = some w') :
    w'.Ok admissible ∧ Advanced w.sys.co w'.sys.co := by
  simp only [World.step] at taken
  split at taken
  · cases taken
    refine ⟨⟨ok.rest.of_peers rfl rfl rfl fun id inside => ?_, ?_⟩,
      .of_same rfl rfl rfl⟩
    · have state := ok.rest.peers id inside
      exact ⟨state.valid, state.sound, state.late, state.connected,
        state.aligned⟩
    · have start := ok.rest.log.start
      simp only [txidStart] at start
      rintro minID (waiting | locking)
      · cases waiting
        refine ⟨?_, ?_, fun _ _ => rfl⟩
        · simp only [txidStart]
          omega
        · exact (show w.sys.co.txid - 1 + 1 ≤ w.sys.co.txid by omega)
      · cases locking
  · cases taken

theorem Ok.recoveryWake
    (ok : w.Ok admissible)
    (taken : w.step .recoveryWake = some w') :
    w'.Ok admissible ∧ Advanced w.sys.co w'.sys.co := by
  simp only [World.step] at taken
  split at taken
  · rename_i minID isWaiting
    split at taken
    · cases taken
      refine ⟨⟨ok.rest.of_peers rfl rfl rfl fun id inside =>
        ok.rest.peers id inside, ?_⟩, .of_same rfl rfl rfl⟩
      rintro minID' (waiting | locking)
      · cases waiting
      · cases locking
        exact ok.recovery minID (Or.inl isWaiting)
    · cases taken
  · cases taken

theorem Ok.recoveryRun
    (ok : w.Ok admissible)
    {fates : Nat → List Fate}
    (taken : w.step (.recoveryRun fates) = some w') :
    w'.Ok admissible ∧ Advanced w.sys.co w'.sys.co := by
  simp only [World.step] at taken
  split at taken
  · rename_i minID isLocking
    obtain ⟨lower, older, table⟩ := ok.recovery minID (Or.inr isLocking)
    have rest := ok.rest.withFates fates
    obtain ⟨sys, executed, log, advanced, settled⟩ :=
      exec_recoveryBody rest.log
        (fun id inside => (rest.peers id inside).joining (table id inside))
        lower older
    rw [executed] at taken
    cases taken
    refine ⟨⟨⟨log, fun id inside => ?_⟩, ?_⟩,
      ⟨advanced.ids, advanced.forward, advanced.unchanged⟩⟩
    · exact .of_settled (settled id (advanced.ids ▸ inside))
    · rintro minID' (waiting | locking)
      · cases waiting
      · cases locking
  · cases taken

theorem Ok.recoveryLeave
    (ok : w.Ok admissible)
    (taken : w.step .recoveryLeave = some w') :
    w'.Ok admissible ∧ Advanced w.sys.co w'.sys.co := by
  simp only [World.step] at taken
  split at taken
  · cases taken
    refine ⟨⟨ok.rest.of_peers rfl rfl rfl fun id inside =>
      ok.rest.peers id inside, ?_⟩, .of_same rfl rfl rfl⟩
    rintro minID (waiting | locking)
    · cases waiting
    · cases locking
  · cases taken

theorem Ok.request
    (ok : w.Ok admissible)
    {task : List Bytes}
    (taken : w.step (.request task) = some w') :
    w'.Ok admissible ∧ Advanced w.sys.co w'.sys.co := by
  simp only [World.step] at taken
  split at taken
  · cases taken
  · split at taken
    · cases taken
      exact ⟨⟨ok.rest, ok.recovery⟩, .refl _⟩
    · cases taken
      exact ⟨⟨ok.rest, ok.recovery⟩, .refl _⟩

theorem Ok.serve
    (ok : w.Ok admissible)
    {fates : Nat → List Fate}
    (admits : w.Admits admissible (.serve fates))
    (taken : w.step (.serve fates) = some w') :
    w'.Ok admissible ∧ Advanced w.sys.co w'.sys.co := by
  simp only [World.step] at taken
  split at taken
  · cases taken
  · rename_i task isPending
    obtain ⟨reply, sys, executed, dispatched⟩ :=
      exec_dispatch (w.sys.withFates fates) task
    rw [executed] at taken
    cases taken
    obtain ⟨rest, advanced⟩ := dispatched.atRest
      (ok.rest.withFates fates) fun update delivered well =>
        admits fates rfl task isPending update delivered well
    refine ⟨⟨rest, fun minID begun => ?_⟩,
      ⟨advanced.ids, advanced.forward, advanced.unchanged⟩⟩
    obtain ⟨lower, older, table⟩ := ok.recovery minID begun
    refine ⟨lower, older.trans advanced.forward, fun id inside => ?_⟩
    rw [dispatched.maxTxid id]
    exact table id (advanced.ids ▸ inside)

/-- Every event keeps the invariant, and only a restart of the coordinator
undoes what is committed. -/
theorem Ok.step
    (ok : w.Ok admissible)
    {event : Event}
    (admits : w.Admits admissible event)
    (taken : w.step event = some w') :
    w'.Ok admissible ∧
      (event ≠ .restart → Advanced w.sys.co w'.sys.co) := by
  have whenever : w'.Ok admissible ∧ Advanced w.sys.co w'.sys.co →
      w'.Ok admissible ∧
        (event ≠ .restart → Advanced w.sys.co w'.sys.co) :=
    And.imp_right fun advanced _ => advanced
  cases event with
  | drop id =>
      exact whenever (ok.onNode (fun _ _ _ state => state.drop) taken)
  | crash id =>
      exact whenever (ok.onNode (fun _ _ _ state => state.crash) taken)
  | drain id =>
      exact whenever (ok.onNode (fun _ _ _ state => state.drain) taken)
  | lose id =>
      exact whenever (ok.onNode (fun _ _ _ state => state.lose) taken)
  | reconnect id => exact whenever (ok.reconnect taken)
  | restart => exact ⟨ok.restart taken, fun other => absurd rfl other⟩
  | recoveryEnter => exact whenever (ok.recoveryEnter taken)
  | recoveryWake => exact whenever (ok.recoveryWake taken)
  | recoveryRun fates => exact whenever (ok.recoveryRun taken)
  | recoveryLeave => exact whenever (ok.recoveryLeave taken)
  | request task => exact whenever (ok.request taken)
  | serve fates => exact whenever (ok.serve admits taken)

end Step

/-- The invariant of a run in which the records of all executed updates are
admissible. -/
theorem Ok.run
    {admissible : Nat → Log → Prop}
    {w w' : World}
    {events : List Event}
    (run : Run World.step (World.Admits admissible) w events w')
    (ok : w.Ok admissible) :
    w'.Ok admissible :=
  run.preserves
    (fun _ _ _ before admits taken => (before.step admits taken).1) ok

/-- Without a condition on the records the invariant holds in every reachable
state. -/
theorem Reachable.ok
    {pnum : Nat}
    {w : World}
    (reachable : Reachable pnum w) :
    w.Ok fun _ _ => True := by
  obtain ⟨events, run⟩ := reachable
  exact (Ok.init _ pnum).run
    (run.mono fun _ _ _ _ _ _ _ _ _ _ => trivial)

/-- Nothing changes who the participants are. -/
theorem Reachable.ids
    {pnum : Nat}
    {w : World}
    (reachable : Reachable pnum w) :
    w.sys.co.ids = (Coordinator.init pnum).ids := by
  obtain ⟨events, run⟩ := reachable
  have keeps : ∀ (before : World) event after,
      before.Ok (fun _ _ => True) ∧
        before.sys.co.ids = (Coordinator.init pnum).ids →
      Run.free before event → before.step event = some after →
      after.Ok (fun _ _ => True) ∧
        after.sys.co.ids = (Coordinator.init pnum).ids := by
    intro before event after both _ taken
    obtain ⟨ok, same⟩ := both
    obtain ⟨ok', advanced⟩ := ok.step (fun _ _ _ _ _ _ _ => trivial) taken
    refine ⟨ok', ?_⟩
    by_cases restarts : event = .restart
    · subst restarts
      cases taken
      exact same
    · exact (advanced restarts).ids.trans same
  exact (run.preserves keeps ⟨.init _ pnum, rfl⟩).2

end World
end Lab3
end CloudComputing
