import CloudComputing.Lab3.Histories

/-!
# Calls in the system of calls

The events of one command and of one recovery, from the receipt of the command
or the end of the waiting loop to the end of the call, as runs of the system.
A recovery finds out whether to go on by `_tmpNum`, which is not zero while a
participant is in `P_TEMP`.
-/

namespace CloudComputing
namespace Lab3

open CloudComputing.Lab3.Parser Network

/-! ## What a command leaves alone -/

theorem workPeer_pstate (task : Bytes) (peer : Entry × Node) :
    (workPeer task peer).1.pstate = peer.1.pstate ∨
      (workPeer task peer).1.pstate = .waiting := by
  rw [workPeer, pWorking]
  split
  · exact .inl rfl
  · generalize peer.2.sendAndRecv task = outcome
    obtain ⟨rc, rmsg, node⟩ := outcome
    by_cases error : rc ≠ kvOk
    · simp only [if_pos error]
      exact .inr trivial
    · simp only [if_neg error]
      exact .inl trivial

theorem updatePeer_pstate (txid : Nat) (resp : Bytes) (peer : Entry × Node) :
    (updatePeer txid resp peer).1.pstate = peer.1.pstate ∨
      (updatePeer txid resp peer).1.pstate = .waiting := by
  rcases workPeer_pstate (commitReq txid resp)
    (workPeer (voteReq txid) peer) with same | waiting
  · rw [updatePeer, same]
    exact workPeer_pstate (voteReq txid) peer
  · exact .inr waiting

/-- Two systems with the same `_cstate` and `_tmpNum`, in which participants
may have begun to wait. -/
structure Sys.Calm (s s' : Sys) : Prop where
  cstate : s'.co.cstate = s.co.cstate
  tmpNum : s'.co.tmpNum = s.co.tmpNum
  pstate : ∀ id, (s'.co.entry id).pstate = (s.co.entry id).pstate ∨
    (s'.co.entry id).pstate = .waiting

theorem Sys.calm_onPeers
    (s : Sys)
    (ids : List Nat)
    {change : Entry × Node → Entry × Node}
    (pstate : ∀ peer, (change peer).1.pstate = peer.1.pstate ∨
      (change peer).1.pstate = .waiting) :
    s.Calm (s.onPeers ids change) := by
  refine ⟨rfl, rfl, fun id => ?_⟩
  change ((s.onPeers ids change).peer id).1.pstate = _ ∨
    ((s.onPeers ids change).peer id).1.pstate = _
  rw [Sys.peer_onPeers]
  split
  · exact pstate (s.peer id)
  · exact .inl rfl

theorem Dispatched.calm
    {s s' : Sys}
    {task : List Bytes}
    {reply : Bytes}
    (dispatched : Dispatched s task reply s') :
    s.Calm s' := by
  have recorded : ∀ {record : Log} {txid : Nat}
      {change : Entry × Node → Entry × Node},
      (∀ peer, (change peer).1.pstate = peer.1.pstate ∨
        (change peer).1.pstate = .waiting) →
      s.Calm ((s.withRecord record txid).onPeers s.co.ids change) := by
    intro record txid change pstate
    have calm := (s.withRecord record txid).calm_onPeers s.co.ids pstate
    exact ⟨calm.cstate, calm.tmpNum, calm.pstate⟩
  cases dispatched with
  | update update updated =>
      cases updated with
      | refused noVote => exact recorded (workPeer_pstate _)
      | unanswered vote silent => exact recorded (updatePeer_pstate _ _)
      | committed vote member answered =>
          exact recorded (updatePeer_pstate _ _)
  | unread isRead silent => exact s.calm_onPeers _ (workPeer_pstate _)
  | read isRead order silent answered =>
      exact s.calm_onPeers _ (workPeer_pstate _)
  | other notUpdate notRead => exact ⟨rfl, rfl, fun _ => .inl rfl⟩

namespace World

/-! ## Participants in `P_TEMP` -/

/-- `_tmpNum` is not zero while a participant is in `P_TEMP`. -/
def Counts (w : World) : Prop :=
  (∃ id ∈ w.sys.co.ids, (w.sys.co.entry id).pstate = .temp) →
    w.sys.co.tmpNum ≠ 0

/-- Neither `_tmpNum` nor the set of participants in `P_TEMP` has changed, but
for those that begin to wait. -/
theorem Counts.of_same
    {w w' : World}
    (counts : w.Counts)
    (ids : w'.sys.co.ids = w.sys.co.ids)
    (tmpNum : w'.sys.co.tmpNum = w.sys.co.tmpNum)
    (pstate : ∀ id, (w'.sys.co.entry id).pstate =
        (w.sys.co.entry id).pstate ∨
      (w'.sys.co.entry id).pstate = .waiting) :
    w'.Counts := by
  rintro ⟨id, inside, temp⟩
  rw [tmpNum]
  refine counts ⟨id, ids ▸ inside, ?_⟩
  rcases pstate id with same | waiting
  · rw [← same]
    exact temp
  · rw [waiting] at temp
    cases temp

theorem Counts.onNode
    {w w' : World}
    (counts : w.Counts)
    {id : Nat}
    {change : Node → Node}
    (taken : w.onNode id change = some w') :
    w'.Counts := by
  rw [World.onNode] at taken
  split at taken
  · cases taken
    exact counts
  · cases taken

/-- Every event keeps the count. -/
theorem Counts.step
    {w w' : World}
    (ok : w.Ok fun _ _ => True)
    (counts : w.Counts)
    {event : Event}
    (taken : w.step event = some w') :
    w'.Counts := by
  cases event with
  | drop id =>
      change w.onNode id (fun node => { node with link := false }) = some w'
        at taken
      exact counts.onNode taken
  | crash id => exact counts.onNode taken
  | drain id => exact counts.onNode taken
  | lose id =>
      change w.onNode id (fun node => { node with late := none }) = some w'
        at taken
      exact counts.onNode taken
  | reconnect id =>
      simp only [World.step] at taken
      split at taken
      · cases taken
        exact fun _ => Nat.succ_ne_zero _
      · cases taken
  | restart =>
      cases taken
      rintro ⟨id, _, temp⟩
      cases temp
  | recoveryEnter =>
      simp only [World.step] at taken
      split at taken
      · cases taken
        exact counts.of_same rfl rfl fun _ => .inl rfl
      · cases taken
  | recoveryWake =>
      simp only [World.step] at taken
      split at taken
      · split at taken
        · cases taken
          exact counts.of_same rfl rfl fun _ => .inl rfl
        · cases taken
      · cases taken
  | recoveryRun fates =>
      simp only [World.step] at taken
      split at taken
      · rename_i minID isLocking
        obtain ⟨lower, older, table⟩ := ok.recovery minID (Or.inr isLocking)
        have rest := ok.rest.withFates fates
        obtain ⟨sys, executed, _, advanced, settled⟩ :=
          exec_recoveryBody rest.log
            (fun id inside =>
              (rest.peers id inside).joining (table id inside))
            lower older
        rw [executed] at taken
        cases taken
        -- Everybody works or waits.
        rintro ⟨id, inside, temp⟩
        have waiting := (settled id (advanced.ids ▸ inside)).others
          (by rw [Sys.peer, temp]; exact PState.noConfusion)
        rw [Sys.peer, temp] at waiting
        cases waiting
      · cases taken
  | recoveryLeave =>
      simp only [World.step] at taken
      split at taken
      · cases taken
        exact counts.of_same rfl rfl fun _ => .inl rfl
      · cases taken
  | request task =>
      simp only [World.step] at taken
      split at taken
      · cases taken
      · split at taken
        · cases taken
          exact counts
        · cases taken
          exact counts
  | serve fates =>
      simp only [World.step] at taken
      split at taken
      · cases taken
      · rename_i task isPending
        obtain ⟨reply, sys, executed, dispatched⟩ :=
          exec_dispatch (w.sys.withFates fates) task
        rw [executed] at taken
        cases taken
        have calm := dispatched.calm
        have advanced := (dispatched.atRest (ok.rest.withFates fates)
          fun _ _ _ => trivial).2
        exact counts.of_same advanced.ids calm.tmpNum calm.pstate

/-- In every reachable state `_tmpNum` is not zero while a participant is in
`P_TEMP`. -/
theorem Reachable.counts
    {pnum : Nat}
    {w : World}
    (reachable : Reachable pnum w) :
    w.Counts := by
  obtain ⟨events, run⟩ := reachable
  have keeps : ∀ (before : World) event after,
      before.Ok (fun _ _ => True) ∧ before.Counts →
      Run.free before event → before.step event = some after →
      after.Ok (fun _ _ => True) ∧ after.Counts := by
    rintro before event after ⟨ok, counts⟩ _ taken
    exact ⟨(ok.step (fun _ _ _ _ _ _ _ => trivial) taken).1,
      counts.step ok taken⟩
  refine (run.preserves keeps ⟨.init _ pnum, ?_⟩).2
  rintro ⟨id, _, temp⟩
  cases temp

/-! ## Runs of one call -/

/-- The commands that events receive. -/
def commands (events : List Event) : List (List Bytes) :=
  events.filterMap fun event =>
    match event with
    | .request task => some task
    | _ => none

@[simp] theorem commands_nil : commands [] = [] := rfl

@[simp] theorem commands_append (events further : List Event) :
    commands (events ++ further) = commands events ++ commands further :=
  List.filterMap_append ..

/-- A run without a restart of the coordinator. -/
abbrev Lives (w : World) (events : List Event) (w' : World) : Prop :=
  Run step (fun _ event => event ≠ .restart) w events w'

theorem Lives.reachable
    {pnum : Nat}
    {w w' : World}
    {events : List Event}
    (run : Lives w events w')
    (reachable : Reachable pnum w) :
    Reachable pnum w' := by
  obtain ⟨before, started⟩ := reachable
  exact ⟨_, started.append (run.mono fun _ _ _ => trivial)⟩

/-- A command is received and executed. -/
theorem lives_serve
    {w : World}
    (free : w.pending = none)
    (working : w.sys.co.cstate = .working)
    {task : List Bytes}
    (nonempty : ¬ task.length < 1)
    {fates : Nat → List Fate}
    {reply : Bytes}
    {s : Sys}
    (executed : (dispatch task).exec (w.sys.withFates fates) =
      some (reply, s)) :
    Lives w [.request task, .serve fates]
      { w with
        sys := s
        pending := none
        answers := (task, reply) :: w.answers } := by
  have received : w.step (.request task) =
      some { w with pending := some task } := by
    simp only [step, free]
    exact if_neg (by rintro (short | other)
                     · exact nonempty short
                     · exact other working)
  refine .cons Event.noConfusion received (.single Event.noConfusion ?_)
  simp only [step, executed, Option.bind_eq_bind, Option.bind_some]

/-- A recovery that waits runs to its end. -/
theorem lives_recover
    {w : World}
    {minID : Nat}
    (waiting : w.phase = .waiting minID)
    (counted : w.sys.co.tmpNum ≠ 0)
    {fates : Nat → List Fate}
    {s : Sys}
    (executed : (recoveryBody minID).exec
      ((w.sys.setCState .recovery).withFates fates) = some ((), s)) :
    Lives w [.recoveryWake, .recoveryRun fates, .recoveryLeave]
      { w with sys := s.setCState .working, phase := .idle } := by
  have woken : w.step .recoveryWake =
      some { w with
        sys := w.sys.setCState .recovery, phase := .locking minID } := by
    simp only [step, waiting]
    exact if_pos counted
  have run : step
      { w with sys := w.sys.setCState .recovery, phase := .locking minID }
      (.recoveryRun fates) = some { w with sys := s, phase := .leaving } := by
    simp only [step, executed, Option.bind_eq_bind, Option.bind_some]
  exact .cons Event.noConfusion woken
    (.cons Event.noConfusion run (.single Event.noConfusion rfl))

end World

end Lab3
end CloudComputing
