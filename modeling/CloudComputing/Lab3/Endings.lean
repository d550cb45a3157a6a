import CloudComputing.Lab3.Effects

/-!
# What a program assigns last

`UpdateDB` changes `_TXID` with its last assignment, so the number stands still
while the function runs, and it leaves `_cstate` alone.  `Recovery` sets
`_tmpNum` to zero with its last assignment under the mutexes, so nobody is
counted when the function has run.
-/

namespace CloudComputing
namespace Lab3

open CloudComputing.Lab3.Parser

namespace Prog

variable {α β : Type}

/-- The program leaves `_TXID` and `_cstate` alone. -/
def Quiet : Prog α → Prop
  | .ret _ => True
  | .fail => True
  | .get next => ∀ co, (next co).Quiet
  | .modify change next =>
      (∀ co, (change co).txid = co.txid ∧ (change co).cstate = co.cstate) ∧
        next.Quiet
  | .lock _ _ next => next.Quiet

/-- The program leaves `_cstate` alone, and `_TXID` but for an assignment at its
end. -/
def Steady : Prog α → Prop
  | .ret _ => True
  | .fail => True
  | .get next => ∀ co, (next co).Steady
  | .modify change next =>
      (∀ co, (change co).cstate = co.cstate) ∧
        ((∀ co, (change co).txid = co.txid) ∧ next.Steady ∨
          ∃ value, next = .ret value)
  | .lock _ _ next => next.Steady

/-- The program ends with an assignment that sets `_tmpNum` to zero. -/
def Resets : Prog α → Prop
  | .ret _ => False
  | .fail => True
  | .get next => ∀ co, (next co).Resets
  | .modify change next =>
      next.Resets ∨ (∀ co, (change co).tmpNum = 0) ∧ ∃ value, next = .ret value
  | .lock _ _ next => next.Resets

namespace Quiet

theorem bind
    {first : Prog α}
    {second : α → Prog β}
    (before : first.Quiet)
    (after : ∀ value, (second value).Quiet) :
    (first >>= second).Quiet := by
  change (Prog.bind first second).Quiet
  induction first with
  | ret value => exact after value
  | fail => trivial
  | get next inductionHypothesis =>
      exact fun co => inductionHypothesis co (before co)
  | modify change next inductionHypothesis =>
      exact ⟨before.1, inductionHypothesis before.2⟩
  | lock op port next inductionHypothesis => exact inductionHypothesis before

theorem bind_steady
    {first : Prog α}
    {second : α → Prog β}
    (before : first.Quiet)
    (after : ∀ value, (second value).Steady) :
    (first >>= second).Steady := by
  change (Prog.bind first second).Steady
  induction first with
  | ret value => exact after value
  | fail => trivial
  | get next inductionHypothesis =>
      exact fun co => inductionHypothesis co (before co)
  | modify change next inductionHypothesis =>
      exact ⟨fun co => (before.1 co).2, .inl ⟨fun co => (before.1 co).1,
        inductionHypothesis before.2⟩⟩
  | lock op port next inductionHypothesis => exact inductionHypothesis before

theorem steady
    {prog : Prog α}
    (quiet : prog.Quiet) :
    prog.Steady := by
  induction prog with
  | ret value => trivial
  | fail => trivial
  | get next inductionHypothesis =>
      exact fun co => inductionHypothesis co (quiet co)
  | modify change next inductionHypothesis =>
      exact ⟨fun co => (quiet.1 co).2, .inl ⟨fun co => (quiet.1 co).1,
        inductionHypothesis quiet.2⟩⟩
  | lock op port next inductionHypothesis => exact inductionHypothesis quiet

theorem post (port : Port) (text : Bytes) : (Lab3.post port text).Quiet := by
  refine ⟨fun co => ?_, trivial⟩
  cases port with
  | work id => exact ⟨rfl, rfl⟩
  | recov id => exact ⟨rfl, rfl⟩

theorem collect (port : Port) : (Lab3.collect port).Quiet :=
  fun _ => trivial

theorem postAll
    (port : Nat → Port)
    (text : Bytes)
    (ids : List Nat) :
    (Lab3.postAll port text ids).Quiet := by
  induction ids with
  | nil => trivial
  | cons id ids inductionHypothesis =>
      exact bind (post (port id) text) fun _ => inductionHypothesis

theorem collectVotes (ids : List Nat) (vote : Bool) :
    (Lab3.collectVotes ids vote).Quiet := by
  induction ids generalizing vote with
  | nil => trivial
  | cons id ids inductionHypothesis =>
      exact bind (collect (.work id)) fun _ => inductionHypothesis _

theorem collectCommits (ids : List Nat) (done : Bool × Bytes) :
    (Lab3.collectCommits ids done).Quiet := by
  induction ids generalizing done with
  | nil => trivial
  | cons id ids inductionHypothesis =>
      exact bind (collect (.work id)) fun _ => inductionHypothesis _

theorem requestFrom (resp : Bytes) (ids : List Nat) :
    (Lab3.requestFrom resp ids).Quiet := by
  induction ids with
  | nil => trivial
  | cons id ids inductionHypothesis =>
      refine bind (post (.work id) _) fun _ =>
        bind (collect (.work id)) fun outcome => ?_
      dsimp only
      split
      · trivial
      · exact inductionHypothesis

end Quiet

namespace Steady

/-- The value of the program does not matter. -/
theorem map
    {prog : Prog α}
    (steady : prog.Steady)
    (value : α → β) :
    (prog >>= fun result => Pure.pure (value result)).Steady := by
  change (Prog.bind prog _).Steady
  induction prog with
  | ret result => trivial
  | fail => trivial
  | get next inductionHypothesis =>
      exact fun co => inductionHypothesis co (steady co)
  | modify change next inductionHypothesis =>
      obtain ⟨cstate, ⟨same, steady⟩ | ⟨result, rfl⟩⟩ := steady
      · exact ⟨cstate, .inl ⟨same, inductionHypothesis steady⟩⟩
      · exact ⟨cstate, .inr ⟨value result, rfl⟩⟩
  | lock op port next inductionHypothesis => exact inductionHypothesis steady

theorem read
    {next : Coordinator → Prog α}
    (after : ∀ co, (next co).Steady) :
    (Prog.read >>= next).Steady :=
  after

theorem updateDB (resp : Bytes) : (Lab3.updateDB resp).Steady := by
  refine fun co => ⟨fun _ => rfl, .inl ⟨fun _ => rfl, ?_⟩⟩
  refine (Quiet.postAll .work _ _).bind_steady fun _ =>
    (Quiet.collectVotes _ _).bind_steady fun vote => ?_
  split
  · refine (Quiet.postAll .work _ _).bind_steady fun _ =>
      (Quiet.collectCommits _ _).bind_steady fun done => ?_
    dsimp only
    split
    · refine read fun co => ?_
      split
      · trivial
      · exact ⟨fun _ => rfl, .inr ⟨_, rfl⟩⟩
    · trivial
  · trivial

theorem request (resp : Bytes) : (Lab3.request resp).Steady :=
  read fun co => (Quiet.requestFrom resp co.ids).steady

end Steady

namespace Resets

theorem bind
    (first : Prog α)
    {second : α → Prog β}
    (after : ∀ value, (second value).Resets) :
    (first >>= second).Resets := by
  change (Prog.bind first second).Resets
  induction first with
  | ret value => exact after value
  | fail => trivial
  | get next inductionHypothesis => exact inductionHypothesis
  | modify change next inductionHypothesis => exact .inl inductionHypothesis
  | lock op port next inductionHypothesis => exact inductionHypothesis

theorem recoveryBody (minID : Nat) : (Lab3.recoveryBody minID).Resets := by
  have leaves : (Prog.write leaveRecovery).Resets :=
    .inr ⟨fun _ => rfl, (), rfl⟩
  refine bind _ fun _ => bind _ fun _ => bind _ fun _ =>
    bind _ fun consistance => ?_
  split
  · exact leaves
  · exact bind _ fun _ => bind _ fun _ => leaves

end Resets
end Prog

/-- Outside a recovery a function changes `_TXID` last. -/
theorem steady_call (call : Call) (isWork : call.mode = .work) :
    call.prog.Steady := by
  cases call with
  | update resp => exact (Prog.Steady.updateDB resp).map fun _ => ()
  | request resp => exact (Prog.Steady.request resp).map fun _ => ()
  | recovery minID => cases isWork

namespace Threads

variable {t t' : Threads}

/-- While the program goes on, `_TXID` stands still. -/
theorem steady_coordinate
    (steady : t.prog.Steady)
    (taken : t.coordinate = some t') :
    t'.prog.Steady ∧ t'.co.cstate = t.co.cstate ∧
      (t'.prog ≠ .ret () → t'.co.txid = t.co.txid) := by
  unfold Threads.coordinate at taken
  split at taken
  · cases taken
  · cases taken
  · rename_i next isGet
    cases taken
    rw [isGet] at steady
    exact ⟨steady t.co, rfl, fun _ => rfl⟩
  · rename_i change next isModify
    cases taken
    rw [isModify] at steady
    obtain ⟨cstate, ⟨same, steady⟩ | ⟨value, rfl⟩⟩ := steady
    · exact ⟨steady, cstate t.co, fun _ => same t.co⟩
    · exact ⟨trivial, cstate t.co, fun goesOn => absurd rfl goesOn⟩
  · rename_i op port next isLock
    rw [isLock] at steady
    split at taken
    · obtain ⟨sems, _, isNext⟩ := Option.bind_eq_some_iff.mp taken
      cases isNext
      rw [isLock]
      exact ⟨steady, rfl, fun _ => rfl⟩
    · obtain ⟨sems, _, isNext⟩ := Option.bind_eq_some_iff.mp taken
      cases isNext
      rw [complete_eq]
      exact ⟨steady, rfl, fun _ => rfl⟩

/-- When the program has ended, `_tmpNum` is zero. -/
theorem resets_coordinate
    (resets : t.prog.Resets)
    (taken : t.coordinate = some t') :
    t'.prog.Resets ∨ t'.prog = .ret () ∧ t'.co.tmpNum = 0 := by
  unfold Threads.coordinate at taken
  split at taken
  · cases taken
  · cases taken
  · rename_i next isGet
    cases taken
    rw [isGet] at resets
    exact .inl (resets t.co)
  · rename_i change next isModify
    cases taken
    rw [isModify] at resets
    rcases resets with resets | ⟨zero, value, rfl⟩
    · exact .inl resets
    · exact .inr ⟨rfl, zero t.co⟩
  · rename_i op port next isLock
    rw [isLock] at resets
    split at taken
    · obtain ⟨sems, _, isNext⟩ := Option.bind_eq_some_iff.mp taken
      cases isNext
      rw [isLock]
      exact .inl resets
    · obtain ⟨sems, _, isNext⟩ := Option.bind_eq_some_iff.mp taken
      cases isNext
      rw [complete_eq]
      exact .inl resets

end Threads
end Lab3
end CloudComputing
