import CloudComputing.Lab3.Tokens

/-!
# Steps of the coordinating thread

The coordinating thread keeps the invariant of the tokens: it takes a token
from a result lock with the first operation of `cGet`, gives it to a task lock
with the second operation of `pRelease`, and writes a task only in between.
-/

namespace CloudComputing
namespace Lab3

open CloudComputing.Lab3.Parser

namespace Threads

variable {t t' : Threads} {port : Port}

theorem holds_of_not_half
    (half : t.half = false)
    (port : Port) :
    t.holds port = if t.phase port = .posted then 0 else 1 := by
  unfold holds
  rw [half]
  simp only [Bool.false_eq_true, false_and, not_false_eq_true, and_true]

theorem holds_of_not_posted
    (other : t.phase port ≠ .posted) :
    t.holds port = 1 := by
  unfold holds
  exact if_neg fun both => other both.1

/-- While the coordinating thread has the token, nobody else has it. -/
theorem PortOk.alone
    (ok : t.PortOk port)
    (holds : t.holds port = 1) :
    t.sems (port, .task) .full = 0 ∧ (t.worker port).token port = 0 ∧
      t.sems (port, .ret) .full = 0 := by
  have sum := ok.token
  omega

/-- The thread is not in the midst of an access. -/
theorem Ok.not_half
    (ok : t.Ok)
    (other : ∀ op port next, t.prog ≠ .lock op port next) :
    t.half = false := by
  cases isHalf : t.half with
  | false => rfl
  | true =>
      obtain ⟨op, port, next, isLock⟩ := ok.begun isHalf
      exact absurd isLock (other op port next)

/-- An instruction that is not an access. -/
theorem Ok.advance
    (ok : t.Ok)
    (half : t.half = false)
    {co : Coordinator}
    {prog : Prog Unit}
    (follows : prog.Follows (fun _ phase => phase = postedOn []) t.phase)
    (results : ∀ port, result port co = result port t.co)
    (tasks : ∀ port, t.phase port ≠ .writing →
      task port co = task port t.co) :
    ({ t with co := co, prog := prog } : Threads).Ok where
  follows := follows
  begun := by
    intro isHalf
    rw [half] at isHalf
    cases isHalf
  single := ok.single
  ports := by
    intro port
    refine (ok.ports port).same
      { phase := rfl
        holds := ?_
        full := fun _ => rfl
        worker := rfl
        number := rfl
        asked := rfl
        outcome := rfl
        task := fun posted => tasks port ?_
        result := results port
        handled := fun _ member => member
        carries := fun _ _ _ carries => carries }
    · rw [holds_of_not_half half,
        holds_of_not_half (t := { t with co := co, prog := prog }) half]
    · rw [posted]
      exact Phase.noConfusion
  quiet := ok.quiet

/-- An assignment to variables that are neither tasks nor results. -/
theorem Ok.assign
    (ok : t.Ok)
    {co : Coordinator}
    (same : ∀ id, (co.entry id).slots = (t.co.entry id).slots) :
    ({ t with co := co } : Threads).Ok where
  follows := ok.follows
  begun := ok.begun
  single := ok.single
  ports := fun port => (ok.ports port).same
    { phase := rfl
      holds := rfl
      full := fun _ => rfl
      worker := rfl
      number := rfl
      asked := rfl
      outcome := rfl
      task := fun _ => task_of_slots (same port.id)
      result := result_of_slots (same port.id)
      handled := fun _ member => member
      carries := fun _ _ _ carries => carries }
  quiet := ok.quiet

/-- The first operation of an access. -/
theorem Ok.enter
    (ok : t.Ok)
    {op : LockOp}
    {port : Port}
    {next : Prog Unit}
    (isLock : t.prog = .lock op port next)
    (half : t.half = false)
    {sems : Semaphore.Values (Port × Side)}
    (applied : (op.ops port).1.apply t.sems = some sems) :
    ({ t with sems := sems, half := true } : Threads).Ok := by
  have allowed : op.Allowed t.phase port := by
    have follows := ok.follows
    rw [isLock] at follows
    exact follows.1
  refine ⟨ok.follows, fun _ => ⟨op, port, next, isLock⟩, ok.single, ?_,
    ok.quiet⟩
  intro other
  obtain ⟨takesRet, givesRet, takesTask, givesTask⟩ :=
    op.first_token port other
  have retBalance := Semaphore.Op.balance applied (other, .ret) .full
  have taskBalance := Semaphore.Op.balance applied (other, .task) .full
  have isEntering : t.prog.entering other = decide (op = .cGet ∧ port = other) := by
    rw [isLock]
    cases op with
    | cGet => simp [Prog.entering]
    | pGet => simp [Prog.entering]
    | pRelease => simp [Prog.entering]
    | cRelease => simp [Prog.entering]
  by_cases collects : op = .cGet ∧ port = other
  · -- The token goes from the result lock to the thread.
    obtain ⟨rfl, rfl⟩ := collects
    have before := ok.ports port
    have posted : t.phase port = .posted := allowed
    have none : t.holds port = 0 := by
      rw [holds_of_not_half half, if_pos posted]
    have one : ({ t with sems := sems, half := true } : Threads).holds port =
        1 := by
      unfold holds
      exact if_neg fun both => both.2 ⟨rfl, by rw [isEntering]; simp⟩
    rw [takesRet, givesRet, if_pos ⟨rfl, rfl⟩] at retBalance
    refine ⟨?_, ?_, before.asked, ?_, before.carries⟩
    · exact placed_of_same before.placed rfl rfl
    · have sum := before.token
      rw [one]
      change 1 + sems (port, .task) .full + (t.worker port).token port +
        sems (port, .ret) .full = 1
      omega
    · intro _
      exact before.settled (.full (by omega))
  · refine (ok.ports other).same
      { phase := rfl
        holds := ?_
        full := ?_
        worker := rfl
        number := rfl
        asked := rfl
        outcome := rfl
        task := fun _ => rfl
        result := rfl
        handled := fun _ member => member
        carries := fun _ _ _ carries => carries }
    · rw [holds_of_not_half half]
      unfold holds
      rw [isEntering, decide_eq_false collects]
      simp only [Bool.false_eq_true, and_false, not_false_eq_true, and_true]
    · rw [if_neg collects] at takesRet
      intro side
      cases side with
      | task =>
          change sems (other, .task) .full = t.sems (other, .task) .full
          omega
      | ret =>
          change sems (other, .ret) .full = t.sems (other, .ret) .full
          omega

/-- The access keeps to one task for each participant. -/
theorem Ok.sibling_of_allowed
    (ok : t.Ok)
    {op : LockOp}
    (allowed : op.Allowed t.phase port) :
    t.phase port.sibling = .idle := by
  cases op with
  | pGet => exact allowed.2
  | pRelease =>
      have writing : t.phase port = .writing := allowed
      exact (ok.single port).resolve_left (by rw [writing]; exact Phase.noConfusion)
  | cGet =>
      have posted : t.phase port = .posted := allowed
      exact (ok.single port).resolve_left (by rw [posted]; exact Phase.noConfusion)
  | cRelease =>
      have reading : t.phase port = .reading := allowed
      exact (ok.single port).resolve_left (by rw [reading]; exact Phase.noConfusion)

/-- What an access changes apart from the semaphores. -/
theorem complete_eq (t : Threads) (op : LockOp) (port : Port) :
    t.complete op port =
      { t with
        half := false
        phase := Function.update t.phase port op.after
        number :=
          if op = .pRelease then
            Function.update t.number port (t.number port + 1)
          else t.number
        asked :=
          if op = .pRelease then
            Function.update t.asked port (task port t.co)
          else t.asked } := by
  cases op <;> rfl

/-- Between the two operations of an access the thread has the token. -/
theorem holds_of_leaving
    {op : LockOp}
    {next : Prog Unit}
    (isLock : t.prog = .lock op port next)
    (half : t.half = true)
    (allowed : op.Allowed t.phase port) :
    t.holds port = 1 := by
  cases op with
  | cGet =>
      unfold Threads.holds
      refine if_neg fun both => both.2 ⟨half, ?_⟩
      rw [isLock]
      simp [Prog.entering]
  | pGet =>
      apply holds_of_not_posted
      rw [show t.phase port = .idle from allowed.1]
      exact Phase.noConfusion
  | pRelease =>
      apply holds_of_not_posted
      rw [show t.phase port = .writing from allowed]
      exact Phase.noConfusion
  | cRelease =>
      apply holds_of_not_posted
      rw [show t.phase port = .reading from allowed]
      exact Phase.noConfusion

/-- The token of the port at the second operation of an access. -/
theorem PortOk.leave
    (ok : t.PortOk port)
    {op : LockOp}
    {next : Prog Unit}
    (isLock : t.prog = .lock op port next)
    (half : t.half = true)
    (allowed : op.Allowed t.phase port)
    {sems : Semaphore.Values (Port × Side)}
    (applied : (op.ops port).2.apply t.sems = some sems) :
    (complete { t with sems := sems, prog := next } op port).PortOk port := by
  obtain ⟨givesTask, takesTask, takesRet, givesRet⟩ := op.second_token port port
  have retBalance := Semaphore.Op.balance applied (port, .ret) .full
  have taskBalance := Semaphore.Op.balance applied (port, .task) .full
  rw [takesRet, givesRet] at retBalance
  rw [takesTask, givesTask] at taskBalance
  have holds := holds_of_leaving isLock half allowed
  obtain ⟨noTask, noToken, noRet⟩ := ok.alone holds
  have outside : (t.worker port).Outside := by
    intro number text exchange
    rw [exchange] at noToken
    cases noToken
  have posted : op.after = .posted ↔ op = .pRelease := by
    cases op <;> simp [LockOp.after]
  rw [complete_eq]
  refine ⟨placed_outside ok.placed outside, ?_, ?_, ?_, ok.carries⟩
  · rw [holds_of_not_half rfl]
    simp only [Function.update_self, posted]
    by_cases gives : op = .pRelease
    · rw [if_pos ⟨gives, rfl⟩] at taskBalance
      rw [if_pos gives]
      omega
    · rw [if_neg fun both => gives both.1] at taskBalance
      rw [if_neg gives]
      omega
  · intro isPosted
    simp only [Function.update_self, posted] at isPosted
    simp only [if_pos isPosted, Function.update_self]
  · intro ready
    cases ready with
    | releasing worker before =>
        rw [worker, before] at noToken
        cases noToken
    | full positive =>
        change 0 < sems (port, .ret) .full at positive
        omega
    | entering isPosted holds =>
        rw [holds_of_not_half rfl, if_pos isPosted] at holds
        cases holds
    | reading reading =>
        -- The collected result is still the one of the latest task.
        simp only [Function.update_self] at reading
        cases op with
        | cGet => exact ok.settled (.entering allowed holds)
        | pGet => cases reading
        | pRelease => cases reading
        | cRelease => cases reading

/-- The second operation of an access. -/
theorem Ok.leave
    (ok : t.Ok)
    {op : LockOp}
    {next : Prog Unit}
    (isLock : t.prog = .lock op port next)
    (half : t.half = true)
    {sems : Semaphore.Values (Port × Side)}
    (applied : (op.ops port).2.apply t.sems = some sems) :
    (complete { t with sems := sems, prog := next } op port).Ok := by
  have follows := ok.follows
  rw [isLock] at follows
  obtain ⟨allowed, afterwards⟩ := follows
  have sibling := ok.sibling_of_allowed allowed
  have own := (ok.ports port).leave isLock half allowed applied
  rw [complete_eq] at own ⊢
  refine ⟨afterwards, Bool.noConfusion, ?_, ?_, ok.quiet⟩
  · intro other
    simp only [Function.update_apply]
    by_cases isOwn : other = port
    · right
      rw [isOwn, if_neg port.sibling_ne]
      exact sibling
    · by_cases isSibling : other = port.sibling
      · left
        rw [if_neg isOwn, isSibling]
        exact sibling
      · rw [if_neg isOwn, if_neg ?_]
        · exact ok.single other
        · intro same
          rw [← same, Port.sibling_sibling] at isSibling
          exact isSibling rfl
  · intro other
    by_cases isOwn : other = port
    · rw [isOwn]
      exact own
    · obtain ⟨givesTask, takesTask, takesRet, givesRet⟩ :=
        op.second_token port other
      have retBalance := Semaphore.Op.balance applied (other, .ret) .full
      have taskBalance := Semaphore.Op.balance applied (other, .task) .full
      rw [if_neg fun both => isOwn both.2.symm] at givesTask
      refine (ok.ports other).same
        { phase := Function.update_of_ne isOwn ..
          holds := ?_
          full := ?_
          worker := rfl
          number := ?_
          asked := ?_
          outcome := rfl
          task := fun _ => rfl
          result := rfl
          handled := fun _ member => member
          carries := fun _ _ _ carries => carries }
      · have entering : t.prog.entering other = false := by
          rw [isLock]
          cases op with
          | cGet => simp [Prog.entering, Ne.symm isOwn]
          | pGet => rfl
          | pRelease => rfl
          | cRelease => rfl
        rw [holds_of_not_half rfl]
        unfold holds
        simp only [Function.update_of_ne isOwn, entering, Bool.false_eq_true,
          and_false, not_false_eq_true, and_true]
      · intro side
        cases side with
        | task =>
            change sems (other, .task) .full = t.sems (other, .task) .full
            omega
        | ret =>
            change sems (other, .ret) .full = t.sems (other, .ret) .full
            omega
      · dsimp only
        split
        · exact Function.update_of_ne isOwn ..
        · rfl
      · dsimp only
        split
        · exact Function.update_of_ne isOwn ..
        · rfl

/-- A step of the coordinating thread. -/
theorem Ok.coordinate
    (ok : t.Ok)
    (taken : t.coordinate = some t') :
    t'.Ok := by
  have follows := ok.follows
  unfold Threads.coordinate at taken
  split at taken
  · cases taken
  · cases taken
  · rename_i next isGet
    cases taken
    rw [isGet] at follows
    refine ok.advance (ok.not_half ?_) (follows t.co) (fun _ => rfl)
      fun _ _ => rfl
    intro op port next isLock
    rw [isGet] at isLock
    cases isLock
  · rename_i change next isModify
    cases taken
    rw [isModify] at follows
    refine ok.advance (ok.not_half ?_) follows.2 (follows.1.results t.co)
      (follows.1.tasks t.co)
    intro op port next isLock
    rw [isModify] at isLock
    cases isLock
  · rename_i op port next isLock
    split at taken
    · rename_i half
      obtain ⟨sems, applied, isNext⟩ := Option.bind_eq_some_iff.mp taken
      cases isNext
      exact ok.enter isLock half applied
    · rename_i half
      obtain ⟨sems, applied, isNext⟩ := Option.bind_eq_some_iff.mp taken
      cases isNext
      exact ok.leave isLock (by simpa using half) applied

/-- Every function that is called keeps the discipline. -/
theorem follows_call (call : Call) :
    call.prog.Follows (fun _ phase => phase = postedOn []) (postedOn []) := by
  cases call with
  | update resp =>
      exact .bind (.updateDB resp) fun _ _ idle => idle
  | request resp =>
      exact .bind (.request resp) fun _ _ idle => idle
  | recovery minID => exact .recoveryBody minID

end Threads
end Lab3
end CloudComputing
