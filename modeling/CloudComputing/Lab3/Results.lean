import CloudComputing.Lab3.CoordinatorSteps
import CloudComputing.Lab3.WorkerSteps

/-!
# Every result belongs to its request

Every step of the threads keeps the invariant of the tokens.  So in every run,
whenever the coordinating thread reads a result, it is what the worker has made
of the latest task of this port.
-/

namespace CloudComputing
namespace Lab3

open CloudComputing.Lab3.Parser Network

namespace Threads

variable {t t' : Threads} {port : Port}

/-! ## Participants and connections -/

theorem Ok.onLine
    (ok : t.Ok)
    {id : Nat}
    {change : Line → Option Line}
    (keeps : ∀ line, change (t.line id) = some line →
      (t.line id).Keeps line)
    (taken : t.onLine id change = some t') :
    t'.Ok := by
  obtain ⟨line, changed, rfl⟩ := onLine_eq taken
  have kept := keeps line changed
  refine ⟨ok.follows, ok.begun, ok.single, ?_, ?_⟩
  · intro port
    refine (ok.ports port).same
      { phase := rfl
        holds := rfl
        full := fun _ => rfl
        worker := rfl
        number := rfl
        asked := rfl
        outcome := rfl
        task := fun _ => rfl
        result := rfl
        handled := ?_
        carries := ?_ }
    · simp only [Function.update_apply]
      split
      · rename_i isOwn
        rw [isOwn]
        exact kept.handled
      · exact fun _ member => member
    · intro number text _ carries
      simp only [Function.update_apply]
      split
      · rename_i isOwn
        rw [isOwn] at carries
        exact kept.carries _ _ carries
      · exact carries
  · intro other outside
    have quiet := ok.quiet other outside
    simp only [Function.update_apply]
    split
    · rename_i isOwn
      rw [isOwn] at quiet
      exact kept.quiet quiet
    · exact quiet

/-! ## Runs -/

theorem Ok.step
    (ok : t.Ok)
    {act : Act}
    (taken : t.step act = some t') :
    t'.Ok := by
  cases act with
  | call call =>
      simp only [Threads.step] at taken
      split at taken
      · rename_i isRet
        cases taken
        have idle := ok.follows
        rw [isRet] at idle
        refine ok.advance (ok.not_half ?_) ?_ (fun _ => rfl) fun _ _ => rfl
        · intro op port next isLock
          rw [isRet] at isLock
          cases isLock
        · rw [show t.phase = postedOn [] from idle]
          exact follows_call call
      · cases taken
  | coordinate => exact ok.coordinate taken
  | work port =>
      simp only [Threads.step] at taken
      split at taken
      · exact ok.work taken
      · cases taken
  | fail port error part arrives => exact ok.fail taken
  | receive port reads => exact ok.receive taken
  | serve id reads =>
      change t.onLine id (fun line => line.serve reads) = some t' at taken
      exact ok.onLine (fun _ served => .serve served) taken
  | drain id reads =>
      change t.onLine id (fun line => line.drain reads) = some t' at taken
      exact ok.onLine (fun _ drained => .drain drained) taken
  | crash id =>
      change t.onLine id (fun line => some line.crash) = some t' at taken
      refine ok.onLine ?_ taken
      rintro line ⟨rfl⟩
      exact .crash _
  | hangUp id =>
      change t.onLine id (fun line => some line.hangUp) = some t' at taken
      refine ok.onLine ?_ taken
      rintro line ⟨rfl⟩
      exact .hangUp _
  | reconnect id =>
      simp only [Threads.step] at taken
      split at taken
      · obtain ⟨connected, reconnected, isNext⟩ :=
          Option.bind_eq_some_iff.mp taken
        cases isNext
        have connectedOk :=
          ok.onLine (fun _ connected => .reconnect connected) reconnected
        exact connectedOk.assign (connected.co.setEntry_slots rfl)
      · cases taken
  | clearTable =>
      cases taken
      exact ok.assign fun _ => rfl
  | setCState cstate =>
      cases taken
      exact ok.assign fun _ => rfl

theorem Ok.init
    (pnum : Nat)
    (proc : Nat → Participant)
    (old : Nat → Option (Bytes × List Ticket)) :
    (init pnum proc old).Ok where
  follows := rfl
  begun := Bool.noConfusion
  single := fun _ => .inl rfl
  ports := by
    intro port
    refine ⟨.locking List.suffix_rfl, ?_, Phase.noConfusion, ?_,
      fun _ _ => WorkerPc.noConfusion⟩
    · cases port <;>
        simp [Threads.init, holds, WorkerPc.token, Port.acquires,
          Semaphore.cGet, Semaphore.fresh]
    · intro ready
      cases ready with
      | releasing worker _ => cases worker
      | full positive => cases positive
      | entering posted _ => cases posted
      | reading reading => cases reading
  quiet := fun _ _ => ⟨rfl, rfl, rfl⟩

end Threads

variable {pnum : Nat} {proc : Nat → Participant}
  {old : Nat → Option (Bytes × List Ticket)}

/-- Whenever the coordinating thread is between `cGet` and `cRelease` of a
result lock, the result is the outcome of exactly the latest task of this port:
`RET_SKIP`, the code of a network error, or `KV_OK` with what `pWorker` of this
participant has answered to this very message. -/
theorem result_belongs
    {acts : List Act}
    {t : Threads}
    (run : Run Threads.step Run.free (Threads.init pnum proc old) acts t)
    {port : Port}
    (reading : t.phase port = .reading) :
    ∃ outcome, t.outcome port = some (t.number port, outcome) ∧
      match outcome with
      | .skipped => (result port t.co).1 = retSkip
      | .failed error =>
          (result port t.co).1 = error.code ∧ error.code ≠ kvOk
      | .replied reply =>
          result port t.co = (kvOk, reply) ∧
            ∃ execution ∈ (t.line port.id).handled,
              execution.ticket = ⟨port, t.number port⟩ ∧
              execution.message = t.asked port ∧
              execution.reply = reply := by
  have ok : t.Ok :=
    run.preserves (fun _ _ _ ok _ taken => ok.step taken) (.init pnum proc old)
  obtain ⟨outcome, isOutcome, isResult, replied⟩ :=
    (ok.ports port).settled (.reading reading)
  refine ⟨outcome, isOutcome, ?_⟩
  cases outcome with
  | skipped => exact isResult
  | failed error => exact ⟨isResult, error.code_ne_kvOk⟩
  | replied reply => exact ⟨isResult, replied reply rfl⟩

/-- A new participant connects, and `Recovery` asks it for its number. -/
def askActs : List Act :=
  [.reconnect 1, .call (.recovery 0)] ++ List.replicate 7 .coordinate ++
    List.replicate 5 (.work (.recov 1)) ++
    [.serve 1 [], .receive (.recov 1) []] ++
    List.replicate 4 (.work (.recov 1)) ++ List.replicate 2 .coordinate

theorem result_belongs_asked :
    ∃ t, Run Threads.step Run.free
        (Threads.init 1 (fun _ => .init) fun _ => none) askActs t ∧
      t.phase (.recov 1) = .reading ∧
      ∃ execution ∈ (t.line 1).handled,
        execution.ticket = ⟨.recov 1, 1⟩ ∧
        execution.message = t.asked (.recov 1) ∧
        result (.recov 1) t.co = (kvOk, execution.reply) := by
  obtain ⟨t, executed, seen⟩ := (Option.any_eq_true
    (fun t : Threads => decide (t.phase (.recov 1) = .reading ∧
      t.number (.recov 1) = 1 ∧
      t.outcome (.recov 1) = some (1, .replied (str "4"))))
    (askActs.foldlM
      (fun t act => if (fun _ _ => true) t act then t.step act else none)
      (Threads.init 1 (fun _ => .init) fun _ => none))).mp (by decide +kernel)
  rw [decide_eq_true_eq] at seen
  obtain ⟨reading, first, isReplied⟩ := seen
  have run : Run Threads.step Run.free _ askActs t :=
    .of_checked (fun _ _ _ => trivial) executed
  obtain ⟨outcome, isOutcome, own⟩ := result_belongs run reading
  rw [first] at isOutcome own
  rw [isReplied] at isOutcome
  cases isOutcome
  obtain ⟨isResult, execution, member, ticket, message, reply⟩ := own
  exact ⟨t, run, reading, execution, member, ticket, message, reply ▸ isResult⟩

end Lab3
end CloudComputing
