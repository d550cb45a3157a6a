import CloudComputing.Lab1.Reader

/-!
# Puzzles that nobody takes

A worker leaves its loop when it finds no puzzle, and `shutdown` ends all of
them when one has taken the last puzzle, while `main` may still be reading.  No
puzzle is lost if, as long as there is a line to count, no worker takes the
last one that has been counted, and one of the workers always finds one.
-/

namespace CloudComputing
namespace Lab1
namespace Jobs

variable {file : Bytes} {fuel n patient : Nat} {s next last : State}

/-! ## What the reading loop has stored, in every state -/

/-- The loop is done with some of the lines. -/
def Reads (file : Bytes) (s : State) : Prop :=
  ∃ done, Read file done s

/-- A step of a worker changes nothing that the reading loop depends on. -/
theorem Worked.read
    {w : Nat}
    {done : List Bytes}
    (worked : Worked fuel w s next)
    (read : Read file done s) :
    Read file done next := by
  obtain ⟨rest, reader, total, sudoku, _⟩ := worked.frame
  refine ⟨total.trans read.total, ?_, ?_⟩
  · rw [sudoku]
    exact read.slots
  · cases read.position with
    | reading text isReader noNewline lines holds =>
        refine .reading text (reader.trans isReader) noNewline ?_ ?_
        · rw [rest]
          exact lines
        · rw [sudoku, total]
          exact holds
    | ending line isReader lines holds =>
        refine .ending line (reader.trans isReader) ?_ ?_
        · rw [rest]
          exact lines
        · rw [sudoku, total]
          exact holds
    | counting line isReader lines holds =>
        refine .counting line (reader.trans isReader) ?_ ?_
        · rw [rest]
          exact lines
        · rw [sudoku, total]
          exact holds
    | finished isReader lines =>
        exact .finished (reader.trans isReader) lines

/-- Every step keeps it. -/
theorem Reads.step
    {event : Event}
    (reads : Reads file s)
    (isFit : Fits file)
    (taken : step fuel n s event = some next) :
    Reads file next := by
  obtain ⟨done, read⟩ := reads
  rcases step_cases taken with ⟨_, taken⟩ | ⟨w, _, _, worked⟩
  · exact read.mainStep isFit taken
  · exact ⟨done, worked.read read⟩

/-- `main` has counted no more lines than there are. -/
theorem Reads.total_le (reads : Reads file s) :
    s.total ≤ (counted file).length := by
  obtain ⟨done, read⟩ := reads
  rw [read.total]
  exact read.isCounted.length_le

/-- At the end of the file `main` has counted all of them. -/
theorem Reads.total_eq
    (reads : Reads file s)
    (finished : s.reader = .finished) :
    s.total = (counted file).length := by
  obtain ⟨done, read⟩ := reads
  rw [read.total]
  cases read.position with
  | reading text reader noNewline lines holds =>
      rw [finished] at reader
      cases reader
  | ending line reader lines holds =>
      rw [finished] at reader
      cases reader
  | counting line reader lines holds =>
      rw [finished] at reader
      cases reader
  | finished reader lines =>
      rw [counted, lines]

/-! ## What has been handed out -/

/-- `getJob` has returned the numbers below `Sid`, one after the other. -/
structure Handed (s : State) : Prop where
  ids : s.handed.map Prod.snd = List.range s.Sid
  Sid_le : s.Sid ≤ s.total

theorem Handed.start (file : Bytes) : Handed (start file) where
  ids := rfl
  Sid_le := le_refl 0

theorem Handed.step
    {event : Event}
    (handed : Handed s)
    (taken : step fuel n s event = some next) :
    Handed next := by
  rcases step_cases taken with ⟨_, taken⟩ | ⟨w, _, _, worked⟩
  · obtain ⟨sid, _, _, _, isHanded, total⟩ := mainStep_frame taken
    refine ⟨?_, ?_⟩
    · rw [isHanded, sid]
      exact handed.ids
    · rw [sid]
      exact handed.Sid_le.trans total
  · cases worked with
    | takes phase less =>
        refine ⟨?_, less⟩
        change (s.handed ++ [(w, s.Sid)]).map Prod.snd = List.range (s.Sid + 1)
        rw [List.map_append, handed.ids, List.range_succ]
        rfl
    | _ => exact ⟨handed.ids, handed.Sid_le⟩

/-- Each number below `Sid` has been returned once. -/
theorem Handed.once
    (handed : Handed s)
    {id : Nat}
    (less : id < s.Sid) :
    s.handed.countP (fun job => job.2 = id) = 1 := by
  have same : s.handed.countP (fun job => job.2 = id) =
      (s.handed.map Prod.snd).count id := by
    rw [List.count, List.countP_map]
    rfl
  rw [same, handed.ids]
  exact List.count_eq_one_of_mem List.nodup_range (List.mem_range.mpr less)

/-! ## The condition -/

/-- As long as there is a line to count, the step does not take the last
puzzle that has been counted, and the patient worker is not sent away. -/
def Timely (file : Bytes) (patient : Nat) (s : State) (event : Event) : Prop :=
  ∀ w, event = .worker w → s.workers w = .job →
    s.total < (counted file).length →
      s.Sid + 1 ≠ s.total ∧ (w = patient → s.Sid < s.total)

/-- When `shutdown` is set or the patient worker has left, all puzzles are
taken. -/
structure AllTaken (file : Bytes) (patient : Nat) (s : State) : Prop where
  shutdown : s.shutdown = true → s.Sid = (counted file).length
  exited : s.workers patient = .exited → s.Sid = (counted file).length

theorem AllTaken.start (file : Bytes) : AllTaken file patient (start file) where
  shutdown := by
    intro absurd
    cases absurd
  exited := by
    intro absurd
    cases absurd

/-- A worker goes on in a phase in which it has not left its loop. -/
theorem AllTaken.goOn
    {w : Nat}
    {phase : Phase}
    (all : AllTaken file patient s)
    (stays : phase = .exited → w = patient → s.Sid = (counted file).length) :
    AllTaken file patient (s.goOn w phase) where
  shutdown := all.shutdown
  exited := by
    intro exited
    change Function.update s.workers w phase patient = .exited at exited
    rw [Function.update_apply] at exited
    split at exited
    case isTrue same => exact stays exited same.symm
    case isFalse => exact all.exited exited

/-- A timely step keeps it. -/
theorem AllTaken.step
    {event : Event}
    (all : AllTaken file patient s)
    (reads : Reads file s)
    (handed : Handed s)
    (timely : Timely file patient s event)
    (taken : step fuel n s event = some next) :
    AllTaken file patient next := by
  have bound := reads.total_le
  have low := handed.Sid_le
  rcases step_cases taken with ⟨_, taken⟩ | ⟨w, _, isWorker, worked⟩
  · obtain ⟨sid, shutdown, _, workers, _, _⟩ := mainStep_frame taken
    refine ⟨?_, ?_⟩
    · rw [shutdown, sid]
      exact all.shutdown
    · rw [workers, sid]
      exact all.exited
  · cases worked with
    | leaves phase shutdown =>
        exact all.goOn fun _ _ => all.shutdown shutdown
    | refused phase none =>
        apply all.goOn
        intro _ isPatient
        by_contra missing
        have soon := (timely w isWorker phase (by omega)).2 isPatient
        omega
    | takes phase less =>
        have notYet : s.Sid ≠ (counted file).length := by omega
        refine ⟨?_, ?_⟩
        · intro shutdown
          change (s.shutdown || s.Sid == s.total - 1) = true at shutdown
          change s.Sid + 1 = _
          rw [Bool.or_eq_true, beq_iff_eq] at shutdown
          rcases shutdown with already | isLast
          · exact absurd (all.shutdown already) notYet
          · by_contra missing
            exact (timely w isWorker phase (by omega)).1 (by omega)
        · intro exited
          change Function.update s.workers w _ patient = .exited at exited
          rw [Function.update_apply] at exited
          split at exited
          · cases exited
          · exact absurd (all.exited exited) notYet
    | writes id cell board phase less =>
        have kept : AllTaken file patient (s.goOn w (.answer id (cell + 1)
            board)) := by
          apply all.goOn
          intro absurd
          cases absurd
        exact ⟨kept.shutdown, kept.exited⟩
    | _ =>
        apply all.goOn
        intro absurd
        cases absurd

/-- No puzzle is lost in a run whose steps are timely for one of the
workers. -/
theorem nothing_lost
    (isFit : Fits file)
    {events : List Event}
    (run : Run (step fuel n) (Timely file patient) (start file) events last)
    (isWorker : patient < n)
    (finished : last.reader = .finished)
    (exited : ∀ w < n, last.workers w = .exited) :
    ∀ id < last.total, last.handed.countP (fun job => job.2 = id) = 1 := by
  have keeps : ∀ state event next,
      (Reads file state ∧ Handed state ∧ AllTaken file patient state) →
      Timely file patient state event → step fuel n state event = some next →
        Reads file next ∧ Handed next ∧ AllTaken file patient next := by
    rintro state event next ⟨reads, handed, all⟩ timely taken
    exact ⟨reads.step isFit taken, handed.step taken,
      all.step reads handed timely taken⟩
  obtain ⟨reads, handed, all⟩ := run.preserves keeps
    ⟨⟨[], Read.start file⟩, Handed.start file, AllTaken.start file⟩
  intro id less
  apply handed.once
  rw [all.exited (exited patient isWorker), ← reads.total_eq finished]
  exact less

/-! ## Runs -/

/-- The worker has left its loop. -/
def Phase.hasExited : Phase → Bool
  | .exited => true
  | _ => false

theorem eq_exited {phase : Phase} (left : phase.hasExited = true) :
    phase = .exited := by
  cases phase with
  | exited => rfl
  | _ => cases left

/-- A check for a timely step. -/
def timelyCheck (lines patient : Nat) (s : State) : Event → Bool
  | .main => true
  | .worker w =>
      match s.workers w with
      | .job =>
          lines ≤ s.total ||
            (s.Sid + 1 ≠ s.total && (w ≠ patient || s.Sid < s.total))
      | _ => true

theorem timely_of_check
    {lines : Nat}
    (all : (counted file).length = lines)
    (s : State)
    (event : Event)
    (checked : timelyCheck lines patient s event = true) :
    Timely file patient s event := by
  rintro w rfl job less
  simp only [timelyCheck, job, Bool.or_eq_true, Bool.and_eq_true,
    decide_eq_true_eq] at checked
  omega

/-- A line with a solved board. -/
def fullLine : Bytes :=
  (List.range 81).map (fun cell =>
    UInt8.ofNat (49 + (cell / 9 * 3 + cell / 9 / 3 + cell % 9) % 9)) ++ [10]

def threeLines : Bytes :=
  fullLine ++ fullLine ++ fullLine

/-- One of three workers leaves before there is a puzzle, one takes the first
puzzle while `main` reads the third line, and the patient one waits for `main`
and takes the second puzzle next to the other one. -/
def patientEvents : List Event :=
  List.flatten
    [[.worker 2, .worker 2], List.replicate 168 .main, [.worker 1, .worker 1],
      (List.replicate 85 [.main, .worker 1]).flatten, [.worker 0, .worker 0],
      (List.replicate 166 [.worker 0, .worker 1]).flatten,
      List.replicate 82 (.worker 1)]

theorem nothing_lost_threeLines :
    ∃ last : State, last.total = 3 ∧
      last.handed = [(1, 0), (0, 1), (1, 2)] ∧
      ∀ id < last.total, last.handed.countP (fun job => job.2 = id) = 1 := by
  have executed : (patientEvents.foldlM
      (fun s event => if timelyCheck 3 0 s event then step 4000 3 s event
        else none) (start threeLines)).map (fun s =>
          (s.total, s.handed, decide (s.reader = .finished),
            (List.range 3).all fun w => (s.workers w).hasExited)) =
        some (3, [(1, 0), (0, 1), (1, 2)], true, true) := by
    decide +kernel
  obtain ⟨last, executed, seen⟩ := Option.map_eq_some_iff.mp executed
  obtain ⟨total, seen⟩ := Prod.mk.inj seen
  obtain ⟨handed, seen⟩ := Prod.mk.inj seen
  obtain ⟨finished, left⟩ := Prod.mk.inj seen
  have all : (counted threeLines).length = 3 := by decide +kernel
  have timely : ∀ s event, timelyCheck 3 0 s event = true →
      Timely threeLines 0 s event :=
    timely_of_check all
  have run := Run.of_checked timely executed
  have isFit : Fits threeLines := by
    unfold Fits
    decide +kernel
  have exited : ∀ w < 3, last.workers w = .exited := by
    intro w less
    exact eq_exited (List.all_eq_true.mp left w (List.mem_range.mpr less))
  exact ⟨last, total, handed, nothing_lost isFit run (by decide)
    (of_decide_eq_true finished) exited⟩

/-- All workers look for a puzzle before `main` has read the line. -/
def hastyEvents : List Event :=
  (List.range 5).flatMap (fun w => [Event.worker w, Event.worker w]) ++
    List.replicate 85 Event.main

/-- A file with one puzzle, five workers, and nobody who takes it. -/
theorem puzzle_lost :
    ¬ ∀ (fuel n : Nat) (file : Bytes) (events : List Event) (last : State),
      Fits file → (∀ line ∈ Bytes.lines file, counts line = true) →
      (Bytes.lines file).length ≤ TaskNum →
      Run (step fuel n) Run.free (start file) events last →
      last.reader = .finished → (∀ w < n, last.workers w = .exited) →
        ∀ id < last.total,
          last.handed.countP (fun job => job.2 = id) = 1 := by
  intro never
  have executed : (hastyEvents.foldlM (step 0 5) (start fullLine)).map (fun s =>
        (s.total, s.handed, decide (s.reader = .finished),
          (List.range 5).all fun w => (s.workers w).hasExited)) =
        some (1, [], true, true) := by
    decide +kernel
  obtain ⟨last, executed, seen⟩ := Option.map_eq_some_iff.mp executed
  obtain ⟨total, seen⟩ := Prod.mk.inj seen
  obtain ⟨handed, seen⟩ := Prod.mk.inj seen
  obtain ⟨finished, left⟩ := Prod.mk.inj seen
  have run := Run.of_executed executed
  have isFit : Fits fullLine := by
    unfold Fits
    decide +kernel
  have long : ∀ line ∈ Bytes.lines fullLine, counts line = true := by
    decide +kernel
  have few : (Bytes.lines fullLine).length ≤ TaskNum := by
    decide +kernel
  have exited : ∀ w < 5, last.workers w = .exited := by
    intro w less
    exact eq_exited (List.all_eq_true.mp left w (List.mem_range.mpr less))
  have once := never 0 5 fullLine hastyEvents last isFit long few run
    (of_decide_eq_true finished) exited 0 (by omega)
  rw [handed] at once
  cases once

end Jobs
end Lab1
end CloudComputing
