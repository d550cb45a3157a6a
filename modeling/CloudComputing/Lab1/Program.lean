import CloudComputing.Lab1.Answers
import CloudComputing.Lab1.Legal
import CloudComputing.Lib.Termination

/-!
# The program until a worker is at the end of `Run`

`Run` returns a pointer and has no `return`, so what the program does after a
worker has left the loop is undefined.  Until then no assertion fails, some
thread can go on, and `Answer` has a solution for each puzzle that a worker has
been through, and an empty string for each that has none or has not been taken.
Each step lowers a measure, so every execution comes to the end of `Run`.
-/

namespace CloudComputing
namespace Lab1
namespace Jobs

open Run (AtRest)

variable {file line text : Bytes} {fuel n : Nat} {s next last : State}

/-! ## What `Answer` has for a puzzle -/

/-- What `%s` prints from this position on, with so many bytes of the array
behind it. -/
def textFrom (memory : Nat → UInt8) : Nat → Nat → Bytes
  | 0, _ => []
  | left + 1, position =>
      if memory position = 0 then []
      else memory position :: textFrom memory left (position + 1)

/-- `Answer[id]` as a string. -/
def State.answer (s : State) (id : Nat) : Bytes :=
  textFrom s.Answer (sudokuSize - id * slotSize) (id * slotSize)

/-- What `result` is to print for the puzzle of this line. -/
inductive Printed (line : Bytes) : Bytes → Prop
  | solution
      (filled : Board)
      (completes : Completes (boardOf line) filled) :
      Printed line ((List.range cellCount).map fun cell =>
        UInt8.ofNat (48 + filled cell))
  | unsolvable
      (none : ¬∃ filled, Completes (boardOf line) filled) :
      Printed line []

/-- A text without zeros is printed up to the zero behind it. -/
theorem textFrom_eq
    {memory : Nat → UInt8}
    {left position : Nat}
    (noZero : 0 ∉ text)
    (room : text.length < left)
    (stored : ∀ offset byte, (text ++ [0])[offset]? = some byte →
      memory (position + offset) = byte) :
    textFrom memory left position = text := by
  induction text generalizing left position with
  | nil =>
      obtain ⟨left, rfl⟩ := Nat.exists_eq_add_one.mpr room
      have zero : memory position = 0 := stored 0 0 rfl
      rw [textFrom, if_pos zero]
  | cons byte text inductionHypothesis =>
      rw [List.length_cons] at room
      obtain ⟨left, rfl⟩ := Nat.exists_eq_add_one.mpr (Nat.zero_lt_of_lt room)
      rw [List.mem_cons, not_or] at noZero
      have first : memory position = byte := stored 0 byte rfl
      rw [textFrom, first, if_neg (Ne.symm noZero.1)]
      congr 1
      apply inductionHypothesis noZero.2 (by omega)
      intro offset other found
      rw [Nat.add_right_comm]
      exact stored (offset + 1) other found

/-- The entries of a puzzle are digits. -/
theorem Puzzles.entries
    (puzzles : Puzzles file)
    (inside : line ∈ counted file) :
    ∀ cell < cellCount, boardOf line cell ≤ 9 := by
  intro cell less
  obtain ⟨byte, found, digit⟩ := puzzles.digit inside less
  unfold boardOf boardUpTo
  rw [if_pos less, List.getD_eq_getElem?_getD, found, Option.getD_some]
  omega

/-- What `Run` finds for a board. -/
theorem runBoard_cases
    {board : Board}
    (entries : ∀ cell < cellCount, board cell ≤ 9)
    (enough : kMaxNodes < fuel) :
    (∃ filled, runBoard fuel board = some (some filled) ∧
        Completes board filled) ∨
      runBoard fuel board = some none ∧
        ¬∃ filled, Completes board filled := by
  unfold runBoard
  rcases solveSudokuDancingLinks_spec entries enough with
    ⟨filled, executed, completes, _⟩ | ⟨executed, none⟩
  · left
    refine ⟨filled, ?_, completes⟩
    have isSolved := completes.valid.solved
    simp [executed, isSolved]
  · right
    refine ⟨?_, none⟩
    simp [executed]

/-- What is printed are digits. -/
theorem Printed.digits
    (printed : Printed line text) :
    ∀ byte ∈ text, 48 ≤ byte.toNat := by
  cases printed with
  | solution filled completes =>
      intro byte inside
      obtain ⟨cell, less, rfl⟩ := List.mem_map.mp inside
      have isDigit := completes.valid.digit (List.mem_range.mp less)
      rw [Lab1.digits, List.mem_range'_1] at isDigit
      rw [UInt8.toNat_ofNat']
      omega
  | unsolvable none => exact fun _ inside => absurd inside List.not_mem_nil

theorem Printed.not_mem
    (printed : Printed line text)
    {byte : UInt8}
    (small : byte.toNat < 48) :
    byte ∉ text :=
  fun inside => absurd (printed.digits byte inside) (Nat.not_le_of_lt small)

/-- An answer of `Run` is printed as expected. -/
theorem printed_of_answer
    {memory : Nat → UInt8}
    {left id : Nat}
    (puzzles : Puzzles file)
    (inside : line ∈ counted file)
    (enough : kMaxNodes < fuel)
    (room : slotSize ≤ left)
    (stored : ∀ offset < slotSize,
      memory (id * slotSize + offset) = answerByte fuel line offset) :
    Printed line (textFrom memory left (id * slotSize)) := by
  rcases runBoard_cases (puzzles.entries inside) enough with
    ⟨filled, run, completes⟩ | ⟨run, none⟩
  · have isText : textFrom memory left (id * slotSize) =
        (List.range cellCount).map fun cell =>
          UInt8.ofNat (48 + filled cell) := by
      apply textFrom_eq
        ((Printed.solution filled completes).not_mem (by decide))
      · rw [List.length_map, List.length_range]
        exact lt_of_lt_of_le (by decide) room
      · intro offset byte found
        have bound := (List.getElem?_eq_some_iff.mp found).1
        rw [List.length_append, List.length_map, List.length_range,
          List.length_singleton] at bound
        rw [stored offset (bound.trans (by decide))]
        unfold answerByte
        simp only [run]
        by_cases less : offset < cellCount
        · rw [List.getElem?_append_left (by simpa using less),
            List.getElem?_map, List.getElem?_range less,
            Option.map_some, Option.some_inj] at found
          exact (if_pos less).trans found
        · rw [List.getElem?_append_right (by simpa using less),
            List.length_map, List.length_range,
            (by omega : offset - cellCount = 0)] at found
          exact (if_neg less).trans (Option.some.inj found)
    rw [isText]
    exact .solution filled completes
  · have isText : textFrom memory left (id * slotSize) = [] := by
      apply textFrom_eq List.not_mem_nil
      · exact lt_of_lt_of_le (by decide) room
      · intro offset byte found
        have bound := (List.getElem?_eq_some_iff.mp found).1
        have first : offset = 0 := Nat.lt_one_iff.mp bound
        subst first
        rw [stored 0 (by decide)]
        unfold answerByte
        simp only [run]
        exact Option.some.inj found
    rw [isText]
    exact .unsolvable none

/-! ## The steps in front of the threads -/

/-- The steps of `main` with so many bytes in front of it. -/
def Reader.steps (bytes : Nat) : Reader → Nat
  | .reading 0 => 4 * bytes + 1
  | .reading (_ + 1) => 4 * bytes + 4
  | .ending _ => 4 * bytes + 3
  | .counting => 4 * bytes + 2
  | .finished => 0

/-- The steps of a worker before it leaves its loop or asks for a puzzle. -/
def Phase.steps : Phase → Nat
  | .check => 2
  | .job => 1
  | .input _ cell _ => cellCount - cell + 86
  | .solve _ _ => 85
  | .answer _ cell _ => cellCount - cell + 3
  | .exited => 0
  | .failed => 0

/-- A bound on the steps of the program.  Reading a line may pay for a worker
that takes it. -/
def work (n : Nat) (s : State) : Nat :=
  168 * s.reader.steps s.rest.length + 167 * (s.total - s.Sid) +
    ∑ w ∈ Finset.range n, (s.workers w).steps

theorem store_frame
    {offset : Nat}
    {byte : UInt8}
    (isStored : s.store offset byte = some next) :
    next.rest = s.rest ∧ next.total = s.total ∧ next.Sid = s.Sid ∧
      next.workers = s.workers := by
  rw [Read.store_eq isStored]
  exact ⟨rfl, rfl, rfl, rfl⟩

theorem mainStep_work
    (taken : s.mainStep = some next) :
    work n next < work n s := by
  unfold State.mainStep at taken
  split at taken
  case h_1 stored reader =>
    split at taken
    case isTrue room =>
      split at taken
      case h_1 rest =>
        cases taken
        unfold work
        rw [reader, rest]
        cases stored with
        | zero =>
            simp only [if_pos, Reader.steps, List.length_nil]
            omega
        | succ stored =>
            simp only [Nat.add_eq_zero_iff, one_ne_zero, and_false, if_false,
              Reader.steps, List.length_nil]
            omega
      case h_2 byte rest isRest =>
        obtain ⟨middle, isStored, rfl⟩ := Option.map_eq_some_iff.mp taken
        obtain ⟨_, total, sid, workers⟩ := store_frame isStored
        have before : 4 * rest.length + 5 ≤
            (Reader.reading stored).steps (byte :: rest).length := by
          cases stored with
          | zero => exact le_refl _
          | succ stored => exact Nat.le_add_right _ 3
        have after : (if byte = 10 then Reader.ending (stored + 1)
            else .reading (stored + 1)).steps rest.length ≤
              4 * rest.length + 4 := by
          split
          · exact Nat.le_succ _
          · exact le_refl _
        unfold work
        dsimp only
        rw [total, sid, workers, reader, isRest]
        omega
    case isFalse full =>
      cases taken
      unfold work
      rw [reader]
      cases stored with
      | zero => exact absurd (by decide) full
      | succ stored =>
          simp only [Reader.steps]
          omega
  case h_2 stored reader =>
    obtain ⟨middle, isStored, rfl⟩ := Option.map_eq_some_iff.mp taken
    obtain ⟨rest, total, sid, workers⟩ := store_frame isStored
    unfold work
    rw [rest, total, sid, workers, reader]
    simp only [Reader.steps]
    omega
  case h_3 reader =>
    cases taken
    have counted : (if s.longEnough then s.total + 1 else s.total) ≤
        s.total + 1 := by
      split
      · exact le_refl _
      · exact Nat.le_succ _
    unfold work
    rw [reader]
    simp only [Reader.steps]
    omega
  case h_4 => cases taken

/-- A worker goes on to a phase with fewer steps, or is paid for the puzzle
that it takes. -/
theorem goOn_work
    {middle : State}
    {w : Nat}
    {phase : Phase}
    (isWorker : w < n)
    (same : middle.rest = s.rest ∧ middle.reader = s.reader ∧
      middle.workers = s.workers)
    (fewer : phase.steps + 167 * (middle.total - middle.Sid) <
      (s.workers w).steps + 167 * (s.total - s.Sid)) :
    work n (middle.goOn w phase) < work n s := by
  obtain ⟨rest, reader, workers⟩ := same
  have sum := sum_update_add (Finset.mem_range.mpr isWorker) s.workers phase
    Phase.steps
  change 168 * middle.reader.steps middle.rest.length +
    167 * (middle.total - middle.Sid) + ∑ other ∈ Finset.range n,
      (Function.update middle.workers w phase other).steps < _
  rw [rest, reader, workers]
  unfold work
  omega

theorem Worked.work
    {w : Nat}
    (worked : Worked fuel w s next)
    (isWorker : w < n) :
    work n next < work n s := by
  cases worked with
  | takes phase less =>
      apply goOn_work isWorker
      · exact ⟨rfl, rfl, rfl⟩
      · rw [phase]
        simp only [Phase.steps, cellCount]
        omega
  | leaves phase _ | asks phase _ | refused phase _
  | unsolvable id board phase _ | fails id board phase _
  | reads id cell board after phase _ _ | rejects id cell board phase _ _
  | complete id cell board phase _ | writes id cell board phase _
  | written id cell board phase _ =>
      apply goOn_work isWorker
      · exact ⟨rfl, rfl, rfl⟩
      · rw [phase]
        simp only [Phase.steps]
        omega
  | solves id board after phase _ =>
      apply goOn_work isWorker
      · exact ⟨rfl, rfl, rfl⟩
      · rw [phase]
        simp only [Phase.steps, cellCount]
        omega

/-- Every step brings the end nearer. -/
theorem step_work
    {event : Event}
    (taken : step fuel n s event = some next) :
    work n next < work n s := by
  rcases step_cases taken with ⟨_, taken⟩ | ⟨w, isWorker, _, worked⟩
  · exact mainStep_work taken
  · exact worked.work isWorker

theorem work_start (n : Nat) (file : Bytes) :
    work n (start file) = 168 * (4 * file.length + 1) + 2 * n := by
  have sum : ∑ w ∈ Finset.range n, ((start file).workers w).steps = 2 * n := by
    change ∑ w ∈ Finset.range n, 2 = 2 * n
    rw [Finset.sum_const, Finset.card_range, smul_eq_mul, Nat.mul_comm]
  unfold work
  rw [sum]
  rfl

/-! ## The end of `Run` -/

/-- No worker is at the end of `Run`. -/
def Defined (n : Nat) (s : State) (_ : Event) : Prop :=
  ∀ w < n, s.workers w ≠ .exited

/-- The counted lines have slots. -/
theorem HasRoom.counted_le (room : HasRoom file) :
    (counted file).length ≤ TaskNum := by
  unfold counted
  by_cases none : Bytes.lines file = []
  · rw [none]
    exact Nat.zero_le _
  · have last := List.length_filter_le counts
      [(Bytes.lines file).getLast none]
    rw [List.length_singleton] at last
    unfold HasRoom at room
    rw [← List.dropLast_append_getLast none, List.filter_append,
      List.length_append]
    omega

/-- A worker stops behind its loop or at an assertion. -/
theorem stopped_of_rest
    {w : Nat}
    (rest : s.workerStep fuel w = none) :
    s.workers w = .exited ∨ s.workers w = .failed := by
  unfold State.workerStep at rest
  split at rest
  case h_1 => cases rest
  case h_2 =>
    split at rest
    · cases rest
    · cases rest
  case h_3 =>
    split at rest
    · split at rest
      · cases rest
      · cases rest
    · cases rest
  case h_4 =>
    split at rest
    · cases rest
    · cases rest
    · cases rest
  case h_5 =>
    split at rest
    · cases rest
    · cases rest
  case h_6 exited => exact Or.inl exited
  case h_7 failed => exact Or.inr failed

/-- Each part of `Answer` is inside of the array. -/
theorem HasRoom.slot_le
    (room : HasRoom file)
    {id : Nat}
    (isLine : (counted file)[id]? = some line) :
    slotSize ≤ sudokuSize - id * slotSize := by
  have less := (List.getElem?_eq_some_iff.mp isLine).1
  have slots := Nat.mul_le_mul_right slotSize
    (Nat.succ_le_of_lt (less.trans_le room.counted_le))
  rw [Nat.succ_mul] at slots
  apply Nat.le_sub_of_add_le
  rw [Nat.add_comm]
  exact slots

/-- `Answer` has nothing for a puzzle that nobody has taken. -/
theorem Working.answer_eq_nil
    (working : Working fuel file s)
    (room : HasRoom file)
    {id : Nat}
    (isLine : (counted file)[id]? = some line)
    (untaken : s.Sid ≤ id) :
    s.answer id = [] := by
  apply textFrom_eq List.not_mem_nil
  · exact lt_of_lt_of_le (by decide) (room.slot_le isLine)
  · intro offset byte found
    have bound := (List.getElem?_eq_some_iff.mp found).1
    have first : offset = 0 := Nat.lt_one_iff.mp bound
    subst first
    rw [working.untouched id untaken 0 (by decide)]
    exact Option.some.inj found

/-- As long as no worker is at the end of `Run`, a thread can go on. -/
theorem exists_step
    (puzzles : Puzzles file)
    (enough : kMaxNodes < fuel)
    (crew : 0 < n)
    {events : List Event}
    (run : Run (step fuel n) Run.free (start file) events s)
    (running : ∀ w < n, s.workers w ≠ .exited) :
    ∃ event next, step fuel n s event = some next := by
  obtain ⟨_, _, working⟩ := reached puzzles enough run
  cases taken : s.workerStep fuel 0 with
  | some next => exact ⟨.worker 0, next, (if_pos crew).trans taken⟩
  | none =>
      rcases stopped_of_rest taken with exited | failed
      · exact absurd exited (running 0 crew)
      · have correct := working.correct 0
        rw [failed] at correct
        exact correct.elim

/-- What holds as long as no worker is at the end of `Run`, and that the
program always comes there. -/
theorem end_of_Run_reached
    (puzzles : Puzzles file)
    (room : HasRoom file)
    (enough : kMaxNodes < fuel)
    (crew : 0 < n)
    {events : List Event}
    (run : Run (step fuel n) (Defined n) (start file) events s) :
    (∀ w, s.workers w ≠ .failed) ∧
      (∀ id line, (counted file)[id]? = some line →
        (Processed s id → Printed line (s.answer id)) ∧
          (s.Sid ≤ id → s.answer id = [])) ∧
      ((∀ w < n, s.workers w ≠ .exited) →
        ∃ event next, step fuel n s event = some next) ∧
      events.length ≤ 168 * (4 * file.length + 1) + 2 * n ∧
      ∃ later last, Run (step fuel n) (Defined n) s later last ∧
        ∃ w < n, last.workers w = .exited := by
  have keeps : ∀ (state : State) (event : Event) (next : State), True →
      Defined n state event → step fuel n state event = some next → True :=
    fun _ _ _ _ _ _ => trivial
  have lowers : ∀ (state : State) (event : Event) (next : State), True →
      Defined n state event → step fuel n state event = some next →
        work n next < work n state :=
    fun _ _ _ _ _ taken => step_work taken
  have free := run.mono fun _ _ _ => trivial
  obtain ⟨_, _, working⟩ := reached puzzles enough free
  have bound := run.length_add_le keeps lowers trivial
  rw [work_start] at bound
  refine ⟨?_, ?_, exists_step puzzles enough crew free, by omega, ?_⟩
  · intro w failed
    have correct := working.correct w
    rw [failed] at correct
    exact correct
  · intro id line isLine
    refine ⟨?_, working.answer_eq_nil room isLine⟩
    intro processed
    obtain ⟨line', isLine', answered⟩ := answered puzzles enough free processed
    rw [isLine, Option.some_inj] at isLine'
    subst isLine'
    exact printed_of_answer puzzles (List.mem_of_getElem? isLine) enough
      (room.slot_le isLine) answered.answer
  · obtain ⟨later, last, further, rest⟩ :
        ∃ later last, Run (step fuel n) (Defined n) s later last ∧
          AtRest (step fuel n) (Defined n) last :=
      Run.exists_atRest keeps lowers trivial
    refine ⟨later, last, further, ?_⟩
    by_contra running
    push Not at running
    obtain ⟨event, next, taken⟩ := exists_step puzzles enough crew
      (free.append (further.mono fun _ _ _ => trivial)) running
    exact rest event next running taken

/-- A check for a state with no worker at the end of `Run`. -/
def definedCheck (n : Nat) (s : State) (_ : Event) : Bool :=
  (List.range n).all fun w => !(s.workers w).hasExited

theorem defined_of_check
    (s : State)
    (event : Event)
    (checked : definedCheck n s event = true) :
    Defined n s event := by
  intro w isWorker exited
  have running := List.all_eq_true.mp checked w (List.mem_range.mpr isWorker)
  rw [exited] at running
  cases running

/-- The first puzzle has been processed, the other worker is busy with the
second one, and nobody has taken the third one. -/
def middleEvents : List Event :=
  List.flatten
    [List.replicate 168 .main, [.worker 1, .worker 1],
      (List.replicate 85 [.main, .worker 1]).flatten, [.worker 0, .worker 0],
      (List.replicate 80 [.worker 0, .worker 1]).flatten]

theorem end_of_Run_reached_threeLines :
    ∃ s : State, Printed fullLine (s.answer 0) ∧ s.answer 2 = [] ∧
      ∃ later last, Run (step 4000 2) (Defined 2) s later last ∧
        ∃ w < 2, last.workers w = .exited := by
  have executed : (middleEvents.foldlM
      (fun s event => if definedCheck 2 s event then step 4000 2 s event
        else none) (start threeLines)).map (fun s =>
          (s.Sid, processedCheck 1 0 s)) = some (2, true) := by
    decide +kernel
  obtain ⟨s, executed, seen⟩ := Option.map_eq_some_iff.mp executed
  obtain ⟨taken, checked⟩ := Prod.mk.inj seen
  have lines : Bytes.lines threeLines = [fullLine, fullLine, fullLine] := by
    decide +kernel
  have all : counted threeLines = [fullLine, fullLine, fullLine] := by
    decide +kernel
  have puzzles : Puzzles threeLines := by
    intro line inside
    rw [lines] at inside
    simp only [List.mem_cons, List.not_mem_nil, or_false, or_self] at inside
    rw [inside]
    exact puzzleLine_fullLine
  have room : HasRoom threeLines := by
    unfold HasRoom
    rw [lines]
    decide
  obtain ⟨_, answers, _, _, ends⟩ := end_of_Run_reached puzzles room
    (by decide : kMaxNodes < 4000) (by decide)
    (Run.of_checked defined_of_check executed)
  rw [all] at answers
  exact ⟨s, (answers 0 fullLine rfl).1 (processed_of_check checked),
    (answers 2 fullLine rfl).2 taken.le, ends⟩

end Jobs
end Lab1
end CloudComputing
