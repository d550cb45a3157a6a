import CloudComputing.Lab1.Lost
import CloudComputing.Lab1.Puzzles

/-!
# Answers

When each line is a row of digits that `main` skips or counts as a puzzle, a
worker reads the line it was handed and nothing else, and writes the answer of
the solver to its own part of `Answer`.  So the answers are the same in every
run, whatever the order of the steps.
-/

namespace CloudComputing
namespace Lab1
namespace Jobs

variable {file line : Bytes} {fuel n : Nat} {s next last : State}

/-! ## Lines of digits -/

/-- Digits, fewer than 80 or from 81 to 126, with or without a newline. -/
def PuzzleLine (line : Bytes) : Prop :=
  ∃ text : Bytes, (line = text ++ [10] ∨ line = text) ∧
    (∀ byte ∈ text, 48 ≤ byte.toNat ∧ byte.toNat ≤ 57) ∧
    (text.length < 80 ∨ 81 ≤ text.length ∧ text.length ≤ 126)

/-- Each line of the file is one of digits. -/
def Puzzles (file : Bytes) : Prop :=
  ∀ line ∈ Bytes.lines file, PuzzleLine line

theorem Puzzles.fits (puzzles : Puzzles file) : Fits file := by
  intro line inside
  obtain ⟨text, isLine, _, bounds⟩ := puzzles line inside
  unfold slotSize
  rcases isLine with rfl | rfl
  · rw [List.length_append, List.length_singleton]
    omega
  · omega

/-- The first characters of a puzzle are digits. -/
theorem Puzzles.digit
    (puzzles : Puzzles file)
    (inside : line ∈ counted file)
    {cell : Nat}
    (less : cell < cellCount) :
    ∃ byte, (line)[cell]? = some byte ∧ 48 ≤ byte.toNat ∧ byte.toNat ≤ 57 := by
  obtain ⟨inFile, isCounted⟩ := List.mem_filter.mp inside
  obtain ⟨text, isLine, digits, bounds⟩ := puzzles line inFile
  have long : cellCount ≤ line.length := by
    by_contra short
    have last := List.all_eq_true.mp isCounted line.length
      (List.mem_range.mpr (by omega))
    rw [List.getD_eq_getElem?_getD, List.getElem?_eq_none (le_refl _)] at last
    cases last
  have inText : cell < text.length := by
    unfold cellCount at long less
    rcases isLine with rfl | rfl
    · rw [List.length_append, List.length_singleton] at long
      omega
    · omega
  refine ⟨text[cell], ?_, digits _ (List.getElem_mem inText)⟩
  rcases isLine with rfl | rfl
  · rw [List.getElem?_append_left inText, List.getElem?_eq_getElem inText]
  · exact List.getElem?_eq_getElem inText

/-! ## What a worker computes -/

/-- The board of a line after so many cells. -/
def boardUpTo (line : Bytes) (count : Nat) : Board :=
  fun cell => if cell < count then (line.getD cell 0).toNat - 48 else 0

/-- The board of a line. -/
def boardOf (line : Bytes) : Board :=
  boardUpTo line cellCount

/-- A byte of the answer to a line: the digit of the solution, and zero when
there is none. -/
def answerByte (fuel : Nat) (line : Bytes) (offset : Nat) : UInt8 :=
  match runBoard fuel (boardOf line) with
  | some (some board) =>
      if offset < cellCount then UInt8.ofNat (48 + board offset) else 0
  | _ => 0

/-- The first bytes of the answer to a line. -/
def answerUpTo (fuel : Nat) (line : Bytes) (count offset : Nat) : UInt8 :=
  if offset < count then answerByte fuel line offset else 0

/-- How many bytes of the answer to this puzzle are in `Answer`, by the phase
of the worker it was handed to. -/
def Phase.written (id : Nat) : Phase → Nat
  | input other _ _ => if other = id then 0 else cellCount
  | solve other _ => if other = id then 0 else cellCount
  | answer other cell _ => if other = id then cell else cellCount
  | _ => cellCount

/-- What a worker has in its variables. -/
def Phase.Correct (fuel : Nat) (file : Bytes) : Phase → Prop
  | input id cell board => ∀ line, (counted file)[id]? = some line →
      cell ≤ cellCount ∧ board = boardUpTo line cell
  | solve id board => ∀ line, (counted file)[id]? = some line →
      board = boardOf line
  | answer id cell board => cell ≤ cellCount ∧
      ∀ line, (counted file)[id]? = some line →
        runBoard fuel (boardOf line) = some (some board)
  | failed => False
  | _ => True

/-- The next cell of the board. -/
theorem inputCell_eq
    {memory : Nat → UInt8}
    {id cell : Nat}
    {byte : UInt8}
    (holds : Holds memory id (line ++ [0]))
    (found : (line)[cell]? = some byte)
    (digit : 48 ≤ byte.toNat ∧ byte.toNat ≤ 57) :
    inputCell (fun offset => memory (id * slotSize + offset))
        (boardUpTo line cell) cell =
      some (boardUpTo line (cell + 1)) := by
  have bound := (List.getElem?_eq_some_iff.mp found).1
  have stored : memory (id * slotSize + cell) = byte := by
    apply holds
    rw [List.getElem?_append_left bound]
    exact found
  have inRange : 48 ≤ byte.toNat ∧ byte.toNat ≤ 48 + num := digit
  unfold inputCell
  simp only [stored]
  rw [if_pos inRange]
  congr 1
  funext other
  rw [Function.update_apply]
  unfold boardUpTo
  split
  case isTrue same =>
    rw [if_pos (by omega), same, List.getD_eq_getElem?_getD, found,
      Option.getD_some]
  case isFalse differs =>
    have same : other < cell ↔ other < cell + 1 := by omega
    simp only [same]

/-- The solver returns for each puzzle, without a failed assertion. -/
theorem Puzzles.runs
    (puzzles : Puzzles file)
    (inside : line ∈ counted file)
    (enough : kMaxNodes < fuel) :
    runBoard fuel (boardOf line) ≠ none := by
  have entries : ∀ cell < cellCount, boardOf line cell ≤ 9 := by
    intro cell less
    obtain ⟨byte, found, digit⟩ := puzzles.digit inside less
    unfold boardOf boardUpTo
    rw [if_pos less, List.getD_eq_getElem?_getD, found, Option.getD_some]
    omega
  rcases solveSudokuDancingLinks_spec entries enough with
    ⟨filled, executed, completes, _⟩ | ⟨executed, _⟩
  · have run : runBoard fuel (boardOf line) = (solved filled).bind fun ok =>
        if ok then some (some filled) else none := by
      unfold runBoard
      rw [executed]
      rfl
    rw [run, completes.valid.solved]
    exact Option.some_ne_none _
  · unfold runBoard
    rw [executed]
    exact Option.some_ne_none _

/-! ## The invariant of the workers -/

/-- Each worker works on what it was handed, and `Answer` has what has been
written of the answers. -/
structure Working (fuel : Nat) (file : Bytes) (s : State) : Prop where
  busy : ∀ w id, (s.workers w).busy = some id → (w, id) ∈ s.handed
  correct : ∀ w, (s.workers w).Correct fuel file
  answers : ∀ w id line, (w, id) ∈ s.handed →
    (counted file)[id]? = some line → ∀ offset < slotSize,
      s.Answer (id * slotSize + offset) =
        answerUpTo fuel line ((s.workers w).written id) offset
  untouched : ∀ id, s.Sid ≤ id → ∀ offset < slotSize,
    s.Answer (id * slotSize + offset) = 0

namespace Working

theorem start (fuel : Nat) (file : Bytes) :
    Working fuel file (start file) where
  busy := by
    intro w id busy
    cases busy
  correct := fun _ => trivial
  answers := by
    intro w id line handed
    cases handed
  untouched := fun _ _ _ _ => rfl

/-- What `getJob` has returned is below `Sid`. -/
theorem lt_of_handed
    (handed : Handed s)
    {w id : Nat}
    (member : (w, id) ∈ s.handed) :
    id < s.Sid := by
  have inside : id ∈ s.handed.map Prod.snd := List.mem_map_of_mem member
  rw [handed.ids] at inside
  exact List.mem_range.mp inside

/-- It was returned to one worker. -/
theorem unique
    (handed : Handed s)
    {w other id : Nat}
    (member : (w, id) ∈ s.handed)
    (member' : (other, id) ∈ s.handed) :
    w = other := by
  have nodup : (s.handed.map Prod.snd).Nodup := by
    rw [handed.ids]
    exact List.nodup_range
  exact congrArg Prod.fst
    (List.inj_on_of_nodup_map nodup member member' rfl)

/-- The line of a puzzle that has been counted is in its slot. -/
theorem stored
    (reads : Reads file s)
    {id : Nat}
    (less : id < s.total)
    (isLine : (counted file)[id]? = some line) :
    Holds s.sudoku id (line ++ [0]) := by
  obtain ⟨done, read⟩ := reads
  apply read.slots
  rw [read.total] at less
  obtain ⟨later, split⟩ := read.isCounted
  rw [← split, List.getElem?_append_left less] at isLine
  exact isLine

/-- Puzzles that have been counted are lines of the file. -/
theorem exists_line
    (reads : Reads file s)
    {id : Nat}
    (less : id < s.total) :
    ∃ line, (counted file)[id]? = some line :=
  ⟨_, List.getElem?_eq_getElem (less.trans_le reads.total_le)⟩

/-- A worker goes on in another phase, and what it has written is the same. -/
theorem goOn
    (working : Working fuel file s)
    {w : Nat}
    {phase : Phase}
    (busy : ∀ id, phase.busy = some id → (w, id) ∈ s.handed)
    (correct : phase.Correct fuel file)
    (written : ∀ id line, (w, id) ∈ s.handed →
      (counted file)[id]? = some line →
        answerUpTo fuel line (phase.written id) =
          answerUpTo fuel line ((s.workers w).written id)) :
    Working fuel file (s.goOn w phase) where
  busy := by
    intro other id isBusy
    change (Function.update s.workers w phase other).busy = some id at isBusy
    rw [Function.update_apply] at isBusy
    split at isBusy
    case isTrue same => exact same ▸ busy id isBusy
    case isFalse => exact working.busy other id isBusy
  correct := by
    intro other
    change (Function.update s.workers w phase other).Correct fuel file
    rw [Function.update_apply]
    split
    · exact correct
    · exact working.correct other
  answers := by
    intro other id line handed isLine offset less
    change s.Answer _ = answerUpTo fuel line
      ((Function.update s.workers w phase other).written id) offset
    rw [working.answers other id line handed isLine offset less]
    by_cases same : other = w
    · subst same
      rw [Function.update_self]
      rw [written id line handed isLine]
    · rw [Function.update_of_ne same]
  untouched := working.untouched

/-- A worker goes on with what it is busy with, and writes nothing. -/
theorem goOn_same
    (working : Working fuel file s)
    {w : Nat}
    {phase : Phase}
    (busy : ∀ id, phase.busy = some id → (s.workers w).busy = some id)
    (correct : phase.Correct fuel file)
    (written : ∀ id, phase.written id = (s.workers w).written id) :
    Working fuel file (s.goOn w phase) := by
  apply working.goOn
  · intro id isBusy
    exact working.busy w id (busy id isBusy)
  · exact correct
  · intro id line _ _
    rw [written id]

/-- The cell that a worker reads is the one of its line. -/
theorem inputCell_line
    (working : Working fuel file s)
    (reads : Reads file s)
    (handed : Handed s)
    (puzzles : Puzzles file)
    {w id cell : Nat}
    {board : Board}
    (phase : s.workers w = .input id cell board)
    (less : cell < cellCount) :
    ∃ line, (counted file)[id]? = some line ∧
      inputCell (fun offset => s.sudoku (id * slotSize + offset)) board cell =
        some (boardUpTo line (cell + 1)) := by
  have isBusy : (s.workers w).busy = some id := by
    rw [phase]
    rfl
  have below := (lt_of_handed handed (working.busy w id isBusy)).trans_le
    handed.Sid_le
  obtain ⟨line, isLine⟩ := exists_line reads below
  have holds := stored reads below isLine
  obtain ⟨byte, found, digit⟩ :=
    puzzles.digit (List.mem_of_getElem? isLine) less
  have correct := working.correct w
  rw [phase] at correct
  obtain ⟨_, rfl⟩ := correct line isLine
  exact ⟨line, isLine, inputCell_eq holds found digit⟩

/-- `solve` does not fail on the board of a worker. -/
theorem runs
    (working : Working fuel file s)
    (reads : Reads file s)
    (handed : Handed s)
    (puzzles : Puzzles file)
    (enough : kMaxNodes < fuel)
    {w id : Nat}
    {board : Board}
    (phase : s.workers w = .solve id board) :
    runBoard fuel board ≠ none := by
  have isBusy : (s.workers w).busy = some id := by
    rw [phase]
    rfl
  have below := (lt_of_handed handed (working.busy w id isBusy)).trans_le
    handed.Sid_le
  obtain ⟨line, isLine⟩ := exists_line reads below
  have correct := working.correct w
  rw [phase] at correct
  rw [correct line isLine]
  exact puzzles.runs (List.mem_of_getElem? isLine) enough

/-- The worker is handed the next puzzle. -/
theorem takes
    (working : Working fuel file s)
    (handed : Handed s)
    {w : Nat}
    (phase : s.workers w = .job)
    (shutdown : Bool) :
    Working fuel file
      ({ s with
        Sid := s.Sid + 1
        shutdown := shutdown
        handed := s.handed ++ [(w, s.Sid)] }.goOn w
          (.input s.Sid 0 fun _ => 0)) where
  busy := by
    intro other id isBusy
    change (Function.update s.workers w _ other).busy = some id at isBusy
    rw [Function.update_apply] at isBusy
    split at isBusy
    case isTrue same =>
      cases isBusy
      rw [same]
      exact List.mem_append_right _ List.mem_cons_self
    case isFalse =>
      exact List.mem_append_left _ (working.busy other id isBusy)
  correct := by
    intro other
    change (Function.update s.workers w _ other).Correct fuel file
    rw [Function.update_apply]
    split
    · exact fun line _ => ⟨Nat.zero_le _, rfl⟩
    · exact working.correct other
  answers := by
    intro other id line member isLine offset less
    change s.Answer _ = answerUpTo fuel line
      ((Function.update s.workers w _ other).written id) offset
    rcases List.mem_append.mp member with member | member
    · have old := lt_of_handed handed member
      rw [working.answers other id line member isLine offset less]
      by_cases same : other = w
      · subst same
        have differs : s.Sid ≠ id := by omega
        rw [Function.update_self, phase]
        simp only [Phase.written, if_neg differs]
      · rw [Function.update_of_ne same]
    · cases List.mem_singleton.mp member
      rw [working.untouched s.Sid (le_refl _) offset less,
        Function.update_self]
      simp only [Phase.written, if_pos]
      exact (if_neg (Nat.not_lt_zero offset)).symm
  untouched := by
    intro id above offset less
    exact working.untouched id (Nat.le_of_succ_le above) offset less

/-- The worker writes a byte of its answer. -/
theorem writes
    (working : Working fuel file s)
    (handed : Handed s)
    {w id cell : Nat}
    {board : Board}
    (phase : s.workers w = .answer id cell board)
    (less : cell < cellCount) :
    Working fuel file
      ({ s with
        Answer := Function.update s.Answer (id * slotSize + cell)
          (UInt8.ofNat (48 + board cell)) }.goOn w
            (.answer id (cell + 1) board)) := by
  have isBusy : (s.workers w).busy = some id := by
    rw [phase]
    rfl
  have member := working.busy w id isBusy
  have correct := working.correct w
  rw [phase] at correct
  have inSlot : cell < slotSize := less.trans (by decide)
  have elsewhere : ∀ other offset, other ≠ id → offset < slotSize →
      other * slotSize + offset ≠ id * slotSize + cell := by
    intro other offset differs inSlot'
    unfold slotSize at inSlot inSlot' ⊢
    omega
  refine ⟨?_, ?_, ?_, ?_⟩
  · intro other id' busy
    change (Function.update s.workers w _ other).busy = some id' at busy
    rw [Function.update_apply] at busy
    split at busy
    case isTrue same =>
      cases busy
      rw [same]
      exact member
    case isFalse => exact working.busy other id' busy
  · intro other
    change (Function.update s.workers w _ other).Correct fuel file
    rw [Function.update_apply]
    split
    · exact ⟨less, correct.2⟩
    · exact working.correct other
  · intro other id' line member' isLine offset inSlot'
    change Function.update s.Answer _ _ _ = answerUpTo fuel line
      ((Function.update s.workers w _ other).written id') offset
    have before := working.answers other id' line member' isLine offset inSlot'
    by_cases isId : id' = id
    · subst isId
      have same : other = w := unique handed member' member
      subst same
      rw [phase] at before
      simp only [Phase.written, if_pos] at before
      rw [Function.update_self]
      simp only [Phase.written, if_pos]
      by_cases isCell : offset = cell
      · subst isCell
        rw [Function.update_self]
        unfold answerUpTo answerByte
        rw [if_pos (Nat.lt_succ_self offset), correct.2 line isLine]
        exact (if_pos less).symm
      · have same : offset < cell + 1 ↔ offset < cell := by omega
        rw [Function.update_of_ne (by omega), before]
        unfold answerUpTo
        simp only [same]
    · rw [Function.update_of_ne (elsewhere id' offset isId inSlot'), before]
      by_cases same : other = w
      · subst same
        rw [Function.update_self, phase]
        simp only [Phase.written, if_neg (Ne.symm isId)]
      · rw [Function.update_of_ne same]
  · intro id' above offset inSlot'
    have differs : id' ≠ id := by
      have low := lt_of_handed handed member
      change s.Sid ≤ id' at above
      omega
    change Function.update s.Answer _ _ _ = 0
    rw [Function.update_of_ne (elsewhere id' offset differs inSlot')]
    exact working.untouched id' above offset inSlot'

/-- A worker that is done with a puzzle, or without one, goes on. -/
theorem goOn_idle
    (working : Working fuel file s)
    {w : Nat}
    {phase : Phase}
    (idle : phase.busy = none)
    (correct : phase.Correct fuel file)
    (written : ∀ id, phase.written id = (s.workers w).written id) :
    Working fuel file (s.goOn w phase) := by
  refine working.goOn_same (fun id isBusy => ?_) correct written
  rw [idle] at isBusy
  cases isBusy

/-- The answer slot of a puzzle without a solution stays empty. -/
theorem unsolvable
    (working : Working fuel file s)
    {w id : Nat}
    {board : Board}
    (phase : s.workers w = .solve id board)
    (run : runBoard fuel board = some none) :
    Working fuel file (s.goOn w .check) := by
  have correct := working.correct w
  rw [phase] at correct
  apply working.goOn
  · intro id' isBusy
    cases isBusy
  · trivial
  · intro id' line _ found
    rw [phase]
    simp only [Phase.written]
    split
    case isTrue same =>
      subst same
      funext offset
      unfold answerUpTo answerByte
      rw [← correct line found, run, ite_self, ite_self]
    case isFalse => rfl

/-- `main` does not touch what belongs to the workers. -/
theorem mainStep
    (working : Working fuel file s)
    (taken : s.mainStep = some next) :
    Working fuel file next := by
  obtain ⟨sid, _, answer, workers, isHanded, _⟩ := mainStep_frame taken
  refine ⟨?_, ?_, ?_, ?_⟩
  · rw [workers, isHanded]
    exact working.busy
  · rw [workers]
    exact working.correct
  · rw [workers, isHanded, answer]
    exact working.answers
  · rw [sid, answer]
    exact working.untouched

/-- A step of a worker keeps it. -/
theorem worked
    {w : Nat}
    (working : Working fuel file s)
    (reads : Reads file s)
    (handed : Handed s)
    (puzzles : Puzzles file)
    (enough : kMaxNodes < fuel)
    (worked : Worked fuel w s next) :
    Working fuel file next := by
  have correct := working.correct w
  cases worked with
  | leaves phase shutdown =>
      refine working.goOn_idle rfl trivial fun id => ?_
      rw [phase]
      rfl
  | asks phase shutdown =>
      refine working.goOn_idle rfl trivial fun id => ?_
      rw [phase]
      rfl
  | refused phase none =>
      refine working.goOn_idle rfl trivial fun id => ?_
      rw [phase]
      rfl
  | takes phase less => exact working.takes handed phase _
  | reads id cell board after phase less read =>
      obtain ⟨line, found, isNext⟩ :=
        working.inputCell_line reads handed puzzles phase less
      rw [isNext] at read
      cases read
      apply working.goOn_same
      · intro id' isBusy
        rw [phase]
        exact isBusy
      · intro line' found'
        rw [found] at found'
        cases found'
        exact ⟨less, rfl⟩
      · intro id'
        rw [phase]
        rfl
  | rejects id cell board phase less read =>
      obtain ⟨line, _, isNext⟩ :=
        working.inputCell_line reads handed puzzles phase less
      rw [isNext] at read
      cases read
  | complete id cell board phase all =>
      rw [phase] at correct
      apply working.goOn_same
      · intro id' isBusy
        rw [phase]
        exact isBusy
      · intro line found
        obtain ⟨short, isBoard⟩ := correct line found
        rw [isBoard, le_antisymm short all]
        rfl
      · intro id'
        rw [phase]
        rfl
  | solves id board after phase run =>
      rw [phase] at correct
      apply working.goOn_same
      · intro id' isBusy
        rw [phase]
        exact isBusy
      · refine ⟨Nat.zero_le _, ?_⟩
        intro line found
        rw [← correct line found]
        exact run
      · intro id'
        rw [phase]
        rfl
  | unsolvable id board phase run => exact working.unsolvable phase run
  | fails id board phase run =>
      exact absurd run (working.runs reads handed puzzles enough phase)
  | writes id cell board phase less => exact working.writes handed phase less
  | written id cell board phase all =>
      rw [phase] at correct
      refine working.goOn_idle rfl trivial fun id' => ?_
      have isAll : cell = cellCount := le_antisymm correct.1 all
      rw [phase, isAll]
      simp only [Phase.written, ite_self]

/-- Every step keeps it. -/
theorem step
    {event : Event}
    (working : Working fuel file s)
    (reads : Reads file s)
    (handed : Handed s)
    (puzzles : Puzzles file)
    (enough : kMaxNodes < fuel)
    (taken : step fuel n s event = some next) :
    Working fuel file next := by
  rcases step_cases taken with ⟨_, taken⟩ | ⟨w, _, _, worked⟩
  · exact working.mainStep taken
  · exact working.worked reads handed puzzles enough worked

end Working

/-! ## Runs -/

/-- Every reachable state. -/
theorem reached
    (puzzles : Puzzles file)
    (enough : kMaxNodes < fuel)
    {events : List Event}
    (run : Run (step fuel n) Run.free (start file) events s) :
    Reads file s ∧ Handed s ∧ Working fuel file s := by
  have keeps : ∀ state event next,
      (Reads file state ∧ Handed state ∧ Working fuel file state) →
      Run.free state event → step fuel n state event = some next →
        Reads file next ∧ Handed next ∧ Working fuel file next := by
    rintro state event next ⟨reads, handed, working⟩ _ taken
    exact ⟨reads.step puzzles.fits taken, handed.step taken,
      working.step reads handed puzzles enough taken⟩
  exact run.preserves keeps
    ⟨⟨[], Read.start file⟩, Handed.start file, Working.start fuel file⟩

/-- The puzzle was handed to a worker that is not busy with it any more. -/
def Processed (s : State) (id : Nat) : Prop :=
  ∃ w, (w, id) ∈ s.handed ∧ (s.workers w).busy ≠ some id

/-- What a run does with the puzzle of this line: `getJob` returns it to one
worker, when the line is complete in its slot; the line stays there; and the
answer is the one of the solver. -/
structure Answered
    (fuel n : Nat)
    (file : Bytes)
    (id : Nat)
    (line : Bytes)
    (events : List Event)
    (last : State) : Prop where
  once : last.handed.countP (fun job => job.2 = id) = 1
  complete : ∀ before after w middle next,
    events = before ++ .worker w :: after →
    Run (step fuel n) Run.free (start file) before middle →
    step fuel n middle (.worker w) = some next →
    next.handed = middle.handed ++ [(w, id)] →
      Holds middle.sudoku id (line ++ [0])
  kept : ∀ before after middle, events = before ++ after →
    Run (step fuel n) Run.free (start file) before middle →
    ∀ w, (w, id) ∈ middle.handed → Holds middle.sudoku id (line ++ [0])
  answer : ∀ offset < slotSize,
    last.Answer (id * slotSize + offset) = answerByte fuel line offset

/-- A worker that is not busy with a puzzle has written its answer. -/
theorem written_of_not_busy
    {phase : Phase}
    {id : Nat}
    (idle : phase.busy ≠ some id) :
    phase.written id = cellCount := by
  cases phase with
  | input other cell board =>
      exact if_neg fun same => idle (congrArg some same)
  | solve other board =>
      exact if_neg fun same => idle (congrArg some same)
  | answer other cell board =>
      exact if_neg fun same => idle (congrArg some same)
  | _ => rfl

/-- Beyond the digits an answer has zeros only. -/
theorem answerUpTo_cellCount (fuel : Nat) (line : Bytes) (offset : Nat) :
    answerUpTo fuel line cellCount offset = answerByte fuel line offset := by
  unfold answerUpTo
  split
  case isTrue => rfl
  case isFalse above =>
    unfold answerByte
    split
    · exact (if_neg above).symm
    · rfl

/-- What every run does with the puzzles that it has processed. -/
theorem answered
    (puzzles : Puzzles file)
    (enough : kMaxNodes < fuel)
    {events : List Event}
    (run : Run (step fuel n) Run.free (start file) events last)
    {id : Nat}
    (processed : Processed last id) :
    ∃ line, (counted file)[id]? = some line ∧
      Answered fuel n file id line events last := by
  obtain ⟨reads, handed, working⟩ := reached puzzles enough run
  obtain ⟨w, member, idle⟩ := processed
  have less := Working.lt_of_handed handed member
  obtain ⟨line, isLine⟩ :=
    Working.exists_line reads (less.trans_le handed.Sid_le)
  refine ⟨line, isLine, handed.once less, ?_, ?_, ?_⟩
  · intro before after w middle next _ toMiddle taken isHanded
    obtain ⟨reads, handed, _⟩ := reached puzzles enough toMiddle
    apply Working.stored reads _ isLine
    rcases step_cases taken with ⟨isMain, _⟩ | ⟨other, _, isWorker, worked⟩
    · cases isMain
    · cases worked with
      | takes phase counted =>
          have same : middle.handed ++ [(other, middle.Sid)] =
              middle.handed ++ [(w, id)] := isHanded
          have isId := List.append_cancel_left same
          cases isId
          exact counted
      | _ =>
          have same : middle.handed = middle.handed ++ [(w, id)] := isHanded
          have longer := congrArg List.length same
          rw [List.length_append, List.length_singleton] at longer
          omega
  · intro before after middle _ toMiddle w member
    obtain ⟨reads, handed, _⟩ := reached puzzles enough toMiddle
    have less := Working.lt_of_handed handed member
    exact Working.stored reads (less.trans_le handed.Sid_le) isLine
  · intro offset inSlot
    rw [working.answers w id line member isLine offset inSlot,
      written_of_not_busy idle, answerUpTo_cellCount]

/-- The answers do not depend on the schedule: two runs over the same file that
have processed a puzzle have read the same line for it and have the same
answer. -/
theorem answers_agree
    {n' : Nat}
    {last' : State}
    (puzzles : Puzzles file)
    (enough : kMaxNodes < fuel)
    {events events' : List Event}
    (run : Run (step fuel n) Run.free (start file) events last)
    (run' : Run (step fuel n') Run.free (start file) events' last')
    {id : Nat}
    (processed : Processed last id)
    (processed' : Processed last' id) :
    ∃ line, (counted file)[id]? = some line ∧
      Answered fuel n file id line events last ∧
      Answered fuel n' file id line events' last' ∧
      ∀ offset < slotSize, last.Answer (id * slotSize + offset) =
        last'.Answer (id * slotSize + offset) := by
  obtain ⟨line, isLine, answered⟩ := answered puzzles enough run processed
  obtain ⟨line', isLine', answered'⟩ := Jobs.answered puzzles enough run'
    processed'
  rw [isLine] at isLine'
  cases isLine'
  refine ⟨line, isLine, answered, answered', ?_⟩
  intro offset inSlot
  rw [answered.answer offset inSlot, answered'.answer offset inSlot]

/-- A short line in front of a puzzle. -/
def shortAndFull : Bytes :=
  str "12\n" ++ fullLine

/-- The only worker begins when `main` has read the file. -/
def lateEvents : List Event :=
  List.replicate 89 .main ++ List.replicate 168 (.worker 0)

/-- The second worker takes the puzzle, and the first one asks between its
steps. -/
def busyEvents : List Event :=
  [.worker 0] ++ List.replicate 89 .main ++
    List.replicate 50 (.worker 1) ++ [.worker 0] ++
    List.replicate 118 (.worker 1)

/-- The puzzle was handed to this worker, which is between two puzzles. -/
def processedCheck (w id : Nat) (s : State) : Bool :=
  s.handed.contains (w, id) && (s.workers w).busy.isNone

theorem processed_of_check
    {w id : Nat}
    (checked : processedCheck w id s = true) :
    Processed s id := by
  unfold processedCheck at checked
  rw [Bool.and_eq_true, List.contains_iff_mem, Option.isNone_iff_eq_none]
    at checked
  refine ⟨w, checked.1, ?_⟩
  rw [checked.2]
  exact Option.some_ne_none id |>.symm

theorem puzzleLine_fullLine : PuzzleLine fullLine := by
  have digits : (fullLine.take 81).all
      (fun byte => 48 ≤ byte.toNat && byte.toNat ≤ 57) = true := by
    decide +kernel
  refine ⟨fullLine.take 81, Or.inl (by decide +kernel), ?_, by decide +kernel⟩
  intro byte inside
  have digit := List.all_eq_true.mp digits byte inside
  rwa [Bool.and_eq_true, decide_eq_true_iff, decide_eq_true_iff] at digit

theorem answers_agree_shortAndFull :
    ∃ last last' : State, last.handed = [(0, 0)] ∧ last'.handed = [(1, 0)] ∧
      ∀ offset < slotSize,
        last.Answer (0 * slotSize + offset) =
          last'.Answer (0 * slotSize + offset) := by
  have executed : ((lateEvents.foldlM (step 4000 1)
      (start shortAndFull)).map fun s =>
        (s.handed, processedCheck 0 0 s)) = some ([(0, 0)], true) := by
    decide +kernel
  have executed' : ((busyEvents.foldlM (step 4000 2)
      (start shortAndFull)).map fun s =>
        (s.handed, processedCheck 1 0 s)) = some ([(1, 0)], true) := by
    decide +kernel
  obtain ⟨last, executed, seen⟩ := Option.map_eq_some_iff.mp executed
  obtain ⟨last', executed', seen'⟩ := Option.map_eq_some_iff.mp executed'
  obtain ⟨handed, checked⟩ := Prod.mk.inj seen
  obtain ⟨handed', checked'⟩ := Prod.mk.inj seen'
  have lines : Bytes.lines shortAndFull = [str "12\n", fullLine] := by
    decide +kernel
  have puzzles : Puzzles shortAndFull := by
    intro line inside
    rw [lines, List.mem_cons, List.mem_singleton] at inside
    rcases inside with rfl | rfl
    · exact ⟨str "12", Or.inl rfl, by decide +kernel, by decide +kernel⟩
    · exact puzzleLine_fullLine
  obtain ⟨line, _, _, _, agree⟩ := answers_agree puzzles
    (by decide : kMaxNodes < 4000) (Run.of_executed executed)
    (Run.of_executed executed') (processed_of_check checked)
    (processed_of_check checked')
  exact ⟨last, last', handed, handed', agree⟩

end Jobs
end Lab1
end CloudComputing
