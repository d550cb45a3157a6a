import CloudComputing.Lab1.Lost

/-!
# Legal puzzles

`main` counts a line of at least `N` characters, and one of them may be the
newline: `input` then reads eighty digits and the newline.  A line of any other
length is skipped, or counted and read without a failed assertion, as long as
there is a slot for it.  In front of a line without a slot `fgets` writes behind
`sudoku`.
-/

namespace CloudComputing
namespace Lab1
namespace Jobs

variable {file line : Bytes} {fuel n : Nat} {s next last : State}

/-- Each line has at most 126 digits, and ends with a newline. -/
def DigitLines (file : Bytes) : Prop :=
  ∀ line ∈ Bytes.lines file, ∃ digits : Bytes, line = digits ++ [10] ∧
    (∀ byte ∈ digits, 48 ≤ byte.toNat ∧ byte.toNat ≤ 57) ∧
    digits.length ≤ 126

/-- `input` reads each of the counted lines, `main` goes from the beginning of
a line with fewer than 81 digits to its end and does not count it, and no store
of `fgets` is outside of `sudoku`. -/
structure Legal (fuel n : Nat) (s : State) : Prop where
  passes : ∀ id < s.total, ∀ board spaces : Board,
    input (fun offset => s.sudoku (id * slotSize + offset)) board spaces ≠ none
  skips : s.reader = .reading 0 → ∀ digits rest : Bytes,
    s.rest = digits ++ 10 :: rest → 10 ∉ digits → digits.length < cellCount →
      ∃ next, Run (step fuel n) Run.free s
          (List.replicate (digits.length + 3) .main) next ∧
        next.reader = .reading 0 ∧ next.rest = rest ∧ next.total = s.total
  inside : s.mainStep = none → s.reader = .finished

/-- There is a slot in front of each line of the file. -/
def HasRoom (file : Bytes) : Prop :=
  ((Bytes.lines file).dropLast.filter counts).length < TaskNum

/-- No line has eighty digits, and each has a slot. -/
structure WellSized (file : Bytes) : Prop where
  room : HasRoom file
  notEighty : ∀ line ∈ Bytes.lines file, line.length ≠ cellCount

/-! ## Lines of digits -/

theorem DigitLines.fits (lines : DigitLines file) : Fits file := by
  intro line inside
  obtain ⟨digits, rfl, _, short⟩ := lines line inside
  rw [List.length_append, List.length_singleton]
  unfold slotSize
  omega

/-- A line is counted by its length. -/
theorem counts_iff (noZero : 0 ∉ line) :
    counts line = true ↔ cellCount ≤ line.length := by
  unfold counts
  rw [List.all_eq_true]
  simp only [List.mem_range, decide_eq_true_eq]
  constructor
  · intro full
    by_contra short
    apply full line.length (by omega)
    rw [List.getD_eq_getElem?_getD, List.getElem?_eq_none (le_refl _),
      Option.getD_none]
  · intro long offset less absurd
    have bound : offset < line.length := by omega
    rw [List.getD_eq_getElem?_getD, List.getElem?_eq_getElem bound,
      Option.getD_some] at absurd
    exact noZero (absurd ▸ List.getElem_mem bound)

theorem DigitLines.noZero
    (lines : DigitLines file)
    (inside : line ∈ Bytes.lines file) :
    0 ∉ line := by
  obtain ⟨digits, rfl, areDigits, _⟩ := lines line inside
  intro zero
  rcases List.mem_append.mp zero with inDigits | isNewline
  · have bounds := areDigits 0 inDigits
    revert bounds
    decide
  · revert isNewline
    decide

/-! ## `main` reads a line -/

/-- `fgets` stores the next byte. -/
theorem mainStep_byte
    {stored : Nat}
    {byte : UInt8}
    {rest : Bytes}
    (room : s.total < TaskNum)
    (short : stored + 1 < slotSize)
    (reader : s.reader = .reading stored)
    (isRest : s.rest = byte :: rest) :
    s.mainStep = some { s with
      sudoku := Function.update s.sudoku (s.total * slotSize + stored) byte
      rest := rest
      reader := if byte = 10 then .ending (stored + 1)
        else .reading (stored + 1) } := by
  have inside : s.total * slotSize + stored < sudokuSize := by
    unfold sudokuSize
    unfold slotSize at short ⊢
    omega
  have large : stored + 1 < sudokuSize := by
    unfold slotSize at short
    unfold sudokuSize TaskNum slotSize
    omega
  unfold State.mainStep State.store
  rw [reader, isRest]
  simp only [if_pos large, if_pos inside, Option.map_some]

/-- The bytes up to the newline. -/
theorem main_reads
    (fuel n : Nat)
    (stored : Bytes)
    {text rest : Bytes}
    (room : s.total < TaskNum)
    (isRest : s.rest = text ++ 10 :: rest)
    (noNewline : 10 ∉ text)
    (short : stored.length + text.length + 1 < slotSize)
    (reader : s.reader = .reading stored.length)
    (holds : Holds s.sudoku s.total stored) :
    ∃ next, Run (step fuel n) Run.free s
        (List.replicate (text.length + 1) .main) next ∧
      next.reader = .ending (stored ++ text ++ [10]).length ∧
      next.rest = rest ∧ next.total = s.total ∧
      Holds next.sudoku next.total (stored ++ text ++ [10]) := by
  induction text generalizing s stored with
  | nil =>
      rw [List.length_nil] at short
      have taken := mainStep_byte room (by omega) reader isRest
      refine ⟨_, .cons trivial taken (.nil _), ?_, rfl, rfl, ?_⟩
      · rw [List.append_nil, List.length_append, List.length_singleton]
        rfl
      · rw [List.append_nil]
        exact holds.store 10
  | cons byte text inductionHypothesis =>
      rw [List.mem_cons, not_or] at noNewline
      rw [List.length_cons] at short
      have taken := mainStep_byte room (by omega) reader isRest
      rw [if_neg (Ne.symm noNewline.1)] at taken
      have length : (stored ++ [byte]).length = stored.length + 1 := by
        rw [List.length_append, List.length_singleton]
      rw [← length] at taken
      obtain ⟨next, run, ending, isRest, total, holds⟩ := inductionHypothesis
        (s := { s with
          sudoku := Function.update s.sudoku
            (s.total * slotSize + stored.length) byte
          rest := text ++ 10 :: rest
          reader := .reading (stored ++ [byte]).length })
        (stored ++ [byte]) room rfl noNewline.2 (by omega) rfl
        (holds.store byte)
      rw [List.append_assoc stored] at ending holds
      exact ⟨next, .cons trivial taken run, ending, isRest, total, holds⟩

/-- A line is counted or skipped. -/
theorem main_line
    (fuel n : Nat)
    {text rest : Bytes}
    (room : s.total < TaskNum)
    (isRest : s.rest = text ++ 10 :: rest)
    (noNewline : 10 ∉ text)
    (short : text.length + 2 ≤ slotSize)
    (reader : s.reader = .reading 0) :
    ∃ next, Run (step fuel n) Run.free s
        (List.replicate (text.length + 3) .main) next ∧
      next.reader = .reading 0 ∧ next.rest = rest ∧
      next.total = s.total + if counts (text ++ [10]) then 1 else 0 := by
  obtain ⟨middle, run, ending, isRest, total, holds⟩ :=
    main_reads fuel n [] room isRest noNewline
      (by rw [List.length_nil]; omega) reader Holds.nil
  rw [List.nil_append] at ending holds
  have inside : middle.total * slotSize + (text ++ [10]).length <
      sudokuSize := by
    rw [total, List.length_append, List.length_singleton]
    unfold sudokuSize
    unfold slotSize at short ⊢
    omega
  let full : State := { middle with
    sudoku := Function.update middle.sudoku
      (middle.total * slotSize + (text ++ [10]).length) 0
    reader := .counting }
  have ends : middle.mainStep = some full := by
    unfold State.mainStep State.store
    rw [ending]
    simp only [if_pos inside, Option.map_some, full]
  have long : full.longEnough = counts (text ++ [10]) :=
    Holds.longEnough (s := full) (holds.store 0)
  have goesOn : full.mainStep = some { full with
      total := if full.longEnough then full.total + 1 else full.total
      reader := .reading 0 } := rfl
  have twoMore : Run (step fuel n) Run.free middle
      [Event.main, Event.main] { full with
        total := if full.longEnough then full.total + 1 else full.total
        reader := .reading 0 } :=
    .cons trivial ends (.cons trivial goesOn (.nil _))
  have together := run.append twoMore
  have events : List.replicate (text.length + 1) Event.main ++
      [Event.main, Event.main] = List.replicate (text.length + 3) .main := by
    change _ ++ List.replicate 2 Event.main = _
    rw [List.replicate_append_replicate]
  rw [events] at together
  refine ⟨_, together, rfl, isRest, ?_⟩
  change (if full.longEnough then middle.total + 1 else middle.total) = _
  rw [long, total]
  split
  · rfl
  · rfl

/-- The lines in front of a line for which there is a slot. -/
theorem main_lines
    (fuel n : Nat)
    {lines : List Bytes}
    {rest : Bytes}
    (areLines : ∀ line ∈ lines, ∃ digits : Bytes, line = digits ++ [10] ∧
      10 ∉ digits ∧ digits.length ≤ 126)
    (room : s.total + (lines.filter counts).length < TaskNum)
    (isRest : s.rest = lines.flatten ++ rest)
    (reader : s.reader = .reading 0) :
    ∃ events next, Run (step fuel n) Run.free s events next ∧
      next.reader = .reading 0 ∧ next.rest = rest ∧
      next.total = s.total + (lines.filter counts).length := by
  induction lines generalizing s with
  | nil => exact ⟨[], s, .nil s, reader, isRest, rfl⟩
  | cons line lines inductionHypothesis =>
      obtain ⟨⟨digits, rfl, noNewline, short⟩, others⟩ :=
        List.forall_mem_cons.mp areLines
      have length : (((digits ++ [10]) :: lines).filter counts).length =
          (if counts (digits ++ [10]) then 1 else 0) +
            (lines.filter counts).length := by
        rw [List.filter_cons]
        split
        · rw [List.length_cons, Nat.add_comm]
        · rw [Nat.zero_add]
      rw [length] at room ⊢
      have isRest : s.rest = digits ++ 10 :: (lines.flatten ++ rest) := by
        rw [isRest, List.flatten_cons, List.append_assoc, List.append_assoc]
        rfl
      obtain ⟨middle, run, middleReader, middleRest, total⟩ :=
        main_line fuel n (by omega) isRest noNewline
          (by unfold slotSize; omega) reader
      obtain ⟨events, next, further, nextReader, nextRest, nextTotal⟩ :=
        inductionHypothesis others (by omega) middleRest middleReader
      exact ⟨_, next, run.append further, nextReader, nextRest, by omega⟩

/-! ## The slots -/

/-- In front of a line there is a free slot. -/
theorem HasRoom.total_lt
    (room : HasRoom file)
    {done later : List Bytes}
    (read : Read file done s)
    (isPart : Bytes.lines file = done ++ line :: later) :
    s.total < TaskNum := by
  have split : (Bytes.lines file).dropLast =
      done ++ (line :: later).dropLast := by
    rw [isPart, List.dropLast_append_of_ne_nil (List.cons_ne_nil _ _)]
  unfold HasRoom at room
  rw [split, List.filter_append, List.length_append] at room
  rw [read.total]
  omega

/-- `fgets` stores a byte as long as there is a slot. -/
theorem store_ne_none
    {offset : Nat}
    (free : s.total < TaskNum)
    (short : offset < slotSize)
    (byte : UInt8) :
    s.store offset byte ≠ none := by
  have inside : s.total * slotSize + offset < sudokuSize := by
    have next := Nat.mul_le_mul_right slotSize (Nat.succ_le_of_lt free)
    rw [Nat.succ_mul] at next
    unfold sudokuSize
    omega
  unfold State.store
  rw [if_pos inside]
  exact Option.some_ne_none _

/-- `main` stops behind the loop only. -/
theorem finished_of_rest
    (reads : Reads file s)
    (isFit : Fits file)
    (room : HasRoom file)
    (rest : s.mainStep = none) :
    s.reader = .finished := by
  obtain ⟨done, read⟩ := reads
  unfold State.mainStep at rest
  cases read.position with
  | reading text reader noNewline lines holds =>
      have short := Read.length_lt isFit noNewline lines
      have inArray : text.length + 1 < sudokuSize := by
        unfold slotSize at short
        unfold sudokuSize TaskNum slotSize
        omega
      rw [reader] at rest
      simp only [if_pos inArray] at rest
      split at rest
      case h_1 => cases rest
      case h_2 byte more isRest =>
        have isLine : ∃ first later, Bytes.lines (text ++ s.rest) =
            first :: later := by
          obtain ⟨further, later, split⟩ :=
            Bytes.lines_append noNewline byte more
          rw [isRest]
          exact ⟨_, later, split⟩
        obtain ⟨first, later, isLine⟩ := isLine
        rw [isLine] at lines
        have stores := store_ne_none (room.total_lt read lines) short byte
        exact absurd (Option.map_eq_none_iff.mp rest) stores
  | ending line reader lines holds =>
      have short : line.length < slotSize := by
        apply isFit
        rw [lines]
        exact List.mem_append_right done List.mem_cons_self
      rw [reader] at rest
      have stores := store_ne_none (room.total_lt read lines) short 0
      exact absurd (Option.map_eq_none_iff.mp rest) stores
  | counting line reader lines holds =>
      rw [reader] at rest
      cases rest
  | finished reader lines => exact reader

/-! ## `input` on a line -/

/-- The assertion holds for each of the 81 characters. -/
theorem input_ne_none_iff
    (text : Nat → UInt8)
    (board spaces : Board) :
    input text board spaces ≠ none ↔
      ∀ cell < cellCount, 48 ≤ (text cell).toNat ∧ (text cell).toNat ≤ 57 := by
  have go : ∀ (cells : List Nat) (board : Board),
      cells.foldlM (inputCell text) board ≠ none ↔
        ∀ cell ∈ cells, 48 ≤ (text cell).toNat ∧ (text cell).toNat ≤ 57 := by
    intro cells
    induction cells with
    | nil =>
        intro board
        exact iff_of_true (Option.some_ne_none board)
          (fun cell absurd => (List.not_mem_nil absurd).elim)
    | cons cell cells inductionHypothesis =>
        intro board
        rw [List.foldlM_cons, List.forall_mem_cons]
        unfold inputCell
        by_cases digit : 48 ≤ (text cell).toNat ∧ (text cell).toNat ≤ 48 + num
        · rw [if_pos digit, Option.bind_eq_bind, Option.bind_some]
          exact (inductionHypothesis _).trans (and_iff_right digit).symm
        · rw [if_neg digit]
          exact iff_of_false (fun differs => differs rfl)
            (fun both => digit both.1)
  unfold input
  rw [ne_eq, Option.map_eq_none_iff]
  simpa only [List.mem_range] using go (List.range cellCount) board

/-- `input` accepts a slot whose line has 81 digits. -/
theorem input_line
    {memory : Nat → UInt8}
    {id : Nat}
    {digits : Bytes}
    (holds : Holds memory id (digits ++ [10] ++ [0]))
    (areDigits : ∀ byte ∈ digits, 48 ≤ byte.toNat ∧ byte.toNat ≤ 57)
    (long : cellCount ≤ digits.length)
    (board spaces : Board) :
    input (fun offset => memory (id * slotSize + offset)) board spaces ≠
      none := by
  rw [input_ne_none_iff]
  intro cell less
  have bound : cell < digits.length := by omega
  have isDigit : memory (id * slotSize + cell) = digits[cell] := by
    apply holds
    rw [List.append_assoc, List.getElem?_append_left bound,
      List.getElem?_eq_getElem bound]
  rw [isDigit]
  exact areDigits _ (List.getElem_mem bound)

/-! ## When the lines are legal -/

/-- The counted lines are puzzles, the short ones are skipped, and there is a
slot for each. -/
theorem WellSized.legal
    (sized : WellSized file)
    (lines : DigitLines file)
    (reads : Reads file s) :
    Legal fuel n s where
  passes := by
    intro id less board spaces
    obtain ⟨done, read⟩ := reads
    rw [read.total] at less
    have found := List.getElem?_eq_getElem less
    have holds := read.slots id _ found
    have member := List.getElem_mem less
    generalize (done.filter counts)[id] = line at *
    have isCounted := List.of_mem_filter member
    have inFile : line ∈ Bytes.lines file :=
      read.isPart.subset (List.mem_of_mem_filter member)
    have long := (counts_iff (lines.noZero inFile)).mp isCounted
    have notEighty := sized.notEighty line inFile
    obtain ⟨digits, rfl, areDigits, _⟩ := lines line inFile
    rw [List.length_append, List.length_singleton] at long notEighty
    exact input_line holds areDigits (by omega) board spaces
  skips := by
    intro reader digits rest isRest noNewline short
    obtain ⟨done, read⟩ := reads
    have isAll : Bytes.lines file =
        done ++ (digits ++ [10]) :: Bytes.lines rest := by
      cases read.position with
      | reading text isReader _ isAll _ =>
          rw [reader, Reader.reading.injEq] at isReader
          rw [List.length_eq_zero_iff.mp isReader.symm, List.nil_append, isRest,
            Bytes.lines_newline noNewline] at isAll
          exact isAll
      | ending line isReader _ _ =>
          rw [reader] at isReader
          cases isReader
      | counting line isReader _ _ =>
          rw [reader] at isReader
          cases isReader
      | finished isReader _ =>
          rw [reader] at isReader
          cases isReader
    have free := sized.room.total_lt read isAll
    have inFile : digits ++ [10] ∈ Bytes.lines file := by
      rw [isAll]
      exact List.mem_append_right done List.mem_cons_self
    have isEighty := sized.notEighty _ inFile
    have skipped : counts (digits ++ [10]) = false := by
      rw [List.length_append, List.length_singleton] at isEighty
      rw [← Bool.not_eq_true, counts_iff (lines.noZero inFile),
        List.length_append, List.length_singleton]
      omega
    obtain ⟨next, run, nextReader, nextRest, total⟩ :=
      main_line fuel n free isRest noNewline
        (by unfold slotSize; unfold cellCount at short; omega) reader
    rw [skipped] at total
    exact ⟨next, run, nextReader, nextRest, total⟩
  inside := finished_of_rest reads lines.fits sized.room

/-- The digits of a line have no newline. -/
theorem DigitLines.shape
    (lines : DigitLines file)
    (inside : line ∈ Bytes.lines file) :
    ∃ digits : Bytes, line = digits ++ [10] ∧ 10 ∉ digits ∧
      digits.length ≤ 126 := by
  obtain ⟨digits, isLine, areDigits, short⟩ := lines line inside
  refine ⟨digits, isLine, ?_, short⟩
  intro newline
  have bounds := areDigits 10 newline
  revert bounds
  decide

/-- `main` reaches each line for which there is a slot. -/
theorem DigitLines.reaches
    (lines : DigitLines file)
    (fuel n : Nat)
    {before after : List Bytes}
    (split : Bytes.lines file = before ++ line :: after)
    (room : (before.filter counts).length < TaskNum) :
    ∃ events s, Run (step fuel n) Run.free (start file) events s ∧
      s.reader = .reading 0 ∧ s.rest = line ++ after.flatten ∧
      s.total = (before.filter counts).length := by
  have isRest : (start file).rest = before.flatten ++
      (line ++ after.flatten) := by
    rw [← List.flatten_cons, ← List.flatten_append, ← split,
      Bytes.flatten_lines]
    rfl
  have areLines : ∀ line ∈ before, ∃ digits : Bytes, line = digits ++ [10] ∧
      10 ∉ digits ∧ digits.length ≤ 126 := by
    intro line inside
    apply lines.shape
    rw [split]
    exact List.mem_append_left _ inside
  have zero : (start file).total = 0 := rfl
  obtain ⟨events, s, run, reader, rest, total⟩ := main_lines fuel n areLines
    (by rw [zero, Nat.zero_add]; exact room) isRest rfl
  rw [zero, Nat.zero_add] at total
  exact ⟨events, s, run, reader, rest, total⟩

/-- Behind the last slot `fgets` stores nothing. -/
theorem mainStep_full
    (full : s.total = TaskNum)
    (reader : s.reader = .reading 0)
    (isRest : s.rest ≠ []) :
    s.mainStep = none := by
  have large : 0 + 1 < sudokuSize := by
    unfold sudokuSize TaskNum slotSize
    omega
  have outside : ¬ s.total * slotSize + 0 < sudokuSize := by
    rw [full, Nat.add_zero]
    exact lt_irrefl _
  obtain ⟨byte, rest, isRest⟩ := List.exists_cons_of_ne_nil isRest
  unfold State.mainStep State.store
  rw [reader, isRest]
  simp only [if_pos large, if_neg outside, Option.map_none]

/-- The array is not full in front of a line. -/
theorem counted_lt
    (lines : DigitLines file)
    (legal : ∀ events s, Run (step fuel n) Run.free (start file) events s →
      Legal fuel n s)
    {before after : List Bytes}
    (split : Bytes.lines file = before ++ line :: after) :
    (before.filter counts).length < TaskNum := by
  induction before using List.reverseRecOn generalizing line after with
  | nil => exact Nat.zero_lt_succ _
  | append_singleton before last inductionHypothesis =>
      have split : Bytes.lines file = before ++ last :: (line :: after) := by
        rw [split, List.append_assoc]
        rfl
      have room := inductionHypothesis split
      have inFile : last ∈ Bytes.lines file := by
        rw [split]
        exact List.mem_append_right before List.mem_cons_self
      obtain ⟨events, s, run, reader, isRest, total⟩ :=
        lines.reaches fuel n split room
      obtain ⟨digits, rfl, noNewline, length⟩ := lines.shape inFile
      rw [List.append_assoc] at isRest
      change s.rest = digits ++ 10 :: (line :: after).flatten at isRest
      obtain ⟨next, further, reader, isRest, total'⟩ :=
        main_line fuel n (by omega) isRest noNewline
          (by unfold slotSize; omega) reader
      have counted : ((before ++ [digits ++ [10]]).filter counts).length =
          next.total := by
        rw [total', total, List.filter_append, List.length_append,
          List.filter_cons, List.filter_nil]
        split
        · rfl
        · rfl
      rw [counted]
      by_contra full
      have isFull : next.total = TaskNum := by
        have atMost : next.total ≤ s.total + 1 := by
          rw [total']
          split
          · exact le_refl _
          · exact Nat.le_succ _
        omega
      have isLine : line ∈ Bytes.lines file := by
        rw [split]
        exact List.mem_append_right before
          (List.mem_cons_of_mem _ List.mem_cons_self)
      obtain ⟨_, rfl, _, _⟩ := lines.shape isLine
      have some : next.rest ≠ [] := by
        rw [isRest, List.flatten_cons]
        exact List.append_ne_nil_of_left_ne_nil
          (List.append_ne_nil_of_right_ne_nil _ (List.cons_ne_nil _ _)) _
      have finished := (legal _ next (run.append further)).inside
        (mainStep_full isFull reader some)
      rw [reader] at finished
      cases finished

theorem room_of_legal
    (lines : DigitLines file)
    (legal : ∀ events s, Run (step fuel n) Run.free (start file) events s →
      Legal fuel n s) :
    HasRoom file := by
  unfold HasRoom
  by_cases none : Bytes.lines file = []
  · rw [none]
    exact Nat.zero_lt_succ _
  · exact counted_lt lines legal (List.dropLast_append_getLast none).symm

/-- The lines are legal exactly when none of them has eighty digits and each of
them has a slot. -/
theorem legal_iff (lines : DigitLines file) :
    (∀ events s, Run (step fuel n) Run.free (start file) events s →
      Legal fuel n s) ↔ WellSized file := by
  constructor
  · intro legal
    refine ⟨room_of_legal lines legal, ?_⟩
    intro line inFile eighty
    obtain ⟨before, after, split⟩ := List.append_of_mem inFile
    have room := counted_lt lines legal split
    have isCounted := (counts_iff (lines.noZero inFile)).mpr eighty.ge
    obtain ⟨events, s, run, reader, isRest, total⟩ :=
      lines.reaches fuel n split room
    obtain ⟨digits, rfl, noNewline, _⟩ := lines.shape inFile
    rw [List.length_append, List.length_singleton] at eighty
    rw [List.append_assoc] at isRest
    obtain ⟨counting, counted, _, _, countedTotal⟩ :=
      main_line fuel n (by omega) isRest noNewline
        (by unfold slotSize; unfold cellCount at eighty; omega) reader
    obtain ⟨skipping, skipped, _, _, skippedTotal⟩ := (legal events s run).skips
      reader digits after.flatten isRest noNewline (by omega)
    rw [if_pos isCounted] at countedTotal
    rw [counted.last_unique skipped] at countedTotal
    omega
  · intro sized events s run
    have reads : Reads file s := by
      apply run.preserves _ ⟨[], Read.start file⟩
      intro state event next reads _ taken
      exact reads.step lines.fits taken
    exact sized.legal lines reads

/-- A line with one digit fewer than a puzzle has. -/
def eightyLine : Bytes :=
  List.replicate 80 49 ++ [10]

theorem eightyLine_counted :
    ¬ ∀ (fuel n : Nat) (file : Bytes), DigitLines file → ∀ events s,
      Run (step fuel n) Run.free (start file) events s →
        Legal fuel n s := by
  intro always
  have executed : ((List.replicate 83 Event.main).foldlM (step 0 0)
      (start eightyLine)).map (fun s =>
        (s.total, (s.sudoku 80).toNat)) = some (1, 10) := by
    decide +kernel
  obtain ⟨s, executed, seen⟩ := Option.map_eq_some_iff.mp executed
  obtain ⟨total, newline⟩ := Prod.mk.inj seen
  have lines : DigitLines eightyLine := by
    intro line inside
    have single : Bytes.lines eightyLine = [eightyLine] := by
      decide +kernel
    rw [single, List.mem_singleton] at inside
    refine ⟨List.replicate 80 49, inside, ?_, by decide⟩
    intro byte isDigit
    rw [List.eq_of_mem_replicate isDigit]
    decide
  have legal := always 0 0 eightyLine lines _ s (Run.of_executed executed)
  have passes := legal.passes 0 (by omega) (fun _ => 0) (fun _ => 0)
  rw [input_ne_none_iff] at passes
  have isDigit := passes 80 (by decide)
  rw [Nat.zero_mul, Nat.zero_add, newline] at isDigit
  omega

/-- A line that is skipped, and one with a solved board. -/
def shortAndLong : Bytes :=
  49 :: 10 :: fullLine

theorem legal_iff_shortAndLong :
    WellSized shortAndLong ∧
      ∀ events s, Run (step 0 1) Run.free (start shortAndLong) events s →
        Legal 0 1 s := by
  have two : Bytes.lines shortAndLong = [[49, 10], fullLine] := by
    decide +kernel
  have lines : DigitLines shortAndLong := by
    unfold DigitLines
    rw [two]
    intro line inside
    rw [List.mem_pair] at inside
    rcases inside with rfl | rfl
    · exact ⟨[49], rfl, by decide +kernel, by decide⟩
    · exact ⟨_, rfl, by decide +kernel, by decide +kernel⟩
  have sized : WellSized shortAndLong := by
    constructor
    · unfold HasRoom
      rw [two]
      decide
    · rw [two]
      decide
  exact ⟨sized, (legal_iff lines).mpr sized⟩

end Jobs
end Lab1
end CloudComputing
