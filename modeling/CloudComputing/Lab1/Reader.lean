import CloudComputing.Lab1.Jobs

/-!
# What the reading loop stores

When every line fits its slot, the slots below `total` hold the lines that the
reading loop has counted, and it writes only to the slot behind them.  The
workers change nothing that the loop depends on.
-/

namespace CloudComputing
namespace Lab1
namespace Jobs

/-- A line of at least `N` characters. -/
def counts (line : Bytes) : Bool :=
  (List.range cellCount).all fun offset => line.getD offset 0 ≠ 0

/-- The lines that `main` counts. -/
def counted (file : Bytes) : List Bytes :=
  (Bytes.lines file).filter counts

/-- Each line fits its slot, with the byte that ends it. -/
def Fits (file : Bytes) : Prop :=
  ∀ line ∈ Bytes.lines file, line.length < slotSize

/-- The slot begins with this text. -/
def Holds (memory : Nat → UInt8) (slot : Nat) (text : Bytes) : Prop :=
  ∀ offset byte, text[offset]? = some byte →
    memory (slot * slotSize + offset) = byte

namespace Holds

variable {memory : Nat → UInt8} {slot : Nat} {text : Bytes}

theorem nil : Holds memory slot [] := by
  intro offset byte found
  cases found

/-- A byte behind the text. -/
theorem store
    (holds : Holds memory slot text)
    (byte : UInt8) :
    Holds (Function.update memory (slot * slotSize + text.length) byte) slot
      (text ++ [byte]) := by
  intro offset other found
  have bound := (List.getElem?_eq_some_iff.mp found).1
  rw [List.length_append, List.length_singleton] at bound
  by_cases last : offset = text.length
  · rw [last, List.getElem?_concat_length, Option.some_inj] at found
    rw [last, Function.update_self, found]
  · rw [List.getElem?_append_left (by omega)] at found
    rw [Function.update_of_ne (by omega)]
    exact holds offset other found

/-- A store to a later slot. -/
theorem store_later
    (holds : Holds memory slot text)
    (short : text.length ≤ slotSize)
    {later : Nat}
    (less : slot < later)
    (offset : Nat)
    (byte : UInt8) :
    Holds (Function.update memory (later * slotSize + offset) byte) slot
      text := by
  intro position other found
  have bound := (List.getElem?_eq_some_iff.mp found).1
  have apart : slot * slotSize + slotSize ≤ later * slotSize := by
    rw [← Nat.succ_mul]
    exact Nat.mul_le_mul_right slotSize less
  rw [Function.update_of_ne (by omega)]
  exact holds position other found

/-- `strlen` sees how long the line is. -/
theorem longEnough
    {s : State}
    (holds : Holds s.sudoku s.total (text ++ [0])) :
    s.longEnough = counts text := by
  have first : ∀ offset < text.length,
      s.sudoku (s.total * slotSize + offset) = text.getD offset 0 := by
    intro offset bound
    have found : (text ++ [0])[offset]? = some (text.getD offset 0) := by
      rw [List.getElem?_append_left bound, List.getD_eq_getElem?_getD,
        List.getElem?_eq_getElem bound, Option.getD_some]
    exact holds offset _ found
  have last : s.sudoku (s.total * slotSize + text.length) = 0 :=
    holds text.length 0 List.getElem?_concat_length
  have beyond : text.getD text.length 0 = 0 := by
    rw [List.getD_eq_getElem?_getD, List.getElem?_eq_none (le_refl _),
      Option.getD_none]
  unfold State.longEnough counts
  rw [Bool.eq_iff_iff, List.all_eq_true, List.all_eq_true]
  simp only [List.mem_range, decide_eq_true_eq]
  constructor
  · intro full offset less
    have long : cellCount ≤ text.length := by
      by_contra short
      exact full text.length (by omega) last
    rw [← first offset (by omega)]
    exact full offset less
  · intro full offset less
    have long : cellCount ≤ text.length := by
      by_contra short
      exact full text.length (by omega) beyond
    rw [first offset (by omega)]
    exact full offset less

end Holds

/-- Where `fgets` is, when the loop is done with these lines. -/
inductive Position (file : Bytes) (done : List Bytes) (s : State) : Prop
  | reading
      (text : Bytes)
      (reader : s.reader = .reading text.length)
      (noNewline : 10 ∉ text)
      (lines : Bytes.lines file = done ++ Bytes.lines (text ++ s.rest))
      (holds : Holds s.sudoku s.total text)
  | ending
      (line : Bytes)
      (reader : s.reader = .ending line.length)
      (lines : Bytes.lines file = done ++ line :: Bytes.lines s.rest)
      (holds : Holds s.sudoku s.total line)
  | counting
      (line : Bytes)
      (reader : s.reader = .counting)
      (lines : Bytes.lines file = done ++ line :: Bytes.lines s.rest)
      (holds : Holds s.sudoku s.total (line ++ [0]))
  | finished
      (reader : s.reader = .finished)
      (lines : Bytes.lines file = done)

/-- The loop is done with these lines, and the counted ones are stored. -/
structure Read (file : Bytes) (done : List Bytes) (s : State) : Prop where
  total : s.total = (done.filter counts).length
  slots : ∀ id line, (done.filter counts)[id]? = some line →
    Holds s.sudoku id (line ++ [0])
  position : Position file done s

namespace Read

variable {file : Bytes} {done : List Bytes} {s next : State}

theorem start (file : Bytes) : Read file [] (start file) where
  total := rfl
  slots := by
    intro id line found
    cases found
  position := .reading [] rfl List.not_mem_nil rfl Holds.nil

/-- What the loop is done with are lines of the file. -/
theorem isPart (read : Read file done s) : done <+: Bytes.lines file := by
  cases read.position with
  | reading text reader noNewline lines holds => exact ⟨_, lines.symm⟩
  | ending line reader lines holds => exact ⟨_, lines.symm⟩
  | counting line reader lines holds => exact ⟨_, lines.symm⟩
  | finished reader lines => exact lines ▸ List.prefix_rfl

/-- The counted lines that are stored. -/
theorem isCounted (read : Read file done s) :
    done.filter counts <+: counted file :=
  read.isPart.filter counts

/-- A counted line fits its slot. -/
theorem fits
    (read : Read file done s)
    (fits : Fits file)
    {id : Nat}
    {line : Bytes}
    (found : (done.filter counts)[id]? = some line) :
    id < s.total ∧ (line ++ [0]).length ≤ slotSize := by
  obtain ⟨bound, isLine⟩ := List.getElem?_eq_some_iff.mp found
  refine ⟨read.total ▸ bound, ?_⟩
  have inside : line ∈ done := by
    rw [← isLine]
    exact List.mem_of_mem_filter (List.getElem_mem bound)
  have short := fits line (read.isPart.subset inside)
  rw [List.length_append, List.length_singleton]
  exact short

/-- A store to the slot behind the counted lines. -/
theorem slots_store
    (read : Read file done s)
    (isFit : Fits file)
    (offset : Nat)
    (byte : UInt8) :
    ∀ id line, (done.filter counts)[id]? = some line →
      Holds (Function.update s.sudoku (s.total * slotSize + offset) byte) id
        (line ++ [0]) := by
  intro id line found
  obtain ⟨less, short⟩ := read.fits isFit found
  exact (read.slots id line found).store_later short less offset byte

/-- The part of a line that is stored is short. -/
theorem length_lt
    (isFit : Fits file)
    {text rest : Bytes}
    (noNewline : 10 ∉ text)
    (lines : Bytes.lines file = done ++ Bytes.lines (text ++ rest)) :
    text.length < slotSize := by
  cases text with
  | nil => exact Nat.zero_lt_succ _
  | cons byte text =>
      have inFile : ∀ line ∈ Bytes.lines (byte :: text ++ rest),
          line.length < slotSize := by
        intro line inside
        apply isFit
        rw [lines]
        exact List.mem_append_right done inside
      cases rest with
      | nil =>
          rw [List.append_nil,
            Bytes.lines_last noNewline (List.cons_ne_nil _ _)] at inFile
          exact inFile _ List.mem_cons_self
      | cons other rest =>
          obtain ⟨further, more, split⟩ :=
            Bytes.lines_append noNewline other rest
          rw [split] at inFile
          have short := inFile _ List.mem_cons_self
          rw [List.length_append] at short
          omega

/-- A store leaves everything but `sudoku` alone. -/
theorem store_eq
    {offset : Nat}
    {byte : UInt8}
    (taken : s.store offset byte = some next) :
    next = { s with
      sudoku := Function.update s.sudoku (s.total * slotSize + offset)
        byte } := by
  unfold State.store at taken
  split at taken
  · exact (Option.some.inj taken).symm
  · cases taken

/-- A step of the loop. -/
theorem mainStep
    (read : Read file done s)
    (isFit : Fits file)
    (taken : s.mainStep = some next) :
    ∃ done, Read file done next := by
  unfold State.mainStep at taken
  cases read.position with
  | reading text reader noNewline lines holds =>
      have short := length_lt isFit noNewline lines
      have room : text.length + 1 < sudokuSize := by
        unfold slotSize at short
        unfold sudokuSize TaskNum slotSize
        omega
      rw [reader] at taken
      simp only [if_pos room] at taken
      split at taken
      case h_1 rest =>
        cases taken
        rw [rest, List.append_nil] at lines
        refine ⟨done, read.total, read.slots, ?_⟩
        cases text with
        | nil =>
            exact .finished rfl (lines.trans (List.append_nil done))
        | cons byte text =>
            rw [Bytes.lines_last noNewline (List.cons_ne_nil _ _)] at lines
            refine .ending (byte :: text) rfl ?_ holds
            change Bytes.lines file = done ++ (byte :: text) :: Bytes.lines s.rest
            rw [rest]
            exact lines
      case h_2 byte rest isRest =>
        obtain ⟨stored, isStored, isNext⟩ := Option.map_eq_some_iff.mp taken
        have stored := store_eq isStored
        subst stored
        subst isNext
        refine ⟨done, read.total, read.slots_store isFit text.length byte, ?_⟩
        have holds' := holds.store byte
        rw [isRest] at lines
        by_cases isNewline : byte = 10
        · subst isNewline
          rw [Bytes.lines_newline noNewline] at lines
          refine .ending (text ++ [10]) ?_ lines holds'
          simp
        · refine .reading (text ++ [byte]) ?_ ?_ ?_ holds'
          · simp [isNewline]
          · simp [noNewline, Ne.symm isNewline]
          · rw [List.append_assoc]
            exact lines
  | ending line reader lines holds =>
      rw [reader] at taken
      obtain ⟨stored, isStored, isNext⟩ := Option.map_eq_some_iff.mp taken
      have stored := store_eq isStored
      subst stored
      subst isNext
      exact ⟨done, read.total, read.slots_store isFit line.length 0,
        .counting line rfl lines (holds.store 0)⟩
  | counting line reader lines holds =>
      rw [reader] at taken
      cases taken
      have split : done ++ line :: Bytes.lines s.rest =
          (done ++ [line]) ++ Bytes.lines ([] ++ s.rest) := by
        rw [List.append_assoc]
        rfl
      rw [split] at lines
      refine ⟨done ++ [line], ?_, ?_, .reading [] rfl List.not_mem_nil lines
        Holds.nil⟩
      · change (if s.longEnough then s.total + 1 else s.total) = _
        rw [holds.longEnough, List.filter_append, List.length_append,
          ← read.total]
        cases isCounted : counts line with
        | true => simp [isCounted]
        | false => simp [isCounted]
      · intro id other found
        rw [List.filter_append] at found
        cases isCounted : counts line with
        | true =>
            rw [List.filter_cons_of_pos isCounted, List.filter_nil] at found
            by_cases last : id = s.total
            · subst last
              rw [read.total, List.getElem?_concat_length,
                Option.some_inj] at found
              rw [← found]
              exact holds
            · have bound := (List.getElem?_eq_some_iff.mp found).1
              rw [List.length_append, List.length_singleton,
                ← read.total] at bound
              rw [List.getElem?_append_left
                (read.total ▸ (by omega : id < s.total))] at found
              exact read.slots id other found
        | false =>
            rw [List.filter_cons_of_neg (by simp [isCounted]),
              List.filter_nil, List.append_nil] at found
            exact read.slots id other found
  | finished reader lines =>
      rw [reader] at taken
      cases taken

end Read

end Jobs
end Lab1
end CloudComputing
