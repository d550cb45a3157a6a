import CloudComputing.Lib.Bytes
import CloudComputing.Lib.Runs
import CloudComputing.Lab1.Board

/-!
# The reading loop and the workers

`main` reads the file into `sudoku` while the threads of `Run` take puzzles
from there.  A step of the system stores one byte, reads one byte, or executes
what is between `pthread_mutex_lock` and `pthread_mutex_unlock`, so a run is an
interleaving of all of them.  Both arrays are flat: puzzle `id` begins at
`id * 128`.  A store beyond the end of `sudoku` is no step.
-/

namespace CloudComputing
namespace Lab1
namespace Jobs

/-- `TaskNum`. -/
def TaskNum : Nat := 5000000

/-- Bytes for each puzzle in `sudoku` and in `Answer`. -/
def slotSize : Nat := 128

/-- `sizeof sudoku`. -/
def sudokuSize : Nat := TaskNum * slotSize

/-- Where `main` is: in `fgets` with so many bytes stored, in `fgets` in front
of the byte that ends the string, between `fgets` and the next one, and behind
the loop. -/
inductive Reader
  | reading (stored : Nat)
  | ending (stored : Nat)
  | counting
  | finished
  deriving DecidableEq

/-- Where a worker is: at the condition of its loop, in front of `getJob`, in
`input`, in front of `solve`, at the loop that writes `Answer`, behind the
loop, and stopped by an assertion. -/
inductive Phase
  | check
  | job
  | input (id cell : Nat) (board : Board)
  | solve (id : Nat) (board : Board)
  | answer (id cell : Nat) (board : Board)
  | exited
  | failed

/-- The puzzle that a worker is busy with. -/
def Phase.busy : Phase → Option Nat
  | input id _ _ => some id
  | solve id _ => some id
  | answer id _ _ => some id
  | _ => none

/-- The file behind what `fgets` has read, the globals, and the threads.
`handed` records what `getJob` has returned to which worker. -/
structure State where
  rest : Bytes
  reader : Reader
  total : Nat
  Sid : Nat
  shutdown : Bool
  sudoku : Nat → UInt8
  Answer : Nat → UInt8
  workers : Nat → Phase
  handed : List (Nat × Nat)

/-- The program in front of the loop of `main`, with its threads created. -/
def start (file : Bytes) : State where
  rest := file
  reader := .reading 0
  total := 0
  Sid := 0
  shutdown := false
  sudoku _ := 0
  Answer _ := 0
  workers _ := .check
  handed := []

namespace State

/-- `getJob`: what it returns, with `none` for -1. -/
def getJob (s : State) : Option Nat × State :=
  if s.Sid ≥ s.total then (none, s)
  else
    (some s.Sid,
      { s with
        Sid := s.Sid + 1
        shutdown := s.shutdown || s.Sid == s.total - 1 })

/-- `strlen(sudoku[total]) >= N`: none of the first bytes ends the string. -/
def longEnough (s : State) : Bool :=
  (List.range cellCount).all fun offset =>
    s.sudoku (s.total * slotSize + offset) ≠ 0

/-- `fgets` stores a byte. -/
def store (offset : Nat) (byte : UInt8) (s : State) : Option State :=
  if s.total * slotSize + offset < sudokuSize then
    some { s with
      sudoku := Function.update s.sudoku (s.total * slotSize + offset) byte }
  else none

/-- A step of `main`. -/
def mainStep (s : State) : Option State :=
  match s.reader with
  | .reading stored =>
      if stored + 1 < sudokuSize then
        match s.rest with
        | [] =>
            some { s with
              reader := if stored = 0 then .finished else .ending stored }
        | byte :: rest =>
            (s.store stored byte).map fun s =>
              { s with
                rest := rest
                reader :=
                  if byte = 10 then .ending (stored + 1)
                  else .reading (stored + 1) }
      else some { s with reader := .ending stored }
  | .ending stored =>
      (s.store stored 0).map fun s => { s with reader := .counting }
  | .counting =>
      some { s with
        total := if s.longEnough then s.total + 1 else s.total
        reader := .reading 0 }
  | .finished => none

/-- The worker is in this phase now. -/
def goOn (w : Nat) (phase : Phase) (s : State) : State :=
  { s with workers := Function.update s.workers w phase }

/-- A step of a worker. -/
def workerStep (fuel w : Nat) (s : State) : Option State :=
  match s.workers w with
  | .check => some (s.goOn w (if s.shutdown then .exited else .job))
  | .job =>
      match s.getJob with
      | (none, s) => some (s.goOn w .exited)
      | (some id, s) =>
          some ({ s with handed := s.handed ++ [(w, id)] }.goOn w
            (.input id 0 fun _ => 0))
  | .input id cell board =>
      if cell < cellCount then
        match inputCell (fun offset => s.sudoku (id * slotSize + offset)) board
            cell with
        | some board => some (s.goOn w (.input id (cell + 1) board))
        | none => some (s.goOn w .failed)
      else some (s.goOn w (.solve id board))
  | .solve id board =>
      match runBoard fuel board with
      | some (some board) => some (s.goOn w (.answer id 0 board))
      | some none => some (s.goOn w .check)
      | none => some (s.goOn w .failed)
  | .answer id cell board =>
      if cell < cellCount then
        some ({ s with
          Answer := Function.update s.Answer (id * slotSize + cell)
            (UInt8.ofNat (48 + board cell)) }.goOn w
              (.answer id (cell + 1) board))
      else some (s.goOn w .check)
  | .exited => none
  | .failed => none

end State

/-- The thread that makes the next step. -/
inductive Event
  | main
  | worker (w : Nat)
  deriving DecidableEq

/-- A step of the program with `n` workers. -/
def step (fuel n : Nat) (s : State) : Event → Option State
  | .main => s.mainStep
  | .worker w => if w < n then s.workerStep fuel w else none

/-! ## What a step can do -/

/-- What a step of `main` leaves alone. -/
theorem mainStep_frame
    {s next : State}
    (taken : s.mainStep = some next) :
    next.Sid = s.Sid ∧ next.shutdown = s.shutdown ∧ next.Answer = s.Answer ∧
      next.workers = s.workers ∧ next.handed = s.handed ∧
      s.total ≤ next.total := by
  have stores : ∀ {offset : Nat} {byte : UInt8} {t : State},
      s.store offset byte = some t →
        t.Sid = s.Sid ∧ t.shutdown = s.shutdown ∧ t.Answer = s.Answer ∧
          t.workers = s.workers ∧ t.handed = s.handed ∧ s.total ≤ t.total := by
    intro offset byte t isStored
    unfold State.store at isStored
    split at isStored
    · cases isStored
      exact ⟨rfl, rfl, rfl, rfl, rfl, le_refl _⟩
    · cases isStored
  unfold State.mainStep at taken
  split at taken
  · split at taken
    · split at taken
      · cases taken
        exact ⟨rfl, rfl, rfl, rfl, rfl, le_refl _⟩
      · obtain ⟨t, isStored, rfl⟩ := Option.map_eq_some_iff.mp taken
        have frame := stores isStored
        exact frame
    · cases taken
      exact ⟨rfl, rfl, rfl, rfl, rfl, le_refl _⟩
  · obtain ⟨t, isStored, rfl⟩ := Option.map_eq_some_iff.mp taken
    have frame := stores isStored
    exact frame
  · cases taken
    refine ⟨rfl, rfl, rfl, rfl, rfl, ?_⟩
    change s.total ≤ if s.longEnough then s.total + 1 else s.total
    split
    · exact Nat.le_succ _
    · exact le_refl _
  · cases taken

/-- The steps of a worker. -/
inductive Worked (fuel w : Nat) (s : State) : State → Prop
  | leaves
      (phase : s.workers w = .check)
      (shutdown : s.shutdown = true) :
      Worked fuel w s (s.goOn w .exited)
  | asks
      (phase : s.workers w = .check)
      (shutdown : s.shutdown = false) :
      Worked fuel w s (s.goOn w .job)
  | refused
      (phase : s.workers w = .job)
      (none : s.total ≤ s.Sid) :
      Worked fuel w s (s.goOn w .exited)
  | takes
      (phase : s.workers w = .job)
      (less : s.Sid < s.total) :
      Worked fuel w s
        ({ s with
          Sid := s.Sid + 1
          shutdown := s.shutdown || s.Sid == s.total - 1
          handed := s.handed ++ [(w, s.Sid)] }.goOn w
            (.input s.Sid 0 fun _ => 0))
  | reads
      (id cell : Nat)
      (board after : Board)
      (phase : s.workers w = .input id cell board)
      (less : cell < cellCount)
      (read : inputCell (fun offset => s.sudoku (id * slotSize + offset)) board
        cell = some after) :
      Worked fuel w s (s.goOn w (.input id (cell + 1) after))
  | rejects
      (id cell : Nat)
      (board : Board)
      (phase : s.workers w = .input id cell board)
      (less : cell < cellCount)
      (read : inputCell (fun offset => s.sudoku (id * slotSize + offset)) board
        cell = none) :
      Worked fuel w s (s.goOn w .failed)
  | complete
      (id cell : Nat)
      (board : Board)
      (phase : s.workers w = .input id cell board)
      (all : cellCount ≤ cell) :
      Worked fuel w s (s.goOn w (.solve id board))
  | solves
      (id : Nat)
      (board after : Board)
      (phase : s.workers w = .solve id board)
      (run : runBoard fuel board = some (some after)) :
      Worked fuel w s (s.goOn w (.answer id 0 after))
  | unsolvable
      (id : Nat)
      (board : Board)
      (phase : s.workers w = .solve id board)
      (run : runBoard fuel board = some none) :
      Worked fuel w s (s.goOn w .check)
  | fails
      (id : Nat)
      (board : Board)
      (phase : s.workers w = .solve id board)
      (run : runBoard fuel board = none) :
      Worked fuel w s (s.goOn w .failed)
  | writes
      (id cell : Nat)
      (board : Board)
      (phase : s.workers w = .answer id cell board)
      (less : cell < cellCount) :
      Worked fuel w s
        ({ s with
          Answer := Function.update s.Answer (id * slotSize + cell)
            (UInt8.ofNat (48 + board cell)) }.goOn w
              (.answer id (cell + 1) board))
  | written
      (id cell : Nat)
      (board : Board)
      (phase : s.workers w = .answer id cell board)
      (all : cellCount ≤ cell) :
      Worked fuel w s (s.goOn w .check)

/-- There are no other steps. -/
theorem worked
    {fuel w : Nat}
    {s next : State}
    (taken : s.workerStep fuel w = some next) :
    Worked fuel w s next := by
  unfold State.workerStep at taken
  split at taken
  case h_1 phase =>
    cases shutdown : s.shutdown with
    | true =>
        rw [shutdown] at taken
        cases taken
        exact .leaves phase shutdown
    | false =>
        rw [shutdown] at taken
        cases taken
        exact .asks phase shutdown
  case h_2 phase =>
    unfold State.getJob at taken
    by_cases none : s.Sid ≥ s.total
    · rw [if_pos none] at taken
      cases taken
      exact .refused phase none
    · rw [if_neg none] at taken
      cases taken
      exact .takes phase (Nat.lt_of_not_ge none)
  case h_3 id cell board phase =>
    split at taken
    case isTrue less =>
      split at taken
      case h_1 after read =>
        cases taken
        exact .reads id cell board after phase less read
      case h_2 read =>
        cases taken
        exact .rejects id cell board phase less read
    case isFalse all =>
      cases taken
      exact .complete id cell board phase (Nat.le_of_not_lt all)
  case h_4 id board phase =>
    split at taken
    case h_1 after run =>
      cases taken
      exact .solves id board after phase run
    case h_2 run =>
      cases taken
      exact .unsolvable id board phase run
    case h_3 run =>
      cases taken
      exact .fails id board phase run
  case h_5 id cell board phase =>
    split at taken
    case isTrue less =>
      cases taken
      exact .writes id cell board phase less
    case isFalse all =>
      cases taken
      exact .written id cell board phase (Nat.le_of_not_lt all)
  case h_6 phase => cases taken
  case h_7 phase => cases taken

/-- What a step of a worker leaves alone. -/
theorem Worked.frame
    {fuel w : Nat}
    {s next : State}
    (worked : Worked fuel w s next) :
    next.rest = s.rest ∧ next.reader = s.reader ∧ next.total = s.total ∧
      next.sudoku = s.sudoku ∧
      ∀ other, other ≠ w → next.workers other = s.workers other := by
  have others : ∀ (phase : Phase) (other : Nat), other ≠ w →
      Function.update s.workers w phase other = s.workers other :=
    fun phase other differs => Function.update_of_ne differs _ _
  cases worked <;> exact ⟨rfl, rfl, rfl, rfl, others _⟩

/-- A step of the program is one of `main` or of a worker. -/
theorem step_cases
    {fuel n : Nat}
    {s next : State}
    {event : Event}
    (taken : step fuel n s event = some next) :
    (event = .main ∧ s.mainStep = some next) ∨
      ∃ w < n, event = .worker w ∧ Worked fuel w s next := by
  cases event with
  | main => exact Or.inl ⟨rfl, taken⟩
  | worker w =>
      change (if w < n then s.workerStep fuel w else none) = some next at taken
      split at taken
      case isTrue less => exact Or.inr ⟨w, less, rfl, worked taken⟩
      case isFalse => cases taken

end Jobs
end Lab1
end CloudComputing
