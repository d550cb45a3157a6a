import CloudComputing.Lab3.Replies
import CloudComputing.Lab3.Sequential

/-!
# The lines of the client

`main` without arguments splits each line that is typed at its spaces and sends
the words as a command.  The encoding of a command is not much longer than its
line.
-/

namespace CloudComputing
namespace Lab3

open Bytes CloudComputing.Lab3.Parser Network

/-! ## `split` -/

/-- `txt.find(ch, initialPos)` -/
def findFrom (txt : Bytes) (ch : UInt8) (initialPos : Nat) : Option Nat :=
  (find [ch] (txt.drop initialPos)).map (initialPos + ·)

/-- The loop of `split` and its last piece, whose length is one too large
wherever `pos` is `npos`.  `none` is an exception of `substr`. -/
def splitLoop (txt : Bytes) (ch : UInt8) :
    Nat → Nat → Option Nat → List Bytes → Option (List Bytes)
  | 0, _, _, _ => none
  | fuel + 1, initialPos, some pos, strs => do
      let piece ← substr txt initialPos (pos - initialPos)
      splitLoop txt ch fuel (pos + 1) (findFrom txt ch (pos + 1))
        (strs ++ [piece])
  | _ + 1, initialPos, none, strs => do
      let piece ← substr txt initialPos (txt.length - initialPos + 1)
      some (strs ++ [piece])

/-- `split` -/
def split (txt : Bytes) (ch : UInt8) : Option (List Bytes) :=
  splitLoop txt ch (txt.length + 1) 0 (findFrom txt ch 0) []

theorem splitLoop_eq
    {txt : Bytes}
    {ch : UInt8}
    {fuel initialPos : Nat}
    (inside : initialPos ≤ txt.length)
    (enough : txt.length - initialPos < fuel)
    (strs : List Bytes) :
    splitLoop txt ch fuel initialPos (findFrom txt ch initialPos) strs =
      some (strs ++ (txt.drop initialPos).splitOn ch) := by
  induction fuel generalizing initialPos strs with
  | zero => omega
  | succ fuel inductionHypothesis =>
      by_cases present : ch ∈ txt.drop initialPos
      · obtain ⟨piece, rest, isRest, absent⟩ :=
          List.eq_append_cons_of_mem present
        have found : findFrom txt ch initialPos =
            some (initialPos + piece.length) := by
          have first := find_append_of_head_not_mem ch [] piece rest absent
          rw [List.append_assoc, List.singleton_append] at first
          rw [findFrom, isRest, first, Option.map_some]
        have size := congrArg List.length isRest
        rw [List.length_drop, List.length_append, List.length_cons] at size
        have next : txt.drop (initialPos + piece.length + 1) = rest := by
          rw [Nat.add_assoc, ← List.drop_drop, isRest, ← List.drop_drop,
            List.drop_left]
          rfl
        have isPiece : substr txt initialPos
            ((initialPos + piece.length : Nat) - initialPos) = some piece := by
          have length : ((initialPos + piece.length : Nat) - initialPos : Int) =
              piece.length := by omega
          rw [length, substr, if_neg (Nat.not_lt_of_le inside),
            if_neg (by omega), Int.toNat_natCast, isRest, List.take_left]
        rw [found, splitLoop, isPiece, Option.bind_eq_bind, Option.bind_some,
          inductionHypothesis (by omega) (by omega), next, isRest,
          List.splitOn_append_cons_self_of_not_mem absent, List.append_assoc,
          List.singleton_append]
      · have none : findFrom txt ch initialPos = none := by
          rw [findFrom, Option.map_eq_none_iff,
            ← Option.not_isSome_iff_eq_none, find_isSome_iff,
            List.singleton_infix_iff]
          exact present
        have isPiece : substr txt initialPos (txt.length - initialPos + 1) =
            some (txt.drop initialPos) := by
          rw [substr, if_neg (Nat.not_lt_of_le inside), if_neg (by omega),
            List.take_of_length_le]
          rw [List.length_drop]
          omega
        rw [none, splitLoop, isPiece, Option.bind_eq_bind, Option.bind_some,
          List.splitOn_eq_singleton present]

/-- `split` cuts at every separator, and raises no exception. -/
theorem split_eq (txt : Bytes) (ch : UInt8) :
    split txt ch = some (txt.splitOn ch) :=
  splitLoop_eq (Nat.zero_le _) (Nat.lt_succ_self _) []

/-! ## Lengths -/

/-- The pieces of a text and their separators. -/
theorem sum_length_pieces
    (separator : UInt8)
    {pieces : List Bytes}
    (some : pieces ≠ []) :
    (pieces.map fun piece => piece.length + 1).sum =
      ([separator].intercalate pieces).length + 1 := by
  induction pieces with
  | nil => exact absurd rfl some
  | cons piece pieces inductionHypothesis =>
      rw [List.map_cons, List.sum_cons]
      by_cases last : pieces = []
      · rw [last]
        simp
      · rw [inductionHypothesis last, List.intercalate_cons_of_ne_nil last,
          List.length_append, List.length_append, List.length_singleton]
        omega

/-- What the encoding adds to the strings of a command. -/
theorem length_flatMap_getStringMessage
    {pieces : List Bytes}
    (short : ∀ piece ∈ pieces, piece.length < 2 ^ 31) :
    (pieces.flatMap getStringMessage).length ≤
      25 * (pieces.map fun piece => piece.length + 1).sum := by
  induction pieces with
  | nil => exact Nat.zero_le _
  | cons piece pieces inductionHypothesis =>
      obtain ⟨first, others⟩ := List.forall_mem_cons.mp short
      have digits := length_toDecimal_le (show piece.length < 2 ^ 64 by omega)
      have rest := inductionHypothesis others
      have message : (getStringMessage piece).length =
          (Decimal.toDecimal piece.length).length + piece.length + 5 := by
        rw [getStringMessage, Decimal.toInt32_of_lt first,
          Decimal.intToDecimal_natCast]
        simp only [List.length_append, show (str "$").length = 1 by rfl,
          show (str "\r\n").length = 2 by rfl]
        omega
      rw [List.flatMap_cons, List.length_append, List.map_cons, List.sum_cons,
        message]
      omega

/-- The encoding of the words of a line is not much longer. -/
theorem length_getRESPArry_words
    {line : Bytes}
    (short : line.length < 2 ^ 25) :
    (getRESPArry (line.splitOn 32)).length < 2 ^ 30 := by
  have sum := sum_length_pieces 32 (List.splitOn_ne_nil 32 line)
  rw [List.intercalate_splitOn] at sum
  have each : ∀ piece ∈ line.splitOn 32, piece.length < 2 ^ 31 := by
    intro piece member
    have bound := List.le_sum_of_mem
      (List.mem_map_of_mem (f := fun piece : Bytes => piece.length + 1) member)
    omega
  have count : (line.splitOn 32).length ≤ line.length + 1 := by
    have bound := List.length_le_sum_of_one_le
      ((line.splitOn 32).map fun piece : Bytes => piece.length + 1) (by simp)
    rw [List.length_map] at bound
    omega
  have strings := length_flatMap_getStringMessage each
  have number : (line.splitOn 32).length < 2 ^ 31 := by omega
  have digits := length_toDecimal_le
    (show (line.splitOn 32).length < 2 ^ 64 by omega)
  rw [getRESPArry_of_lt number, List.length_cons, List.length_append,
    List.length_append, show (str "\r\n").length = 2 by rfl]
  omega

end Lab3
end CloudComputing
