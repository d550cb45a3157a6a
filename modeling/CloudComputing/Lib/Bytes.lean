import Mathlib

/-!
# Byte strings

A C++ `std::string` or `char` buffer is a list of bytes.  This module has the
searching and cutting operations of `std::string` that the modelled programs
use, with the facts about first occurrences that decoders rely on.
-/

namespace CloudComputing

/-- Contents of a `std::string`. -/
abbrev Bytes := List UInt8

/-- Bytes of an ASCII string literal. -/
def str (literal : String) : Bytes :=
  literal.toList.map Char.toUInt8

namespace Bytes

/-- Position of the first occurrence of `pattern`, as `std::string::find`. -/
def find (pattern : Bytes) : Bytes → Option Nat
  | [] => if pattern = [] then some 0 else none
  | byte :: rest =>
      if pattern.isPrefixOf (byte :: rest) then some 0
      else (find pattern rest).map (· + 1)

/-- `std::string::substr`.  A start beyond the end raises `out_of_range`; a
negative length is a difference of two `size_t` that wrapped around, and is
past the end of every string. -/
def substr (text : Bytes) (start : Nat) (length : Int) : Option Bytes :=
  if text.length < start then none
  else if length < 0 then some (text.drop start)
  else some ((text.drop start).take length.toNat)

/-- `std::string::substr` without a length. -/
def substrFrom (text : Bytes) (start : Nat) : Option Bytes :=
  if text.length < start then none else some (text.drop start)

/-- A pattern at the head of the text is found at position zero. -/
@[simp] theorem find_append_self
    (pattern rest : Bytes) :
    find pattern (pattern ++ rest) = some 0 := by
  cases pattern with
  | nil => cases rest <;> simp [find]
  | cons byte pattern =>
      have prefixed :
          (byte :: pattern).isPrefixOf (byte :: (pattern ++ rest)) = true := by
        rw [List.isPrefixOf_iff_prefix]
        exact ⟨rest, rfl⟩
      rw [List.cons_append, find, if_pos prefixed]

/-- Text that avoids the first byte of a pattern cannot hide an occurrence of
it, so the search skips exactly that text. -/
theorem find_append_of_head_not_mem
    (head : UInt8)
    (pattern before rest : Bytes)
    (absent : head ∉ before) :
    find (head :: pattern) (before ++ (head :: pattern) ++ rest) =
      some before.length := by
  induction before with
  | nil => exact find_append_self (head :: pattern) rest
  | cons byte before inductionHypothesis =>
      have different : head ≠ byte := fun equal => absent (by simp [equal])
      have notPrefix :
          ¬ (head :: pattern).isPrefixOf
            (byte :: (before ++ (head :: pattern) ++ rest)) = true := by
        simp [List.isPrefixOf, different]
      rw [List.cons_append, List.cons_append, find, if_neg notPrefix,
        inductionHypothesis fun present =>
          absent (List.mem_cons_of_mem byte present)]
      rfl

/-- Cutting a known middle part out of a text. -/
theorem substr_append
    (before middle rest : Bytes) :
    substr (before ++ middle ++ rest) before.length middle.length =
      some middle := by
  have inside : ¬ (before ++ middle ++ rest).length < before.length := by
    simp only [List.length_append]
    omega
  rw [substr, if_neg inside, if_neg (by omega), List.append_assoc,
    List.drop_left, Int.toNat_natCast, List.take_left]

/-- Cutting off a known prefix. -/
theorem substrFrom_append
    (before rest : Bytes) :
    substrFrom (before ++ rest) before.length = some rest := by
  simp [substrFrom]

/-- An occurrence lies inside the text. -/
theorem find_le
    {pattern text : Bytes}
    {position : Nat}
    (found : find pattern text = some position) :
    position + pattern.length ≤ text.length := by
  induction text generalizing position with
  | nil =>
      rw [find] at found
      split at found
      · rename_i empty
        cases found
        rw [empty]
        exact le_refl 0
      · cases found
  | cons byte rest inductionHypothesis =>
      rw [find] at found
      split at found
      · rename_i head
        cases found
        rw [Nat.zero_add]
        exact (List.isPrefixOf_iff_prefix.mp head).length_le
      · obtain ⟨before, foundRest, rfl⟩ := Option.map_eq_some_iff.mp found
        have inside := inductionHypothesis foundRest
        rw [List.length_cons]
        omega

/-- The pattern stands where it is found. -/
theorem find_prefix
    {pattern text : Bytes}
    {position : Nat}
    (found : find pattern text = some position) :
    pattern <+: text.drop position := by
  induction text generalizing position with
  | nil =>
      rw [find] at found
      split at found
      · rename_i empty
        rw [empty]
        exact List.nil_prefix
      · cases found
  | cons byte rest inductionHypothesis =>
      rw [find] at found
      split at found
      · rename_i head
        cases found
        exact List.isPrefixOf_iff_prefix.mp head
      · obtain ⟨before, foundRest, rfl⟩ := Option.map_eq_some_iff.mp found
        rw [List.drop_succ_cons]
        exact inductionHypothesis foundRest

/-- The bytes of the pattern are those of the text from there on. -/
theorem find_getElem?
    {pattern text : Bytes}
    {position offset : Nat}
    (found : find pattern text = some position)
    (inside : offset < pattern.length) :
    text[position + offset]? = pattern[offset]? := by
  obtain ⟨rest, split⟩ := find_prefix found
  rw [← List.getElem?_drop, ← split, List.getElem?_append_left inside]

/-- The first occurrence is no later than any other one. -/
theorem exists_find_of_prefix
    {pattern text : Bytes}
    {position : Nat}
    (occurs : pattern <+: text.drop position) :
    ∃ first ≤ position, find pattern text = some first := by
  induction text generalizing position with
  | nil =>
      rw [List.drop_nil, List.prefix_nil] at occurs
      exact ⟨0, Nat.zero_le _, if_pos occurs⟩
  | cons byte rest inductionHypothesis =>
      rw [find]
      split
      · exact ⟨0, Nat.zero_le _, rfl⟩
      · rename_i absent
        cases position with
        | zero => exact absurd (List.isPrefixOf_iff_prefix.mpr occurs) absent
        | succ position =>
            obtain ⟨first, bound, found⟩ := inductionHypothesis occurs
            rw [found]
            exact ⟨first + 1, Nat.succ_le_succ bound, rfl⟩

/-- The first occurrence stays the first one whatever follows. -/
theorem find_append
    {pattern text : Bytes}
    {position : Nat}
    (found : find pattern text = some position)
    (later : Bytes) :
    find pattern (text ++ later) = some position := by
  induction text generalizing position with
  | nil =>
      rw [find] at found
      split at found
      · rename_i empty
        cases found
        rw [empty]
        exact find_append_self [] later
      · cases found
  | cons byte rest inductionHypothesis =>
      rw [List.cons_append, find]
      rw [find] at found
      split at found
      · rename_i head
        cases found
        have longer := (List.isPrefixOf_iff_prefix.mp head).trans
          (List.prefix_append _ later)
        rw [List.cons_append] at longer
        rw [if_pos (List.isPrefixOf_iff_prefix.mpr longer)]
      · rename_i absent
        obtain ⟨before, foundRest, rfl⟩ := Option.map_eq_some_iff.mp found
        have inside := find_le foundRest
        have still : ¬ pattern.isPrefixOf (byte :: (rest ++ later)) = true := by
          intro head
          have occurs := List.isPrefixOf_iff_prefix.mp head
          rw [← List.cons_append] at occurs
          refine absent (List.isPrefixOf_iff_prefix.mpr
            (List.prefix_of_prefix_length_le occurs
              (List.prefix_append _ later) ?_))
          rw [List.length_cons]
          omega
        rw [if_neg still, inductionHypothesis foundRest]
        rfl

/-- The search succeeds when the pattern occurs. -/
theorem find_isSome_iff
    {pattern text : Bytes} :
    (find pattern text).isSome = true ↔ pattern <:+: text := by
  constructor
  · intro isFound
    obtain ⟨position, found⟩ := Option.isSome_iff_exists.mp isFound
    have occurs := find_prefix found
    exact occurs.isInfix.trans (List.drop_suffix _ _).isInfix
  · rintro ⟨before, after, rfl⟩
    have occurs : pattern <+: (before ++ pattern ++ after).drop before.length := by
      rw [List.append_assoc, List.drop_left]
      exact List.prefix_append pattern after
    obtain ⟨first, _, found⟩ := exists_find_of_prefix occurs
    rw [found]
    rfl

/-- The text around an occurrence. -/
theorem split_of_find
    {pattern text : Bytes}
    {position : Nat}
    (found : find pattern text = some position) :
    ∃ before after, text = before ++ pattern ++ after ∧
      before.length = position ∧
      text.drop (position + pattern.length) = after := by
  obtain ⟨after, split⟩ := find_prefix found
  have inside := find_le found
  refine ⟨text.take position, after, ?_, ?_, ?_⟩
  · rw [List.append_assoc, split, List.take_append_drop]
  · rw [List.length_take]
    omega
  · rw [← List.drop_drop, ← split, List.drop_left]

/-- A pattern without the separator stands on one side of it. -/
theorem side_of_separator
    {pattern before after left right : Bytes}
    {separator : UInt8}
    (absent : separator ∉ pattern)
    (nonempty : pattern ≠ [])
    (same : left ++ pattern ++ right = before ++ separator :: after) :
    (∃ between, before = left ++ pattern ++ between ∧
        right = between ++ separator :: after) ∨
      ∃ between, left = before ++ separator :: between ∧
        after = between ++ pattern ++ right := by
  rw [List.append_assoc] at same
  rcases List.append_eq_append_iff.mp same with
    ⟨middle, isBefore, isRest⟩ | ⟨middle, isLeft, isRest⟩
  · rcases List.append_eq_append_iff.mp isRest with
      ⟨between, isMiddle, isRight⟩ | ⟨inside, isPattern, isRight⟩
    · left
      refine ⟨between, ?_, isRight⟩
      rw [isBefore, isMiddle, List.append_assoc]
    · cases inside with
      | nil =>
          left
          refine ⟨[], ?_, isRight.symm⟩
          rw [List.append_nil] at isPattern ⊢
          rw [isBefore, isPattern]
      | cons first inside =>
          have isFirst := (List.cons.inj isRight).1
          rw [← isFirst] at isPattern
          exact absurd (isPattern ▸ List.mem_append_right middle
            List.mem_cons_self) absent
  · cases middle with
    | nil =>
        cases pattern with
        | nil => exact absurd rfl nonempty
        | cons first pattern =>
            have isFirst := (List.cons.inj isRest).1
            exact absurd (isFirst ▸ List.mem_cons_self) absent
    | cons first between =>
        obtain ⟨isFirst, isAfter⟩ := List.cons.inj isRest
        right
        refine ⟨between, ?_, ?_⟩
        · rw [isLeft, isFirst]
        · rw [List.append_assoc]
          exact isAfter

/-- A pattern does not occur in a shorter text. -/
theorem find_eq_none_of_length_lt
    {pattern text : Bytes}
    (short : text.length < pattern.length) :
    find pattern text = none := by
  cases found : find pattern text with
  | none => rfl
  | some position =>
      have inside := find_le found
      omega

/-- The lines of a text, as `fgets` returns them one after the other: each with
its newline, except for a last line without one. -/
def lines : Bytes → List Bytes
  | [] => []
  | byte :: rest =>
      if byte = 10 then [byte] :: lines rest
      else
        match lines rest with
        | [] => [[byte]]
        | line :: more => (byte :: line) :: more

/-- Text with a newline behind it is a line. -/
theorem lines_newline
    {text : Bytes}
    (noNewline : 10 ∉ text)
    (rest : Bytes) :
    lines (text ++ 10 :: rest) = (text ++ [10]) :: lines rest := by
  induction text with
  | nil => exact if_pos rfl
  | cons byte text inductionHypothesis =>
      rw [List.mem_cons, not_or] at noNewline
      rw [List.cons_append, lines, if_neg (Ne.symm noNewline.1),
        inductionHypothesis noNewline.2]
      rfl

/-- Text without a newline is the last line. -/
theorem lines_last
    {text : Bytes}
    (noNewline : 10 ∉ text)
    (nonempty : text ≠ []) :
    lines text = [text] := by
  induction text with
  | nil => exact absurd rfl nonempty
  | cons byte text inductionHypothesis =>
      rw [List.mem_cons, not_or] at noNewline
      rw [lines, if_neg (Ne.symm noNewline.1)]
      cases text with
      | nil => rfl
      | cons second text =>
          rw [inductionHypothesis noNewline.2 (List.cons_ne_nil _ _)]

/-- Text without a newline and the next byte are in one line. -/
theorem lines_append
    {text : Bytes}
    (noNewline : 10 ∉ text)
    (byte : UInt8)
    (rest : Bytes) :
    ∃ further more,
      lines (text ++ byte :: rest) = (text ++ byte :: further) :: more := by
  induction text with
  | nil =>
      rw [List.nil_append, lines]
      split
      · exact ⟨[], _, rfl⟩
      · cases lines rest with
        | nil => exact ⟨[], [], rfl⟩
        | cons line more => exact ⟨line, more, rfl⟩
  | cons first text inductionHypothesis =>
      rw [List.mem_cons, not_or] at noNewline
      obtain ⟨further, more, split⟩ := inductionHypothesis noNewline.2
      refine ⟨further, more, ?_⟩
      rw [List.cons_append, lines, if_neg (Ne.symm noNewline.1), split]
      rfl

/-- Nothing is lost between the lines. -/
theorem flatten_lines (text : Bytes) : (lines text).flatten = text := by
  induction text with
  | nil => rfl
  | cons byte rest inductionHypothesis =>
      rw [lines]
      split
      · rw [List.flatten_cons, inductionHypothesis]
        rfl
      · split
        case h_1 none =>
          rw [none] at inductionHypothesis
          rw [← inductionHypothesis]
          rfl
        case h_2 line more isLines =>
          rw [isLines, List.flatten_cons] at inductionHypothesis
          rw [List.flatten_cons, List.cons_append, inductionHypothesis]

end Bytes
end CloudComputing
