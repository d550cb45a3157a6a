import CloudComputing.Lib.Decimal

/-!
# Reading HTTP responses

A client reads a response up to the empty line behind its header, and then as
many bytes as the field `Content-Length` says, whatever these are.  The name of
the field may be written in capital or small letters.

A response whose header is a fixed text around the printed length of its entity
is read back exactly, and so is a sequence of them.
-/

namespace CloudComputing

namespace Bytes

/-- A pattern does not begin in front of the first occurrence of its head. -/
theorem find_append_of_absent
    {head : UInt8}
    {pattern front : Bytes}
    (absent : head ∉ front)
    (text : Bytes) :
    find (head :: pattern) (front ++ text) =
      (find (head :: pattern) text).map (front.length + ·) := by
  induction front with
  | nil =>
      rw [List.nil_append]
      cases find (head :: pattern) text with
      | none => rfl
      | some position => simp
  | cons byte front inductionHypothesis =>
      rw [List.mem_cons, not_or] at absent
      have differs : ¬ (head :: pattern).isPrefixOf (byte :: (front ++ text)) := by
        intro begins
        rw [List.isPrefixOf_iff_prefix, List.cons_prefix_cons] at begins
        exact absent.1 begins.1
      rw [List.cons_append, find, if_neg differs,
        inductionHypothesis absent.2, Option.map_map, List.length_cons]
      congr 1
      funext position
      change front.length + position + 1 = front.length + 1 + position
      omega

/-- A prefix without the separator ends in front of it. -/
theorem prefix_of_separator
    {pattern before after : Bytes}
    {separator : UInt8}
    (absent : separator ∉ pattern)
    (begins : pattern <+: before ++ separator :: after) :
    pattern <+: before := by
  by_cases short : pattern.length ≤ before.length
  · exact List.prefix_of_prefix_length_le begins
      (List.prefix_append before _) short
  · refine absurd ?_ absent
    have longer : before ++ [separator] <+: pattern := by
      refine List.prefix_of_prefix_length_le ?_ begins ?_
      · exact ⟨after, by simp⟩
      · rw [List.length_append, List.length_singleton]
        omega
    exact longer.subset (by simp)

/-- A pattern that does not occur in front of a separator which it does not
contain occurs behind it. -/
theorem find_behind
    {pattern before : Bytes}
    {separator : UInt8}
    (absent : separator ∉ pattern)
    (nonempty : pattern ≠ [])
    (nowhere : find pattern before = none)
    (after : Bytes) :
    find pattern (before ++ separator :: after) =
      (find pattern after).map (before.length + 1 + ·) := by
  induction before with
  | nil =>
      have differs : ¬ pattern.isPrefixOf (separator :: after) := by
        intro begins
        have inside : pattern <+: [] := prefix_of_separator absent
          (List.isPrefixOf_iff_prefix.mp begins)
        exact nonempty (List.prefix_nil.mp inside)
      rw [List.nil_append, find, if_neg differs]
      congr 1
      funext position
      change position + 1 = 0 + 1 + position
      omega
  | cons byte before inductionHypothesis =>
      rw [find] at nowhere
      split at nowhere
      · cases nowhere
      · rename_i differs
        have still : ¬ pattern.isPrefixOf
            (byte :: (before ++ separator :: after)) := by
          intro begins
          rw [List.isPrefixOf_iff_prefix, ← List.cons_append] at begins
          exact differs (List.isPrefixOf_iff_prefix.mpr
            (prefix_of_separator absent begins))
        rw [List.cons_append, find, if_neg still,
          inductionHypothesis (Option.map_eq_none_iff.mp nowhere),
          Option.map_map, List.length_cons]
        congr 1
        funext position
        change before.length + 1 + position + 1 =
          before.length + 1 + 1 + position
        omega

end Bytes

namespace Http

open Decimal

/-- The empty line behind a header. -/
def emptyLine : Bytes := str "\r\n\r\n"

theorem mem_emptyLine
    {byte : UInt8}
    (member : byte ∈ emptyLine) :
    byte = 13 ∨ byte = 10 := by
  have bytes : emptyLine = [13, 10, 13, 10] := rfl
  rw [bytes] at member
  simp only [List.mem_cons, List.not_mem_nil, or_false] at member
  tauto

/-- A letter as a small one. -/
def lower (byte : UInt8) : UInt8 :=
  if 65 ≤ byte ∧ byte ≤ 90 then byte + 32 else byte

/-- What a client is interested in. -/
structure Response where
  status : Bytes
  entity : Bytes
  deriving DecidableEq, Repr

/-- Read one response. -/
def readResponse (stream : Bytes) : Option (Response × Bytes) := do
  let position ← Bytes.find emptyLine stream
  let head := stream.take (position + 4)
  let rest := stream.drop (position + 4)
  let field ← Bytes.find (str "content-length: ") (head.map lower)
  let length := strtol (head.drop (field + 16))
  if 0 ≤ length ∧ length.toNat ≤ rest.length then
    some (⟨head.takeWhile (· ≠ 13), rest.take length.toNat⟩,
      rest.drop length.toNat)
  else none

/-- Read so many responses at most, up to the end of the stream. -/
def readResponses : Nat → Bytes → Option (List Response)
  | _, [] => some []
  | 0, _ :: _ => none
  | count + 1, stream => do
      let (response, rest) ← readResponse stream
      let more ← readResponses count rest
      some (response :: more)

/-- A header in two parts, with the length of the entity between them. -/
structure Head (before after : Bytes) : Prop where
  open_before : Bytes.find emptyLine before = none
  status : 13 ∈ before
  field : 16 ≤ before.length ∧
    Bytes.find (str "content-length: ") (before.map lower) =
      some (before.length - 16)
  closed : 4 ≤ after.length ∧
    Bytes.find emptyLine after = some (after.length - 4)
  ends : EndsNumber after

variable {before after : Bytes}

/-- The header ends where its second part does. -/
theorem Head.find_emptyLine
    (isHead : Head before after)
    (number : Nat)
    (later : Bytes) :
    Bytes.find emptyLine (before ++ (toDecimal number ++ (after ++ later))) =
      some (before.length + (toDecimal number).length +
        (after.length - 4)) := by
  have inAfter := Bytes.find_append isHead.closed.2 later
  obtain ⟨digit, digits, printed⟩ :=
    List.exists_cons_of_ne_nil (toDecimal_ne_nil number)
  have areDigits : ∀ byte ∈ digit :: digits, isDigit byte = true := by
    intro byte member
    rw [← printed] at member
    exact isDigit_of_mem_toDecimal member
  have noReturn : (13 : UInt8) ∉ digits := by
    intro member
    have digit := areDigits 13 (List.mem_cons_of_mem _ member)
    cases digit
  have noDigit : digit ∉ emptyLine := by
    intro member
    have isDigit := areDigits digit List.mem_cons_self
    rcases mem_emptyLine member with rfl | rfl
    · cases isDigit
    · cases isDigit
  have inDigits : Bytes.find emptyLine (digits ++ (after ++ later)) =
      some (digits.length + (after.length - 4)) := by
    have moved : Bytes.find emptyLine (digits ++ (after ++ later)) =
        (Bytes.find emptyLine (after ++ later)).map (digits.length + ·) :=
      Bytes.find_append_of_absent noReturn (after ++ later)
    rw [moved, inAfter, Option.map_some]
  rw [printed, List.cons_append,
    Bytes.find_behind noDigit (by decide) isHead.open_before, inDigits,
    Option.map_some, List.length_cons]
  congr 1
  omega

/-- The response is read exactly, whatever its entity and what follows. -/
theorem Head.readResponse
    (isHead : Head before after)
    {entity : Bytes}
    (small : entity.length < 2 ^ 63)
    (rest : Bytes) :
    readResponse (before ++ toDecimal entity.length ++ after ++ entity ++
        rest) =
      some (⟨before.takeWhile (· ≠ 13), entity⟩, rest) := by
  have text : before ++ toDecimal entity.length ++ after ++ entity ++ rest =
      before ++ (toDecimal entity.length ++ (after ++ (entity ++ rest))) := by
    simp only [List.append_assoc]
  have found := isHead.find_emptyLine entity.length (entity ++ rest)
  have large := isHead.closed.1
  have length : before.length + (toDecimal entity.length).length +
      (after.length - 4) + 4 =
        (before ++ toDecimal entity.length ++ after).length := by
    simp only [List.length_append]
    omega
  have split : before ++ (toDecimal entity.length ++
      (after ++ (entity ++ rest))) =
        (before ++ toDecimal entity.length ++ after) ++ (entity ++ rest) := by
    simp only [List.append_assoc]
  have field : Bytes.find (str "content-length: ")
      ((before ++ toDecimal entity.length ++ after).map lower) =
        some (before.length - 16) := by
    rw [List.append_assoc, List.map_append]
    exact Bytes.find_append isHead.field.2 _
  have behind : (before ++ toDecimal entity.length ++ after).drop
      (before.length - 16 + 16) = toDecimal entity.length ++ after := by
    have same : before.length - 16 + 16 = before.length := by
      have := isHead.field.1
      omega
    rw [same, List.append_assoc, List.drop_left]
  have status : (before ++ toDecimal entity.length ++ after).takeWhile
      (· ≠ 13) = before.takeWhile (· ≠ 13) := by
    rw [List.append_assoc, List.takeWhile_append, if_neg]
    intro all
    have same := (List.takeWhile_prefix _).eq_of_length all
    have absurd := List.takeWhile_eq_self_iff.mp same 13 isHead.status
    cases absurd
  rw [text, Http.readResponse, found, Option.bind_eq_bind, Option.bind_some]
  dsimp only
  rw [length, split, List.take_left, List.drop_left, field,
    Option.bind_some, behind, strtol_toDecimal_append_of_lt small isHead.ends,
    status]
  rw [if_pos (by simp)]
  simp

/-- A stream of responses that are read one by one is read to its end. -/
theorem readResponses_flatten
    {chunks : List Bytes}
    {responses : List Response}
    (each : List.Forall₂ (fun chunk response => chunk ≠ [] ∧
      ∀ rest, readResponse (chunk ++ rest) = some (response, rest))
        chunks responses) :
    readResponses chunks.length chunks.flatten = some responses := by
  induction each with
  | nil => rfl
  | @cons chunk response chunks responses first _ inductionHypothesis =>
      have read := first.2 chunks.flatten
      obtain ⟨byte, chunk, rfl⟩ := List.exists_cons_of_ne_nil first.1
      rw [List.cons_append] at read
      rw [List.flatten_cons, List.cons_append, List.length_cons]
      simp only [readResponses, read, Option.bind_eq_bind, Option.bind_some,
        inductionHypothesis]

end Http
end CloudComputing
