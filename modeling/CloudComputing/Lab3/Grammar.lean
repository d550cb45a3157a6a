import CloudComputing.Lab3.RecvCommand

/-!
# What `recvCommand` accepts

The grammar of a RESP array of bulk strings, and the streams on which
`recvCommand` returns `KV_OK`.  Its header loops drop every byte in front of a
marker, a line without digits counts as zero, and nothing is checked behind a
content.  So it accepts more than the grammar, and the strings that it returns
may be shorter than the elements that were sent.
-/

namespace CloudComputing
namespace Lab3

open Decimal CloudComputing.Lab3.Parser

/-! ## The grammar -/

namespace Parser

/-- The end of a line. -/
def crlf : Bytes := [13, 10]

/-- A decimal number, of at least one digit. -/
structure IsNumber (text : Bytes) (value : Nat) : Prop where
  nonempty : text ≠ []
  digits : ∀ byte ∈ text, isDigit byte = true
  value : digitsFrom 0 text = value

/-- Bulk strings one after the other. -/
inductive IsBulks : Bytes → List Bytes → Prop
  | nil : IsBulks [] []
  | cons
      {digits content bulks : Bytes}
      {strings : List Bytes}
      (number : IsNumber digits content.length)
      (others : IsBulks bulks strings) :
      IsBulks (36 :: (digits ++ (crlf ++ (content ++ (crlf ++ bulks)))))
        (content :: strings)

/-- An array of bulk strings. -/
def IsArray (bytes : Bytes) (strings : List Bytes) : Prop :=
  ∃ digits bulks, IsNumber digits strings.length ∧ IsBulks bulks strings ∧
    bytes = 42 :: (digits ++ (crlf ++ bulks))

/-- A number ends where its line ends. -/
theorem digits_cancel
    {digits digits' rest rest' : Bytes}
    (allDigits : ∀ byte ∈ digits, isDigit byte = true)
    (allDigits' : ∀ byte ∈ digits', isDigit byte = true)
    (same : digits ++ (crlf ++ rest) = digits' ++ (crlf ++ rest')) :
    digits = digits' ∧ rest = rest' := by
  induction digits generalizing digits' with
  | nil =>
      cases digits' with
      | nil => exact ⟨rfl, List.append_cancel_left same⟩
      | cons byte digits' =>
          have head : (13 : UInt8) = byte := (List.cons.inj same).1
          exact absurd (allDigits' byte (by simp)) (by rw [← head]; decide)
  | cons byte digits inductionHypothesis =>
      cases digits' with
      | nil =>
          have head : byte = (13 : UInt8) := (List.cons.inj same).1
          exact absurd (allDigits byte (by simp)) (by rw [head]; decide)
      | cons byte' digits' =>
          obtain ⟨rfl, tail⟩ := List.cons.inj same
          obtain ⟨rfl, rfl⟩ := inductionHypothesis
            (fun other member => allDigits other (List.mem_cons_of_mem _ member))
            (fun other member => allDigits' other (List.mem_cons_of_mem _ member))
            tail
          exact ⟨rfl, rfl⟩

/-- Bulk strings can be read in one way only. -/
theorem IsBulks.unique
    {bulks bulks' later later' : Bytes}
    {strings strings' : List Bytes}
    (first : IsBulks bulks strings)
    (second : IsBulks bulks' strings')
    (count : strings.length = strings'.length)
    (same : bulks ++ later = bulks' ++ later') :
    strings = strings' ∧ later = later' := by
  induction first generalizing bulks' strings' with
  | nil =>
      cases second with
      | nil => exact ⟨rfl, same⟩
      | cons number others => cases count
  | @cons digits content bulks strings number others inductionHypothesis =>
      cases second with
      | nil => cases count
      | @cons digits' content' bulks' strings' number' others' =>
          simp only [List.cons_append, List.append_assoc, List.cons.injEq,
            true_and] at same
          obtain ⟨rfl, rest⟩ :=
            digits_cancel number.digits number'.digits same
          have lengths : content.length = content'.length :=
            number.value.symm.trans number'.value
          obtain ⟨rfl, tail⟩ := List.append_inj rest lengths
          obtain ⟨rfl, rfl⟩ := inductionHypothesis others'
            (Nat.succ.inj count) (List.append_cancel_left tail)
          exact ⟨rfl, rfl⟩

/-- A text is the array of one vector only. -/
theorem IsArray.unique
    {bytes : Bytes}
    {strings strings' : List Bytes}
    (first : IsArray bytes strings)
    (second : IsArray bytes strings') :
    strings = strings' := by
  obtain ⟨digits, bulks, number, isBulks, rfl⟩ := first
  obtain ⟨digits', bulks', number', isBulks', same⟩ := second
  obtain ⟨rfl, rfl⟩ :=
    digits_cancel number.digits number'.digits (List.cons.inj same).2
  have count := number.value.symm.trans number'.value
  have alike : bulks ++ [] = bulks ++ [] := rfl
  exact (isBulks.unique isBulks' count alike).1

theorem strtol_of_digits
    {digits : Bytes}
    (allDigits : ∀ byte ∈ digits, isDigit byte = true) :
    strtol digits = min longMax (digitsFrom 0 digits) := by
  cases digits with
  | nil => decide
  | cons byte digits =>
      rw [strtol_of_digit_head (allDigits byte (by simp)), clampLong]
      exact max_eq_right (by simp only [longMin, longMax]; omega)

end Parser

namespace Network

/-! ## The loops over a stream of bytes -/

/-- The loop of `recvCommand` over the strings, with what it leaves in the
stream. -/
def recvStringsRest (heap : Nat → Nat → Option Bytes) :
    Nat → List Bytes → List Inbound → Option (Int × List Bytes × List Inbound)
  | 0, strings, script => some (kvOk, strings, script)
  | count + 1, strings, script =>
      let (rc, header, script) := recvNumber 36 true .marker [] script
      if rc ≠ kvOk then some (rc, strings, script)
      else
        let contentLen := (strtol header).toNat
        let asked := (toInt32 contentLen).toNat
        let (rc, received, script) := recvContent asked asked [] script
        if rc ≠ kvOk then some (rc, strings, script)
        else do
          let content ← contentString heap strings.length contentLen received
          recvStringsRest heap count (strings ++ [content]) script

/-- `recvCommand` with what it leaves in the stream. -/
def recvCommandRest
    (heap : Nat → Nat → Option Bytes)
    (script : List Inbound) : Option (Int × List Bytes × List Inbound) :=
  let (rc, header, script) := recvNumber 42 false .marker [] script
  if rc ≠ kvOk then some (rc, [], script)
  else recvStringsRest heap (strtol header).toNat [] script

theorem recvStrings_eq
    (heap : Nat → Nat → Option Bytes)
    (count : Nat)
    (strings : List Bytes)
    (script : List Inbound) :
    recvStrings heap count strings script =
      (recvStringsRest heap count strings script).map fun result =>
        (result.1, result.2.1) := by
  induction count generalizing strings script with
  | zero => simp [recvStrings, recvStringsRest]
  | succ count inductionHypothesis =>
      rw [recvStrings, recvStringsRest]
      rcases recvNumber 36 true .marker [] script with ⟨rc, header, script⟩
      dsimp only
      by_cases failed : rc ≠ kvOk
      · rw [if_pos failed, if_pos failed, Option.map_some]
      rw [if_neg failed, if_neg failed]
      rcases recvContent (toInt32 (strtol header).toNat).toNat
        (toInt32 (strtol header).toNat).toNat [] script with
        ⟨rc, received, script⟩
      dsimp only
      by_cases failed : rc ≠ kvOk
      · rw [if_pos failed, if_pos failed, Option.map_some]
      rw [if_neg failed, if_neg failed, Option.bind_eq_bind,
        Option.bind_eq_bind, Option.map_bind]
      apply Option.bind_congr
      intro content _
      exact inductionHypothesis (strings ++ [content]) script

/-- `recvCommand` returns the code and the strings. -/
theorem recvCommand_eq
    (heap : Nat → Nat → Option Bytes)
    (script : List Inbound) :
    recvCommand heap script =
      (recvCommandRest heap script).map fun result =>
        (result.1, result.2.1) := by
  rw [recvCommand, recvCommandRest]
  rcases recvNumber 42 false .marker [] script with ⟨rc, header, script⟩
  dsimp only
  by_cases failed : rc ≠ kvOk
  · rw [if_pos failed, if_pos failed, Option.map_some]
  · rw [if_neg failed, if_neg failed]
    exact recvStrings_eq heap _ [] _

/-- One round of the loop over the strings. -/
theorem recvStringsRest_succ
    {heap : Nat → Nat → Option Bytes}
    {count : Nat}
    {strings strings' : List Bytes}
    {script rest : List Inbound}
    (accepted : recvStringsRest heap (count + 1) strings script =
      some (kvOk, strings', rest)) :
    ∃ header received content afterHeader afterContent,
      recvNumber 36 true .marker [] script = (kvOk, header, afterHeader) ∧
      recvContent (toInt32 (strtol header).toNat).toNat
          (toInt32 (strtol header).toNat).toNat [] afterHeader =
        (kvOk, received, afterContent) ∧
      contentString heap strings.length (strtol header).toNat received =
        some content ∧
      recvStringsRest heap count (strings ++ [content]) afterContent =
        some (kvOk, strings', rest) := by
  rw [recvStringsRest] at accepted
  rcases number : recvNumber 36 true .marker [] script with
    ⟨rc, header, afterHeader⟩
  rw [number] at accepted
  dsimp only at accepted
  by_cases failed : rc ≠ kvOk
  · rw [if_pos failed] at accepted
    exact absurd (Prod.mk.inj (Option.some.inj accepted)).1 failed
  rw [if_neg failed] at accepted
  rcases reception : recvContent (toInt32 (strtol header).toNat).toNat
    (toInt32 (strtol header).toNat).toNat [] afterHeader with
    ⟨rc', received, afterContent⟩
  rw [reception] at accepted
  dsimp only at accepted
  by_cases failed' : rc' ≠ kvOk
  · rw [if_pos failed'] at accepted
    exact absurd (Prod.mk.inj (Option.some.inj accepted)).1 failed'
  rw [if_neg failed', Option.bind_eq_bind] at accepted
  obtain ⟨content, whole, further⟩ := Option.bind_eq_some_iff.mp accepted
  obtain rfl : rc = kvOk := not_not.mp failed
  obtain rfl : rc' = kvOk := not_not.mp failed'
  exact ⟨header, received, content, afterHeader, afterContent, rfl,
    reception, whole, further⟩

/-! ## What is read -/

theorem isDigit_of_bounds
    {byte : UInt8}
    (bounds : ¬ (byte < 48 ∨ 57 < byte)) :
    isDigit byte = true := by
  simp only [not_or, UInt8.not_lt] at bounds
  simpa [isDigit] using bounds

theorem recvNumber_lineFeed_accepted
    {marker : UInt8}
    {patient : Bool}
    {bytes header' header : Bytes}
    {rest : List Inbound}
    (accepted : recvNumber marker patient .lineFeed header' (sent bytes) =
      (kvOk, header, rest)) :
    ∃ later, header = header' ∧ bytes = 10 :: later ∧ rest = sent later := by
  cases bytes with
  | nil =>
      rw [sent_nil, recvNumber] at accepted
      exact absurd (Prod.mk.inj accepted).1 (by decide)
  | cons byte bytes =>
      rw [sent_cons, recvNumber] at accepted
      split at accepted
      · rename_i isFeed
        obtain ⟨_, pair⟩ := Prod.mk.inj accepted
        obtain ⟨rfl, rfl⟩ := Prod.mk.inj pair
        exact ⟨bytes, rfl, by rw [isFeed], rfl⟩
      · exact absurd (Prod.mk.inj accepted).1 (by decide)

theorem recvNumber_digits_accepted
    {marker : UInt8}
    {patient : Bool}
    {bytes header' header : Bytes}
    {rest : List Inbound}
    (accepted : recvNumber marker patient .digits header' (sent bytes) =
      (kvOk, header, rest)) :
    ∃ number later, header = header' ++ number ∧
      (∀ byte ∈ number, isDigit byte = true) ∧
      bytes = number ++ (crlf ++ later) ∧ rest = sent later := by
  induction bytes generalizing header' with
  | nil =>
      rw [sent_nil, recvNumber] at accepted
      exact absurd (Prod.mk.inj accepted).1 (by decide)
  | cons byte bytes inductionHypothesis =>
      rw [sent_cons, recvNumber] at accepted
      split at accepted
      · rename_i isReturn
        obtain ⟨later, rfl, rfl, rfl⟩ := recvNumber_lineFeed_accepted accepted
        exact ⟨[], later, (List.append_nil _).symm, by simp,
          by rw [isReturn]; rfl, rfl⟩
      · split at accepted
        · exact absurd (Prod.mk.inj accepted).1 (by decide)
        · rename_i inside
          obtain ⟨number, later, rfl, allDigits, rfl, rfl⟩ :=
            inductionHypothesis accepted
          refine ⟨byte :: number, later, List.append_assoc _ _ _, ?_, rfl,
            rfl⟩
          rintro other (_ | ⟨_, member⟩)
          · exact isDigit_of_bounds inside
          · exact allDigits other member

/-- A stream on which a header loop succeeds: anything without the marker, the
marker, digits and the end of the line. -/
theorem recvNumber_accepted
    {marker : UInt8}
    {patient : Bool}
    {bytes header : Bytes}
    {rest : List Inbound}
    (accepted : recvNumber marker patient .marker [] (sent bytes) =
      (kvOk, header, rest)) :
    ∃ before later, marker ∉ before ∧
      (∀ byte ∈ header, isDigit byte = true) ∧
      bytes = before ++ marker :: (header ++ (crlf ++ later)) ∧
      rest = sent later := by
  induction bytes with
  | nil =>
      rw [sent_nil, recvNumber] at accepted
      exact absurd (Prod.mk.inj accepted).1 (by decide)
  | cons byte bytes inductionHypothesis =>
      rw [sent_cons, recvNumber] at accepted
      by_cases isMarker : byte = marker
      · rw [if_pos isMarker] at accepted
        obtain ⟨number, later, rfl, allDigits, rfl, rfl⟩ :=
          recvNumber_digits_accepted accepted
        exact ⟨[], later, by simp, allDigits, by rw [isMarker]; rfl, rfl⟩
      · rw [if_neg isMarker] at accepted
        obtain ⟨before, later, absent, allDigits, rfl, rfl⟩ :=
          inductionHypothesis accepted
        refine ⟨byte :: before, later, ?_, allDigits, rfl, rfl⟩
        simp only [List.mem_cons, not_or]
        exact ⟨Ne.symm isMarker, absent⟩

/-- A stream on which the content loop succeeds. -/
theorem recvContent_accepted
    {asked missing : Nat}
    {content bytes received : Bytes}
    {rest : List Inbound}
    (accepted : recvContent asked missing content (sent bytes) =
      (kvOk, received, rest)) :
    ∃ raw later, raw.length = missing ∧ received = content ++ raw ∧
      bytes = raw ++ later ∧ rest = sent later := by
  induction bytes generalizing missing content with
  | nil =>
      cases missing with
      | zero =>
          rw [recvContent] at accepted
          obtain ⟨_, pair⟩ := Prod.mk.inj accepted
          obtain ⟨rfl, rfl⟩ := Prod.mk.inj pair
          exact ⟨[], [], rfl, (List.append_nil _).symm, rfl, rfl⟩
      | succ missing =>
          rw [sent_nil, recvContent] at accepted
          exact absurd (Prod.mk.inj accepted).1 (by decide)
  | cons byte bytes inductionHypothesis =>
      cases missing with
      | zero =>
          rw [recvContent] at accepted
          obtain ⟨_, pair⟩ := Prod.mk.inj accepted
          obtain ⟨rfl, rfl⟩ := Prod.mk.inj pair
          exact ⟨[], byte :: bytes, rfl, (List.append_nil _).symm, rfl, rfl⟩
      | succ missing =>
          rw [sent_cons, recvContent] at accepted
          obtain ⟨raw, later, rfl, rfl, rfl, rfl⟩ :=
            inductionHypothesis accepted
          exact ⟨byte :: raw, later, rfl, List.append_assoc _ _ _, rfl, rfl⟩

/-- The number that the loops take from a line. -/
theorem strtol_header
    {header : Bytes}
    (allDigits : ∀ byte ∈ header, isDigit byte = true) :
    (strtol header).toNat = min longMax.toNat (digitsFrom 0 header) := by
  rw [strtol_of_digits allDigits]
  simp only [longMax]
  omega

/-- A content of fewer than `2 ^ 31` bytes is received whole. -/
theorem asked_of_lt
    {length : Nat}
    (small : length < 2 ^ 31) :
    (toInt32 length).toNat = length := by
  rw [toInt32_of_lt small, Int.toNat_natCast]

/-- What the loop adds to the strings that it has. -/
theorem recvStringsRest_extends
    {heap : Nat → Nat → Option Bytes}
    {count : Nat}
    {strings strings' : List Bytes}
    {script rest : List Inbound}
    (accepted : recvStringsRest heap count strings script =
      some (kvOk, strings', rest)) :
    ∃ new, strings' = strings ++ new ∧ new.length = count := by
  induction count generalizing strings script with
  | zero =>
      rw [recvStringsRest] at accepted
      obtain ⟨_, pair⟩ := Prod.mk.inj (Option.some.inj accepted)
      obtain ⟨rfl, rfl⟩ := Prod.mk.inj pair
      exact ⟨[], (List.append_nil _).symm, rfl⟩
  | succ count inductionHypothesis =>
      obtain ⟨_, _, content, _, _, _, _, _, further⟩ :=
        recvStringsRest_succ accepted
      obtain ⟨new, rfl, rfl⟩ := inductionHypothesis further
      exact ⟨content :: new, List.append_assoc _ _ _, rfl⟩

/-! ## Streams that are read as they are written -/

/-- The loop over `count` strings skips nothing but `gap`, and then nothing but
line ends between the elements; every element has a number of its own, below
`2 ^ 31`, and the last one is ended. -/
def Straight (gap : Bytes) : Nat → Bytes → Prop
  | 0, bytes => gap <+: bytes
  | count + 1, bytes =>
      let line := (bytes.dropWhile (· ≠ 36)).drop 1
      let digits := line.takeWhile isDigit
      bytes.takeWhile (· ≠ 36) = gap ∧ digits ≠ [] ∧
        digitsFrom 0 digits < 2 ^ 31 ∧
        Straight crlf count
          (line.drop (digits.length + 2 + digitsFrom 0 digits))

/-- The array begins at once and has a count that fits into a `long`, and its
elements are `Straight`. -/
def StraightArray (bytes : Bytes) : Prop :=
  let digits := (bytes.drop 1).takeWhile isDigit
  bytes.head? = some 42 ∧ digits ≠ [] ∧ digitsFrom 0 digits ≤ longMax ∧
    Straight [] (digitsFrom 0 digits) (bytes.drop (1 + digits.length + 2))

theorem takeWhile_marker
    {before : Bytes}
    (absent : (36 : UInt8) ∉ before)
    (later : Bytes) :
    (before ++ 36 :: later).takeWhile (· ≠ 36) = before := by
  rw [List.takeWhile_append_of_pos, List.takeWhile_cons_of_neg (by simp),
    List.append_nil]
  intro byte member
  exact decide_eq_true (ne_of_mem_of_not_mem member absent)

theorem dropWhile_marker
    {before : Bytes}
    (absent : (36 : UInt8) ∉ before)
    (later : Bytes) :
    (before ++ 36 :: later).dropWhile (· ≠ 36) = 36 :: later := by
  rw [List.dropWhile_append_of_pos, List.dropWhile_cons_of_neg (by simp)]
  intro byte member
  exact decide_eq_true (ne_of_mem_of_not_mem member absent)

theorem takeWhile_digits
    {digits : Bytes}
    (allDigits : ∀ byte ∈ digits, isDigit byte = true)
    (later : Bytes) :
    (digits ++ (crlf ++ later)).takeWhile isDigit = digits := by
  rw [List.takeWhile_append_of_pos allDigits, crlf, List.cons_append,
    List.takeWhile_cons_of_neg (by decide), List.append_nil]

theorem drop_line
    (digits content later : Bytes) :
    (digits ++ (crlf ++ (content ++ later))).drop
        (digits.length + 2 + content.length) = later := by
  have length : (digits ++ (crlf ++ content)).length =
      digits.length + 2 + content.length := by
    simp only [List.length_append, crlf, List.length_cons, List.length_nil]
    omega
  have split : digits ++ (crlf ++ (content ++ later)) =
      (digits ++ (crlf ++ content)) ++ later := by
    simp only [List.append_assoc]
  rw [split, ← length, List.drop_left]

/-- `Straight` at an element. -/
theorem straight_succ
    {gap digits before content later : Bytes}
    {count : Nat}
    (absent : (36 : UInt8) ∉ before)
    (allDigits : ∀ byte ∈ digits, isDigit byte = true)
    (length : digitsFrom 0 digits = content.length) :
    Straight gap (count + 1)
        (before ++ 36 :: (digits ++ (crlf ++ (content ++ later)))) ↔
      before = gap ∧ digits ≠ [] ∧ content.length < 2 ^ 31 ∧
        Straight crlf count later := by
  rw [Straight, takeWhile_marker absent, dropWhile_marker absent]
  simp only [List.drop_succ_cons, List.drop_zero,
    takeWhile_digits allDigits, length, drop_line]

/-- What ends the last of these strings, or `gap` if there are none. -/
def closing (gap : Bytes) (strings : List Bytes) : Bytes :=
  if strings = [] then gap else crlf

theorem closing_nil (gap : Bytes) : closing gap [] = gap :=
  if_pos rfl

theorem closing_cons
    (gap string : Bytes)
    (strings : List Bytes) :
    closing gap (string :: strings) = crlf :=
  if_neg (List.cons_ne_nil string strings)

theorem closing_crlf (strings : List Bytes) : closing crlf strings = crlf :=
  ite_self crlf

/-- What a `Straight` stream is read as. -/
theorem bulks_of_straight
    {heap : Nat → Nat → Option Bytes}
    {gap bytes : Bytes}
    {count : Nat}
    {strings strings' : List Bytes}
    {rest : List Inbound}
    (straight : Straight gap count bytes)
    (accepted : recvStringsRest heap count strings (sent bytes) =
      some (kvOk, strings', rest)) :
    ∃ read new later, strings' = strings ++ new ∧ new.length = count ∧
      (∃ bulks, IsBulks bulks new ∧ gap ++ bulks = read ++ closing gap new) ∧
      bytes = read ++ (closing gap new ++ later) ∧
      rest = sent (closing gap new ++ later) := by
  induction count generalizing gap bytes strings with
  | zero =>
      rw [recvStringsRest] at accepted
      obtain ⟨_, pair⟩ := Prod.mk.inj (Option.some.inj accepted)
      obtain ⟨rfl, rfl⟩ := Prod.mk.inj pair
      obtain ⟨later, rfl⟩ := straight
      exact ⟨[], [], later, (List.append_nil _).symm, rfl,
        ⟨[], .nil, by rw [closing_nil, List.append_nil, List.nil_append]⟩,
        rfl, rfl⟩
  | succ count inductionHypothesis =>
      obtain ⟨header, received, content, afterHeader, afterContent, number,
        reception, whole, further⟩ := recvStringsRest_succ accepted
      obtain ⟨before, line, absent, allDigits, rfl, rfl⟩ :=
        recvNumber_accepted number
      obtain ⟨_, later, length, rfl, rfl, rfl⟩ :=
        recvContent_accepted reception
      have digits : digitsFrom 0 header < 2 ^ 31 := by
        rw [Straight, takeWhile_marker absent, dropWhile_marker absent]
          at straight
        simp only [List.drop_succ_cons, List.drop_zero,
          takeWhile_digits allDigits] at straight
        exact straight.2.2.1
      have value : (strtol header).toNat = digitsFrom 0 header := by
        rw [strtol_header allDigits]
        simp only [longMax]
        omega
      rw [value, asked_of_lt digits] at length
      rw [value, contentString, if_pos digits] at whole
      obtain rfl : received = content := Option.some.inj whole
      rw [straight_succ absent allDigits length.symm] at straight
      obtain ⟨rfl, nonempty, _, straight⟩ := straight
      obtain ⟨read, new, later, rfl, rfl, ⟨bulks, isBulks, ends⟩, rfl, rfl⟩ :=
        inductionHypothesis straight further
      rw [closing_crlf] at ends ⊢
      refine ⟨before ++ 36 :: (header ++ (crlf ++ (received ++ read))),
        received :: new, later, List.append_assoc _ _ _, rfl,
        ⟨36 :: (header ++ (crlf ++ (received ++ (crlf ++ bulks)))),
          .cons ⟨nonempty, allDigits, length.symm⟩ isBulks, ?_⟩, ?_, ?_⟩
      · rw [ends, closing_cons]
        simp only [List.append_assoc, List.cons_append]
      · rw [closing_cons]
        simp only [List.append_assoc, List.cons_append]
      · rw [closing_cons]

/-- Where no content depends on the heap, bulk strings are `Straight`. -/
theorem straight_of_bulks
    {gap bulks later : Bytes}
    {new strings strings' : List Bytes}
    {rest : List Inbound}
    (isBulks : IsBulks bulks new)
    (absent : (36 : UInt8) ∉ gap)
    (accepted : recvStringsRest (fun _ _ => none) new.length strings
      (sent (gap ++ (bulks ++ later))) = some (kvOk, strings', rest)) :
    Straight gap new.length (gap ++ (bulks ++ later)) := by
  induction isBulks generalizing gap strings with
  | nil => exact List.prefix_append gap _
  | @cons digits content bulks others number isBulks inductionHypothesis =>
      obtain ⟨header, received, string, afterHeader, afterContent, heading,
        reception, whole, further⟩ := recvStringsRest_succ accepted
      have line : recvNumber 36 true .marker []
          (sent (gap ++ (36 :: (digits ++ (crlf ++ (content ++ (crlf ++ bulks))))
            ++ later))) =
          (kvOk, digits, sent (content ++ (crlf ++ (bulks ++ later)))) := by
        have collected := recvNumber_digits 36 true [] number.digits
          (sent (crlf ++ (content ++ (crlf ++ (bulks ++ later)))))
        rw [sent_append, recvNumber_skip true [] absent, List.cons_append,
          sent_cons, recvNumber, if_pos rfl]
        simp only [List.append_assoc]
        rw [sent_append, collected]
        rfl
      rw [heading] at line
      obtain ⟨_, pair⟩ := Prod.mk.inj line
      obtain ⟨rfl, rfl⟩ := Prod.mk.inj pair
      have value : (strtol header).toNat = content.length := by
        by_contra differs
        rw [strtol_header number.digits, number.value] at differs
        have large : ¬ min longMax.toNat content.length < 2 ^ 31 := by
          simp only [longMax] at differs ⊢
          omega
        rw [strtol_header number.digits, number.value, contentString,
          if_neg large] at whole
        cases whole
      rw [value] at whole reception
      have small : content.length < 2 ^ 31 := by
        by_contra large
        rw [contentString, if_neg large] at whole
        cases whole
      rw [asked_of_lt small, sent_append, recvContent_sent] at reception
      obtain ⟨_, pair⟩ := Prod.mk.inj reception
      obtain ⟨rfl, rfl⟩ := Prod.mk.inj pair
      have straight := inductionHypothesis (by decide) further
      have split : gap ++ (36 :: (header ++ (crlf ++ (content ++ (crlf ++ bulks))))
            ++ later) =
          gap ++ 36 :: (header ++ (crlf ++ (content ++
            (crlf ++ (bulks ++ later))))) := by
        simp only [List.append_assoc, List.cons_append]
      rw [split, List.length_cons,
        straight_succ absent number.digits number.value]
      exact ⟨rfl, number.nonempty, small, straight⟩

/-! ## What depends on the heap -/

/-- New buffers have the length that was asked for. -/
def Sane (heap : Nat → Nat → Option Bytes) : Prop :=
  ∀ index length buffer, heap index length = some buffer →
    buffer.length = length

/-- A heap in which every byte differs. -/
def otherHeap (heap : Nat → Nat → Option Bytes) : Nat → Nat → Option Bytes :=
  fun index length => (heap index length).map (List.map (· + 1))

theorem Sane.other
    {heap : Nat → Nat → Option Bytes}
    (sane : Sane heap) :
    Sane (otherHeap heap) := by
  intro index length buffer allocated
  obtain ⟨original, first, rfl⟩ := Option.map_eq_some_iff.mp allocated
  rw [List.length_map]
  exact sane index length original first

theorem map_succ_ne
    {buffer : Bytes}
    (nonempty : buffer ≠ []) :
    buffer ≠ buffer.map (· + 1) := by
  cases buffer with
  | nil => exact absurd rfl nonempty
  | cons byte buffer =>
      intro same
      have head : byte = byte + 1 := (List.cons.inj same).1
      rw [left_eq_add] at head
      exact absurd head (by decide)

theorem toInt32_toNat_lt (value : Int) : (toInt32 value).toNat < 2 ^ 31 := by
  have bound := Int.bmod_lt (x := value) (m := 2 ^ 32) (by decide)
  unfold toInt32
  omega

/-- The round of the loop that receives these. -/
theorem recvStringsRest_of_succ
    {heap : Nat → Nat → Option Bytes}
    {strings : List Bytes}
    {header received content : Bytes}
    {script afterHeader afterContent : List Inbound}
    (number : recvNumber 36 true .marker [] script =
      (kvOk, header, afterHeader))
    (reception : recvContent (toInt32 (strtol header).toNat).toNat
        (toInt32 (strtol header).toNat).toNat [] afterHeader =
      (kvOk, received, afterContent))
    (whole : contentString heap strings.length (strtol header).toNat
      received = some content)
    (count : Nat) :
    recvStringsRest heap (count + 1) strings script =
      recvStringsRest heap count (strings ++ [content]) afterContent := by
  rw [recvStringsRest, number]
  dsimp only
  rw [if_neg (not_not.mpr rfl), reception]
  dsimp only
  rw [if_neg (not_not.mpr rfl), whole, Option.bind_eq_bind, Option.bind_some]

/-- A string depends on the heap as soon as the heap is asked for it. -/
theorem contentString_other
    {heap : Nat → Nat → Option Bytes}
    {index contentLen : Nat}
    {received content : Bytes}
    (sane : Sane heap)
    (length : received.length = (toInt32 contentLen).toNat)
    (whole : contentString heap index contentLen received = some content) :
    ∃ content', contentString (otherHeap heap) index contentLen received =
        some content' ∧
      (content = content' →
        contentString (fun _ _ => none) index contentLen received =
          some content) := by
  by_cases small : contentLen < 2 ^ 31
  · rw [contentString, if_pos small] at whole ⊢
    exact ⟨content, whole, fun _ => by rw [contentString, if_pos small, whole]⟩
  · rw [contentString, if_neg small] at whole ⊢
    obtain ⟨buffer, allocated, rfl⟩ := Option.map_eq_some_iff.mp whole
    rw [otherHeap, allocated]
    refine ⟨received ++ (buffer.map (· + 1)).drop received.length, rfl, ?_⟩
    intro same
    have drops := List.append_cancel_left same
    rw [← List.map_drop] at drops
    refine absurd drops (map_succ_ne ?_)
    rw [ne_eq, List.drop_eq_nil_iff, sane index contentLen buffer allocated,
      length]
    have bound := toInt32_toNat_lt contentLen
    omega

/-- With another heap the same bytes are accepted, and the strings are the same
only if none of them depends on the heap. -/
theorem recvStringsRest_other
    {heap : Nat → Nat → Option Bytes}
    {count : Nat}
    {strings strings' other : List Bytes}
    {bytes : Bytes}
    {rest : List Inbound}
    (sane : Sane heap)
    (accepted : recvStringsRest heap count strings (sent bytes) =
      some (kvOk, strings', rest))
    (alike : strings.length = other.length) :
    ∃ new new', strings' = strings ++ new ∧ new.length = new'.length ∧
      recvStringsRest (otherHeap heap) count other (sent bytes) =
        some (kvOk, other ++ new', rest) ∧
      (new = new' →
        recvStringsRest (fun _ _ => none) count strings (sent bytes) =
          some (kvOk, strings', rest)) := by
  induction count generalizing strings other bytes with
  | zero =>
      rw [recvStringsRest] at accepted ⊢
      obtain ⟨_, pair⟩ := Prod.mk.inj (Option.some.inj accepted)
      obtain ⟨rfl, rfl⟩ := Prod.mk.inj pair
      refine ⟨[], [], (List.append_nil _).symm, rfl, ?_, ?_⟩
      · rw [List.append_nil]
      · intro _
        rw [recvStringsRest]
  | succ count inductionHypothesis =>
      obtain ⟨header, received, content, afterHeader, afterContent, number,
        reception, whole, further⟩ := recvStringsRest_succ accepted
      obtain ⟨before, line, absent, allDigits, rfl, rfl⟩ :=
        recvNumber_accepted number
      obtain ⟨_, later, length, rfl, rfl, rfl⟩ :=
        recvContent_accepted reception
      obtain ⟨content', whole', depends⟩ :=
        contentString_other sane length whole
      rw [alike] at whole'
      have longer : ∀ content content' : Bytes,
          (strings ++ [content]).length = (other ++ [content']).length := by
        intro content content'
        rw [List.length_append, List.length_append, alike]
        rfl
      obtain ⟨new, new', rfl, lengths, further', independent⟩ :=
        inductionHypothesis further (longer content content')
      refine ⟨content :: new, content' :: new', List.append_assoc _ _ _, ?_,
        ?_, ?_⟩
      · rw [List.length_cons, List.length_cons, lengths]
      · rw [recvStringsRest_of_succ number reception whole', further',
          List.append_assoc]
        rfl
      · intro same
        obtain ⟨sameContent, sameNew⟩ := List.cons.inj same
        rw [recvStringsRest_of_succ number reception (depends sameContent)]
        exact independent sameNew

/-! ## The grammar and `recvCommand` -/

/-- The bytes that were read and the line end behind them are the array of
these strings. -/
def Denotes
    (bytes : Bytes)
    (strings : List Bytes)
    (rest : List Inbound) : Prop :=
  ∃ read later, IsArray (read ++ closing [] strings) strings ∧
    bytes = read ++ (closing [] strings ++ later) ∧
    rest = sent (closing [] strings ++ later)

theorem head_of_not_mem
    {before : Bytes}
    {marker : UInt8}
    {later : Bytes}
    (absent : marker ∉ before)
    (head : (before ++ marker :: later).head? = some marker) :
    before = [] := by
  cases before with
  | nil => rfl
  | cons byte before =>
      obtain rfl : byte = marker := Option.some.inj head
      exact absurd List.mem_cons_self absent

theorem recvCommandRest_accepted
    {heap : Nat → Nat → Option Bytes}
    {bytes : Bytes}
    {strings : List Bytes}
    {rest : List Inbound}
    (accepted : recvCommandRest heap (sent bytes) =
      some (kvOk, strings, rest)) :
    ∃ before header later, (42 : UInt8) ∉ before ∧
      (∀ byte ∈ header, isDigit byte = true) ∧
      bytes = before ++ 42 :: (header ++ (crlf ++ later)) ∧
      recvStringsRest heap (strtol header).toNat [] (sent later) =
        some (kvOk, strings, rest) ∧
      ∀ heap, recvCommandRest heap (sent bytes) =
        recvStringsRest heap (strtol header).toNat [] (sent later) := by
  rcases number : recvNumber 42 false .marker [] (sent bytes) with
    ⟨rc, header, afterHeader⟩
  have reduces : ∀ heap, rc = kvOk → recvCommandRest heap (sent bytes) =
      recvStringsRest heap (strtol header).toNat [] afterHeader := by
    intro heap succeeded
    rw [recvCommandRest, number]
    exact if_neg (not_not.mpr succeeded)
  by_cases failed : rc ≠ kvOk
  · rw [recvCommandRest, number] at accepted
    dsimp only at accepted
    rw [if_pos failed] at accepted
    exact absurd (Prod.mk.inj (Option.some.inj accepted)).1 failed
  · obtain rfl : rc = kvOk := not_not.mp failed
    obtain ⟨before, later, absent, allDigits, rfl, rfl⟩ :=
      recvNumber_accepted number
    rw [reduces heap rfl] at accepted
    exact ⟨before, header, later, absent, allDigits, rfl, accepted,
      fun heap => reduces heap rfl⟩

/-- A `StraightArray` is read as the grammar says. -/
theorem denotes_of_straight
    {heap : Nat → Nat → Option Bytes}
    {bytes : Bytes}
    {strings : List Bytes}
    {rest : List Inbound}
    (straight : StraightArray bytes)
    (accepted : recvCommandRest heap (sent bytes) =
      some (kvOk, strings, rest)) :
    Denotes bytes strings rest := by
  obtain ⟨before, header, later, absent, allDigits, rfl, further, _⟩ :=
    recvCommandRest_accepted accepted
  obtain ⟨head, nonempty, fits, straight⟩ := straight
  obtain rfl := head_of_not_mem absent head
  rw [List.nil_append, List.drop_succ_cons, List.drop_zero,
    takeWhile_digits allDigits] at nonempty fits straight
  have count : (strtol header).toNat = digitsFrom 0 header := by
    rw [strtol_header allDigits]
    omega
  have dropped : (42 :: (header ++ (crlf ++ later))).drop
      (1 + header.length + 2) = later := by
    have line := drop_line header [] later
    rw [Nat.add_assoc, Nat.add_comm 1, List.drop_succ_cons]
    exact line
  rw [dropped] at straight
  rw [count] at further
  obtain ⟨read, new, later, rfl, length, ⟨bulks, isBulks, ends⟩, rfl, rfl⟩ :=
    bulks_of_straight straight further
  rw [List.nil_append] at ends ⊢
  refine ⟨42 :: (header ++ (crlf ++ read)), later,
    ⟨header, bulks, ⟨nonempty, allDigits, length.symm⟩, isBulks, ?_⟩, ?_, rfl⟩
  · rw [ends]
    simp only [List.append_assoc, List.cons_append]
  · simp only [List.append_assoc, List.cons_append]

/-- Two vectors with the same bytes behind them are the same. -/
theorem Denotes.unique
    {bytes : Bytes}
    {strings strings' : List Bytes}
    {rest : List Inbound}
    (first : Denotes bytes strings rest)
    (second : Denotes bytes strings' rest)
    (count : strings.length = strings'.length) :
    strings = strings' := by
  have closings : closing [] strings = closing [] strings' := by
    unfold closing
    simp only [← List.length_eq_zero_iff, count]
  obtain ⟨read, later, isArray, rfl, rfl⟩ := first
  obtain ⟨read', later', isArray', split, alike⟩ := second
  have injective : Function.Injective Inbound.byte := by
    intro byte byte' same
    exact Inbound.byte.inj same
  have tail := List.map_injective_iff.mpr injective alike
  rw [closings] at isArray split tail
  rw [tail] at split
  rw [List.append_cancel_right split] at isArray
  exact isArray.unique isArray'

/-- If the strings are those of the array on every heap, the stream is a
`StraightArray`. -/
theorem straight_of_denotes
    {heap : Nat → Nat → Option Bytes}
    {bytes : Bytes}
    {strings : List Bytes}
    {rest : List Inbound}
    (sane : Sane heap)
    (accepted : recvCommandRest heap (sent bytes) =
      some (kvOk, strings, rest))
    (denotes : ∀ heap, Sane heap → ∀ strings rest,
      recvCommandRest heap (sent bytes) = some (kvOk, strings, rest) →
        Denotes bytes strings rest) :
    StraightArray bytes := by
  have first := denotes heap sane strings rest accepted
  obtain ⟨before, header, script, absent, allDigits, split, loop, reduces⟩ :=
    recvCommandRest_accepted accepted
  have other : ([] : List Bytes).length = ([] : List Bytes).length := rfl
  obtain ⟨new, new', same, lengths, loop', independent⟩ :=
    recvStringsRest_other sane loop other
  obtain rfl : strings = new := same
  have second := denotes (otherHeap heap) sane.other new' rest
    ((reduces _).trans loop')
  have none := independent (first.unique second lengths)
  obtain ⟨extended, same, count⟩ := recvStringsRest_extends loop
  rw [← show strings = extended from same] at count
  obtain ⟨read, later, ⟨digits, bulks, number, isBulks, array⟩, whole, _⟩ :=
    first
  have text : bytes = 42 :: (digits ++ (crlf ++ (bulks ++ later))) := by
    rw [whole, ← List.append_assoc, array]
    simp only [List.append_assoc, List.cons_append]
  have nothing : before = [] := by
    apply head_of_not_mem absent
    rw [← split, text]
    rfl
  rw [nothing, text, List.nil_append] at split
  obtain ⟨rfl, rfl⟩ :=
    digits_cancel number.digits allDigits (List.cons.inj split).2
  rw [strtol_header allDigits, number.value] at count
  have fits : (strings.length : Int) ≤ longMax := by
    simp only [longMax] at count ⊢
    omega
  rw [strtol_header allDigits, number.value, ← count] at none
  have straight := straight_of_bulks isBulks List.not_mem_nil none
  have dropped : (42 :: (digits ++ (crlf ++ (bulks ++ later)))).drop
      (1 + digits.length + 2) = bulks ++ later := by
    have line := drop_line digits [] (bulks ++ later)
    rw [Nat.add_assoc, Nat.add_comm 1, List.drop_succ_cons]
    exact line
  rw [text, StraightArray]
  simp only [List.drop_succ_cons, List.drop_zero, takeWhile_digits allDigits,
    number.value, dropped]
  exact ⟨rfl, number.nonempty, fits, straight⟩

/-- `recvCommand` accepts more than the grammar: the strings that it returns
are those of the array that it has read exactly if the stream is a
`StraightArray`. -/
theorem recvCommand_grammar
    {bytes : Bytes}
    (accepted : ∃ heap, Sane heap ∧ ∃ strings,
      recvCommand heap (sent bytes) = some (kvOk, strings)) :
    (∀ heap, Sane heap → ∀ strings rest,
      recvCommandRest heap (sent bytes) = some (kvOk, strings, rest) →
        Denotes bytes strings rest) ↔ StraightArray bytes := by
  obtain ⟨heap, sane, strings, accepted⟩ := accepted
  constructor
  · intro denotes
    rw [recvCommand_eq] at accepted
    obtain ⟨⟨rc, _, rest⟩, complete, pair⟩ :=
      Option.map_eq_some_iff.mp accepted
    obtain ⟨rfl, rfl⟩ := Prod.mk.inj pair
    exact straight_of_denotes sane complete denotes
  · intro straight heap _ strings rest accepted
    exact denotes_of_straight straight accepted

/-- The command `SET`, with one more byte behind it. -/
theorem recvCommand_grammar_set :
    Denotes (str "*1\r\n$3\r\nSET\r\nx") [str "SET"]
      (sent (str "\r\nx")) := by
  have sane : Sane fun _ _ => none := by
    intro index length buffer allocated
    cases allocated
  have straight : StraightArray (str "*1\r\n$3\r\nSET\r\nx") := by
    refine ⟨rfl, by decide, by decide, ?_⟩
    refine ⟨by decide, by decide, by decide, ?_⟩
    exact ⟨str "x", by decide⟩
  have accepted : recvCommandRest (fun _ _ => none)
      (sent (str "*1\r\n$3\r\nSET\r\nx")) =
        some (kvOk, [str "SET"], sent (str "\r\nx")) := by
    decide
  exact (recvCommand_grammar ⟨_, sane, [str "SET"], by decide⟩).mpr straight _
    sane _ _ accepted

/-- An element that is longer than its declared length is not rejected, and
the command has a shortened key. -/
theorem recvCommand_shortens :
    ¬ ∀ bytes heap, Sane heap → ∀ strings rest,
      recvCommandRest heap (sent bytes) = some (kvOk, strings, rest) →
        Denotes bytes strings rest := by
  intro denotes
  have sane : Sane fun _ _ => none := by
    intro index length buffer allocated
    cases allocated
  have accepted : recvCommandRest (fun _ _ => none)
      (sent (str "*2\r\n$3\r\nDEL\r\n$1\r\nab\r\n")) =
        some (kvOk, [str "DEL", str "a"], sent (str "b\r\n")) := by
    decide
  obtain ⟨read, later, _, _, rest⟩ := denotes _ _ sane _ _ accepted
  cases rest

end Network
end Lab3
end CloudComputing
