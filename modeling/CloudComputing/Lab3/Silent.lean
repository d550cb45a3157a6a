import CloudComputing.Lab3.RecvCommand

/-!
# Clients that fall silent

`recvCommand` event by event.  Its three loops treat a timeout differently: the
one for the number of strings gives up, the one for the header of a string and
the one for its content try again.  So a client that stays connected and sends
no more holds the thread of `Working` for ever from the end of the first line
to the end of the last string.
-/

namespace CloudComputing
namespace Lab3

open Decimal CloudComputing.Lab3.Parser Network

/-- What a byte is for a header loop. -/
inductive HeaderByte
  | more (step : HeaderStep) (header : Bytes)
  | complete (header : Bytes)
  | bad

/-- One round of a header loop in which `recvNF` has received a byte. -/
def headerByte (marker : UInt8) (header : Bytes) (value : UInt8) :
    HeaderStep → HeaderByte
  | .marker => .more (if value = marker then .digits else .marker) header
  | .digits =>
      -- '\r'
      if value = 13 then .more .lineFeed header
      else if value < 48 ∨ 57 < value then .bad
      else .more .digits (header ++ [value])
  | .lineFeed =>
      -- '\n'
      if value = 10 then .complete header else .bad

/-- Where `recvCommand` is: in the loop for the number of strings, in the loop
for the header of a string with so many strings to come behind it, in the loop
for its content, at the end, and behind an exception of `new`. -/
inductive Reception
  | count (step : HeaderStep) (header : Bytes)
  | length
      (step : HeaderStep)
      (header : Bytes)
      (left : Nat)
      (strings : List Bytes)
  | content
      (contentLen : Nat)
      (received : Bytes)
      (left : Nat)
      (strings : List Bytes)
  | returned (rc : Int) (strings : List Bytes)
  | thrown

namespace Reception

variable (heap : Nat → Nat → Option Bytes)

/-- The loop over the strings, with so many to go. -/
def nextString (strings : List Bytes) : Nat → Reception
  | 0 => .returned kvOk strings
  | left + 1 => .length .marker [] left strings

/-- `str.push_back(content)` -/
def pushString
    (contentLen : Nat)
    (received : Bytes)
    (left : Nat)
    (strings : List Bytes) : Reception :=
  match contentString heap strings.length contentLen received with
  | some text => nextString (strings ++ [text]) left
  | none => .thrown

/-- `new char[contentLen]`, and a call of `recv` for no bytes, which returns at
once. -/
def beginContent
    (contentLen left : Nat)
    (strings : List Bytes) : Reception :=
  if 2 ^ 31 ≤ contentLen ∧ heap strings.length contentLen = none then .thrown
  else if toInt32 contentLen = 0 then
    pushString heap contentLen [] left strings
  else .content contentLen [] left strings

/-- A byte in the loop for the header of a string. -/
def lengthByte
    (value : UInt8)
    (step : HeaderStep)
    (header : Bytes)
    (left : Nat)
    (strings : List Bytes) : Reception :=
  match headerByte 36 header value step with
  | .more step header => .length step header left strings
  | .complete header => beginContent heap (strtol header).toNat left strings
  | .bad => .returned kvBadCommad strings

/-- `recvCommand` with the next byte or error.  In a call of `recv` that waits
for the rest of a content a timeout changes nothing: the call is repeated, or
it goes on waiting.  A call for a negative number of bytes returns as soon as
there is something to read, and reads nothing. -/
def step : Reception → Inbound → Reception
  | .count step header, .byte value =>
      match headerByte 42 header value step with
      | .more step header => .count step header
      | .complete header => nextString [] (strtol header).toNat
      | .bad => .returned kvBadCommad []
  | .count _ _, .fault error => .returned error.code []
  | .length step header left strings, .byte value =>
      lengthByte heap value step header left strings
  | .length step header left strings, .fault error =>
      if error = .networkClose then .returned kvNetworkClose strings
      else .length step header left strings
  | .content contentLen received left strings, .byte value =>
      if toInt32 contentLen < 0 then
        match pushString heap contentLen [] left strings with
        | .length step header left strings =>
            lengthByte heap value step header left strings
        | other => other
      else if received.length + 1 = (toInt32 contentLen).toNat then
        pushString heap contentLen (received ++ [value]) left strings
      else .content contentLen (received ++ [value]) left strings
  | .content contentLen received left strings, .fault .timeout =>
      .content contentLen received left strings
  | .content contentLen _ left strings, .fault .network =>
      .content contentLen [] left strings
  | .content contentLen _ left strings, .fault .networkClose =>
      if toInt32 contentLen < 0 then
        match pushString heap contentLen [] left strings with
        | .length _ _ _ strings => .returned kvNetworkClose strings
        | other => other
      else .returned kvNetworkClose strings
  | .returned rc strings, _ => .returned rc strings
  | .thrown, _ => .thrown

/-- `recvCommand` after so many of the events. -/
def after (script : Nat → Inbound) : Nat → Reception
  | 0 => .count .marker []
  | events + 1 => step heap (after script events) (script events)

/-- `recvCommand` returns. -/
def Returns (script : Nat → Inbound) : Prop :=
  ∃ events rc strings, after heap script events = .returned rc strings

end Reception

/-- These bytes, and then timeouts for ever. -/
def silentAfter (bytes : Bytes) (event : Nat) : Inbound :=
  match bytes[event]? with
  | some value => .byte value
  | none => .fault .timeout

/-! ## What a client may have sent -/

/-- The text ends with a header, and its number has these digits. -/
def Header (marker : UInt8) (digits text : Bytes) : Prop :=
  ∃ before, marker ∉ before ∧ (∀ digit ∈ digits, isDigit digit = true) ∧
    text = before ++ marker :: (digits ++ [13, 10])

/-- The text breaks off in front of the end of a header. -/
def PartOfHeader (marker : UInt8) (text : Bytes) : Prop :=
  marker ∉ text ∨ ∃ before digits tail : Bytes, marker ∉ before ∧
    (∀ digit ∈ digits, isDigit digit = true) ∧ (tail = [] ∨ tail = [13]) ∧
    text = before ++ marker :: (digits ++ tail)

/-- `new` fails. -/
def NoMemory
    (heap : Nat → Nat → Option Bytes)
    (index contentLen : Nat) : Prop :=
  2 ^ 31 ≤ contentLen ∧ heap index contentLen = none

/-- Behind the header of a string, fewer bytes than `recv` waits for. -/
def Missing (contentLen : Nat) (rest : Bytes) : Prop :=
  rest.length < (toInt32 contentLen).toNat ∨
    toInt32 contentLen < 0 ∧ rest = []

/-- So many strings from this one on, and the bytes break off in front of the
end of the last one, or `new` fails. -/
inductive Stalled (heap : Nat → Nat → Option Bytes) : Nat → Nat → Bytes → Prop
  | header
      {index count : Nat}
      {bytes : Bytes}
      (part : PartOfHeader 36 bytes) :
      Stalled heap index (count + 1) bytes
  | memory
      {index count : Nat}
      {digits text rest : Bytes}
      (header : Header 36 digits text)
      (noMemory : NoMemory heap index (strtol digits).toNat) :
      Stalled heap index (count + 1) (text ++ rest)
  | content
      {index count : Nat}
      {digits text rest : Bytes}
      (header : Header 36 digits text)
      (missing : Missing (strtol digits).toNat rest) :
      Stalled heap index (count + 1) (text ++ rest)
  | next
      {index count : Nat}
      {digits text content rest : Bytes}
      (header : Header 36 digits text)
      (arrived : ¬ Missing (strtol digits).toNat (content ++ rest))
      (length : content.length = (toInt32 (strtol digits).toNat).toNat)
      (stalled : Stalled heap (index + 1) count rest) :
      Stalled heap index (count + 1) (text ++ (content ++ rest))

namespace Reception

variable {heap : Nat → Nat → Option Bytes}

/-! ## Silence -/

/-- Timeouts change nothing here: the loops for a header and for a content try
again, and behind an exception there is no return. -/
def stalls : Reception → Bool
  | .count _ _ => false
  | .length _ _ _ _ => true
  | .content _ _ _ _ => true
  | .returned _ _ => false
  | .thrown => true

/-- `recvCommand` with more of what arrives. -/
def receive
    (heap : Nat → Nat → Option Bytes)
    (reception : Reception)
    (bytes : Bytes) : Reception :=
  bytes.foldl (fun reception value => step heap reception (.byte value))
    reception

theorem after_bytes
    (bytes : Bytes)
    {events : Nat}
    (inside : events ≤ bytes.length) :
    after heap (silentAfter bytes) events =
      receive heap (.count .marker []) (bytes.take events) := by
  induction events with
  | zero => rfl
  | succ events inductionHypothesis =>
      have bound : events < bytes.length := inside
      have next : silentAfter bytes events = .byte bytes[events] := by
        unfold silentAfter
        rw [List.getElem?_eq_getElem bound]
      rw [after, inductionHypothesis (by omega), next, receive, receive,
        List.take_add_one, List.getElem?_eq_getElem bound, List.foldl_append]
      rfl

theorem stalls_of_timeouts
    {reception : Reception}
    (stalls : reception.stalls = true)
    (bytes : Bytes)
    {first : Nat}
    (reached : after heap (silentAfter bytes) first = reception)
    (silent : bytes.length ≤ first)
    (events : Nat) :
    after heap (silentAfter bytes) (first + events) = reception := by
  induction events with
  | zero => exact reached
  | succ events inductionHypothesis =>
      have timeout : silentAfter bytes (first + events) = .fault .timeout := by
        unfold silentAfter
        rw [List.getElem?_eq_none (by omega)]
      rw [← Nat.add_assoc, after, inductionHypothesis, timeout]
      cases reception with
      | count => cases stalls
      | returned => cases stalls
      | length => rfl
      | content => rfl
      | thrown => rfl

/-- What has been returned stays so. -/
theorem after_of_returned
    {script : Nat → Inbound}
    {events : Nat}
    {rc : Int}
    {strings : List Bytes}
    (returned : after heap script events = .returned rc strings)
    (more : Nat) :
    after heap script (events + more) = .returned rc strings := by
  induction more with
  | zero => exact returned
  | succ more inductionHypothesis =>
      rw [← Nat.add_assoc, after, inductionHypothesis]
      rfl

/-- Whether `recvCommand` returns is decided when the last byte is there. -/
theorem returns_silentAfter_iff (bytes : Bytes) :
    Returns heap (silentAfter bytes) ↔
      (receive heap (.count .marker []) bytes).stalls = false := by
  have reached : after heap (silentAfter bytes) bytes.length =
      receive heap (.count .marker []) bytes := by
    rw [after_bytes bytes le_rfl, List.take_length]
  constructor
  · rintro ⟨events, rc, strings, returned⟩
    cases stuck : (receive heap (.count .marker []) bytes).stalls with
    | false => rfl
    | true =>
        have later := after_of_returned returned bytes.length
        have stays := stalls_of_timeouts stuck bytes reached le_rfl events
        rw [Nat.add_comm, stays] at later
        rw [later] at stuck
        cases stuck
  · intro moves
    generalize receive heap (.count .marker []) bytes = reception at *
    cases reception with
    | returned rc strings => exact ⟨_, rc, strings, reached⟩
    | count state header =>
        refine ⟨bytes.length + 1, kvTimeout, [], ?_⟩
        have timeout : silentAfter bytes bytes.length = .fault .timeout := by
          unfold silentAfter
          rw [List.getElem?_eq_none le_rfl]
        rw [after, reached, timeout]
        rfl
    | length => cases moves
    | content => cases moves
    | thrown => cases moves

/-! ## Header loops -/

theorem receive_append
    (reception : Reception)
    (bytes more : Bytes) :
    receive heap reception (bytes ++ more) =
      receive heap (receive heap reception bytes) more :=
  List.foldl_append

theorem receive_cons
    (reception : Reception)
    (value : UInt8)
    (bytes : Bytes) :
    receive heap reception (value :: bytes) =
      receive heap (step heap reception (.byte value)) bytes :=
  rfl

theorem receive_returned
    (rc : Int)
    (strings : List Bytes)
    (bytes : Bytes) :
    receive heap (.returned rc strings) bytes = .returned rc strings := by
  induction bytes with
  | nil => rfl
  | cons value bytes inductionHypothesis => exact inductionHypothesis

theorem receive_thrown (bytes : Bytes) :
    receive heap .thrown bytes = .thrown := by
  induction bytes with
  | nil => rfl
  | cons value bytes inductionHypothesis => exact inductionHypothesis

/-- One of the two header loops: where it is at a step, what follows when it is
complete, and where it goes with a byte that it refuses. -/
structure HeaderLoop
    (heap : Nat → Nat → Option Bytes)
    (marker : UInt8)
    (inside : HeaderStep → Bytes → Reception)
    (done : Bytes → Reception)
    (refused : Reception) : Prop where
  more : ∀ {now : HeaderStep} {header : Bytes} {value : UInt8}
    {later : HeaderStep} {longer : Bytes},
    headerByte marker header value now = .more later longer →
      step heap (inside now header) (.byte value) = inside later longer
  complete : ∀ {now : HeaderStep} {header : Bytes} {value : UInt8}
    {digits : Bytes},
    headerByte marker header value now = .complete digits →
      step heap (inside now header) (.byte value) = done digits
  bad : ∀ {now : HeaderStep} {header : Bytes} {value : UInt8},
    headerByte marker header value now = .bad →
      step heap (inside now header) (.byte value) = refused

/-- The loop for the number of strings. -/
theorem countLoop (heap : Nat → Nat → Option Bytes) :
    HeaderLoop heap 42 .count (fun digits =>
      nextString [] (strtol digits).toNat) (.returned kvBadCommad []) where
  more := by
    intro now header value later longer isMore
    simp only [step, isMore]
  complete := by
    intro now header value digits isComplete
    simp only [step, isComplete]
  bad := by
    intro now header value isBad
    simp only [step, isBad]

/-- The loop for the header of a string. -/
theorem lengthLoop
    (heap : Nat → Nat → Option Bytes)
    (left : Nat)
    (strings : List Bytes) :
    HeaderLoop heap 36 (fun now header => .length now header left strings)
      (fun digits => beginContent heap (strtol digits).toNat left strings)
      (.returned kvBadCommad strings) where
  more := by
    intro now header value later longer isMore
    simp only [step, lengthByte, isMore]
  complete := by
    intro now header value digits isComplete
    simp only [step, lengthByte, isComplete]
  bad := by
    intro now header value isBad
    simp only [step, lengthByte, isBad]

/-- The text has a byte that a header loop refuses. -/
def Refused (marker : UInt8) (text : Bytes) : Prop :=
  ∃ (before digits tail rest : Bytes) (value : UInt8), marker ∉ before ∧
    (∀ digit ∈ digits, isDigit digit = true) ∧
    (tail = [] ∧ isDigit value = false ∧ value ≠ 13 ∨
      tail = [13] ∧ value ≠ 10) ∧
    text = before ++ marker :: (digits ++ (tail ++ value :: rest))

/-- A text breaks off in a header, has a complete one in front, or is
refused. -/
theorem header_cases (marker : UInt8) (text : Bytes) :
    PartOfHeader marker text ∨
      (∃ digits whole rest, Header marker digits whole ∧
        text = whole ++ rest) ∨
      Refused marker text := by
  by_cases inside : marker ∈ text
  case neg => exact .inl (.inl inside)
  obtain ⟨before, behind, rfl, absent⟩ := List.eq_append_cons_of_mem inside
  have split := List.takeWhile_append_dropWhile (p := isDigit) (l := behind)
  have areDigits : ∀ digit ∈ behind.takeWhile isDigit, isDigit digit = true :=
    fun digit isIn => List.mem_takeWhile_imp isIn
  generalize behind.takeWhile isDigit = digits at split areDigits
  cases rest : behind.dropWhile isDigit with
  | nil =>
      rw [rest] at split
      exact .inl (.inr ⟨before, digits, [], absent, areDigits, .inl rfl,
        by rw [split]⟩)
  | cons value rest' =>
      rw [rest] at split
      have noDigit : isDigit value = false := by
        have head := List.head_dropWhile_not isDigit (l := behind)
          (by rw [rest]; exact List.cons_ne_nil _ _)
        simpa [rest] using head
      by_cases isReturn : value = 13
      · subst isReturn
        cases rest' with
        | nil =>
            exact .inl (.inr ⟨before, digits, [13], absent, areDigits,
              .inr rfl, by rw [split]⟩)
        | cons second rest' =>
            by_cases isFeed : second = 10
            · subst isFeed
              refine .inr (.inl ⟨digits, before ++ marker :: (digits ++ [13, 10]),
                rest', ⟨before, absent, areDigits, rfl⟩, ?_⟩)
              rw [← split]
              simp
            · exact .inr (.inr ⟨before, digits, [13], rest', second, absent,
                areDigits, .inr ⟨rfl, isFeed⟩, by rw [← split]; rfl⟩)
      · exact .inr (.inr ⟨before, digits, [], rest', value, absent, areDigits,
          .inl ⟨rfl, noDigit, isReturn⟩, by rw [← split]; rfl⟩)

section HeaderLoop

variable {marker : UInt8} {inside : HeaderStep → Bytes → Reception}
  {done : Bytes → Reception} {refused : Reception}

theorem HeaderLoop.before
    (loop : HeaderLoop heap marker inside done refused)
    {before : Bytes}
    (absent : marker ∉ before)
    (header : Bytes) :
    receive heap (inside .marker header) before = inside .marker header := by
  induction before with
  | nil => rfl
  | cons value before inductionHypothesis =>
      rw [List.mem_cons, not_or] at absent
      have more : headerByte marker header value .marker =
          .more .marker header := by
        rw [headerByte, if_neg (Ne.symm absent.1)]
      rw [receive_cons, loop.more more]
      exact inductionHypothesis absent.2

theorem HeaderLoop.digits
    (loop : HeaderLoop heap marker inside done refused)
    {digits : Bytes}
    (areDigits : ∀ digit ∈ digits, isDigit digit = true)
    (header : Bytes) :
    receive heap (inside .digits header) digits =
      inside .digits (header ++ digits) := by
  induction digits generalizing header with
  | nil => rw [List.append_nil]; rfl
  | cons value digits inductionHypothesis =>
      obtain ⟨isFirst, areDigits⟩ := List.forall_mem_cons.mp areDigits
      have bounds : 48 ≤ value ∧ value ≤ 57 := by
        simpa [isDigit] using isFirst
      have notReturn : value ≠ 13 := by
        rintro rfl
        exact absurd bounds.1 (by decide)
      have inRange : ¬ (value < 48 ∨ 57 < value) := by
        rintro (below | above)
        · exact absurd bounds.1 (UInt8.not_le.mpr below)
        · exact absurd bounds.2 (UInt8.not_le.mpr above)
      have more : headerByte marker header value .digits =
          .more .digits (header ++ [value]) := by
        rw [headerByte, if_neg notReturn, if_neg inRange]
      rw [receive_cons, loop.more more, inductionHypothesis areDigits,
        List.append_assoc]
      rfl

/-- The marker and the digits. -/
theorem HeaderLoop.started
    (loop : HeaderLoop heap marker inside done refused)
    {before digits : Bytes}
    (absent : marker ∉ before)
    (areDigits : ∀ digit ∈ digits, isDigit digit = true)
    (rest : Bytes) :
    receive heap (inside .marker []) (before ++ marker :: (digits ++ rest)) =
      receive heap (inside .digits digits) rest := by
  have more : headerByte marker [] marker .marker = .more .digits [] := by
    rw [headerByte, if_pos rfl]
  rw [receive_append, loop.before absent, receive_cons, loop.more more,
    receive_append, loop.digits areDigits, List.nil_append]

/-- In front of its end the loop goes on. -/
theorem HeaderLoop.part
    (loop : HeaderLoop heap marker inside done refused)
    {text : Bytes}
    (part : PartOfHeader marker text) :
    ∃ now header, receive heap (inside .marker []) text = inside now header := by
  rcases part with absent | ⟨before, digits, tail, absent, areDigits, ends, rfl⟩
  · exact ⟨_, _, loop.before absent []⟩
  · rw [loop.started absent areDigits]
    rcases ends with rfl | rfl
    · exact ⟨_, _, rfl⟩
    · exact ⟨_, _, loop.more rfl⟩

theorem HeaderLoop.whole
    (loop : HeaderLoop heap marker inside done refused)
    {digits text : Bytes}
    (header : Header marker digits text)
    (rest : Bytes) :
    receive heap (inside .marker []) (text ++ rest) =
      receive heap (done digits) rest := by
  obtain ⟨before, absent, areDigits, rfl⟩ := header
  have isReturn : headerByte marker digits 13 .digits =
      .more .lineFeed digits := rfl
  have isFeed : headerByte marker digits 10 .lineFeed = .complete digits := rfl
  rw [receive_append, loop.started absent areDigits, receive_cons,
    loop.more isReturn, receive_cons, loop.complete isFeed]
  rfl

theorem HeaderLoop.refuses
    (loop : HeaderLoop heap marker inside done refused)
    {text : Bytes}
    (isRefused : Refused marker text) :
    ∃ rest, receive heap (inside .marker []) text =
      receive heap refused rest := by
  obtain ⟨before, digits, tail, rest, value, absent, areDigits, ends, rfl⟩ :=
    isRefused
  rw [loop.started absent areDigits]
  rcases ends with ⟨rfl, noDigit, notReturn⟩ | ⟨rfl, notFeed⟩
  · have bad : headerByte marker digits value .digits = .bad := by
      rw [headerByte, if_neg notReturn, if_pos]
      by_contra inRange
      rw [not_or, UInt8.not_lt, UInt8.not_lt] at inRange
      have isDigit' : isDigit value = true := by
        simpa [isDigit] using inRange
      rw [noDigit] at isDigit'
      cases isDigit'
    exact ⟨rest, by rw [List.nil_append, receive_cons, loop.bad bad]⟩
  · have isReturn : headerByte marker digits 13 .digits =
        .more .lineFeed digits := rfl
    have bad : headerByte marker digits value .lineFeed = .bad := by
      rw [headerByte, if_neg notFeed]
    exact ⟨rest, by rw [List.singleton_append, receive_cons,
      loop.more isReturn, receive_cons, loop.bad bad]⟩

end HeaderLoop

/-! ## Contents -/

section Content

variable {contentLen left : Nat} {strings : List Bytes}

/-- With its buffer a string can be made. -/
theorem exists_pushString
    (left : Nat)
    (memory : ¬ NoMemory heap strings.length contentLen)
    (received : Bytes) :
    ∃ text, pushString heap contentLen received left strings =
      nextString (strings ++ [text]) left := by
  unfold pushString contentString
  by_cases small : contentLen < 2 ^ 31
  · rw [if_pos small]
    exact ⟨received, rfl⟩
  · rw [if_neg small]
    cases buffer : heap strings.length contentLen with
    | none => exact absurd ⟨Nat.le_of_not_lt small, buffer⟩ memory
    | some buffer => exact ⟨_, rfl⟩

theorem beginContent_of_noMemory
    (noMemory : NoMemory heap strings.length contentLen) :
    beginContent heap contentLen left strings = .thrown :=
  if_pos noMemory

theorem beginContent_of_asked
    (memory : ¬ NoMemory heap strings.length contentLen)
    (asked : toInt32 contentLen ≠ 0) :
    beginContent heap contentLen left strings =
      .content contentLen [] left strings := by
  unfold NoMemory at memory
  rw [beginContent, if_neg memory, if_neg asked]

/-- Fewer bytes than `recv` asks for. -/
theorem receive_content_of_lt
    {received text : Bytes}
    (short : received.length + text.length < (toInt32 contentLen).toNat) :
    receive heap (.content contentLen received left strings) text =
      .content contentLen (received ++ text) left strings := by
  induction text generalizing received with
  | nil =>
      rw [List.append_nil]
      rfl
  | cons value text inductionHypothesis =>
      rw [List.length_cons] at short
      have notNegative : ¬ toInt32 contentLen < 0 := by omega
      have notLast : received.length + 1 ≠ (toInt32 contentLen).toNat := by
        omega
      rw [receive_cons, step, if_neg notNegative, if_neg notLast,
        inductionHypothesis (by rw [List.length_append,
          List.length_singleton]; omega), List.append_assoc]
      rfl

/-- As many bytes as `recv` asks for. -/
theorem receive_content_of_eq
    {received text : Bytes}
    (nonempty : text ≠ [])
    (exact' : received.length + text.length = (toInt32 contentLen).toNat) :
    receive heap (.content contentLen received left strings) text =
      pushString heap contentLen (received ++ text) left strings := by
  obtain ⟨start, last, isText⟩ :=
    (List.eq_nil_or_concat text).resolve_left nonempty
  rw [List.concat_eq_append] at isText
  subst isText
  rw [List.length_append, List.length_singleton] at exact'
  have notNegative : ¬ toInt32 contentLen < 0 := by omega
  have isLast : (received ++ start).length + 1 = (toInt32 contentLen).toNat := by
    rw [List.length_append]
    omega
  rw [receive_append, receive_content_of_lt (by omega), receive_cons, step,
    if_neg notNegative, if_pos isLast, List.append_assoc]
  rfl

/-- `recv` waits for more, or there is no buffer. -/
theorem stalls_of_missing
    {rest : Bytes}
    (missing : Missing contentLen rest) :
    (receive heap (beginContent heap contentLen left strings) rest).stalls =
      true := by
  by_cases noMemory : NoMemory heap strings.length contentLen
  · rw [beginContent_of_noMemory noMemory, receive_thrown]
    rfl
  · rcases missing with short | ⟨negative, rfl⟩
    · rw [beginContent_of_asked noMemory (by omega),
        receive_content_of_lt (by rw [List.length_nil]; omega)]
      rfl
    · rw [beginContent_of_asked noMemory (by omega)]
      rfl

/-- The content has arrived. -/
theorem receive_arrived
    (memory : ¬ NoMemory heap strings.length contentLen)
    {content rest : Bytes}
    (arrived : ¬ Missing contentLen (content ++ rest))
    (length : content.length = (toInt32 contentLen).toNat) :
    ∃ text, receive heap (beginContent heap contentLen left strings)
        (content ++ rest) =
      receive heap (nextString (strings ++ [text]) left) rest := by
  rw [Missing, not_or, not_and] at arrived
  rcases lt_trichotomy (toInt32 contentLen) 0 with negative | zero | positive
  · -- `recv` returns when a byte is there, and does not read it
    have none : content = [] := List.length_eq_zero_iff.mp (by omega)
    rw [none, List.nil_append] at arrived ⊢
    obtain ⟨text, pushed⟩ := exists_pushString left memory []
    refine ⟨text, ?_⟩
    obtain ⟨value, rest, rfl⟩ :=
      List.exists_cons_of_ne_nil (arrived.2 negative)
    rw [beginContent_of_asked memory (by omega), receive_cons, receive_cons,
      step, if_pos negative, pushed]
    cases left with
    | zero => rfl
    | succ left => rfl
  · have none : content = [] := List.length_eq_zero_iff.mp (by omega)
    obtain ⟨text, pushed⟩ := exists_pushString left memory []
    refine ⟨text, ?_⟩
    unfold NoMemory at memory
    rw [none, List.nil_append, beginContent, if_neg memory, if_pos zero, pushed]
  · obtain ⟨text, pushed⟩ := exists_pushString left memory content
    refine ⟨text, ?_⟩
    have nonempty : content ≠ [] := by
      rintro rfl
      rw [List.length_nil] at length
      omega
    rw [beginContent_of_asked memory (by omega), receive_append,
      receive_content_of_eq nonempty (by rw [List.length_nil]; omega),
      List.nil_append, pushed]

end Content

/-- After these bytes `recvCommand` is stuck in front of the end of a
string. -/
theorem stalls_nextString_iff
    (count : Nat)
    (strings : List Bytes)
    (bytes : Bytes) :
    (receive heap (nextString strings count) bytes).stalls = true ↔
      Stalled heap strings.length count bytes := by
  induction count generalizing strings bytes with
  | zero =>
      rw [nextString, receive_returned]
      refine iff_of_false Bool.false_ne_true ?_
      intro stalled
      cases stalled
  | succ count inductionHypothesis =>
      have loop := lengthLoop heap count strings
      have next : ∀ text rest, (receive heap
          (nextString (strings ++ [text]) count) rest).stalls = true ↔
            Stalled heap (strings.length + 1) count rest := by
        intro text rest
        rw [inductionHypothesis, List.length_append, List.length_singleton]
      rw [nextString]
      constructor
      · intro stuck
        rcases header_cases 36 bytes with
          part | ⟨digits, whole, rest, header, rfl⟩ | refused
        · exact .header part
        · rw [loop.whole header] at stuck
          by_cases noMemory : NoMemory heap strings.length (strtol digits).toNat
          · exact .memory header noMemory
          by_cases missing : Missing (strtol digits).toNat rest
          · exact .content header missing
          have split := List.take_append_drop
            (toInt32 (strtol digits).toNat).toNat rest
          have length : (rest.take (toInt32 (strtol digits).toNat).toNat).length
              = (toInt32 (strtol digits).toNat).toNat := by
            rw [List.length_take, Nat.min_eq_left]
            exact Nat.le_of_not_lt fun short => missing (.inl short)
          rw [← split] at missing stuck ⊢
          obtain ⟨text, arrived⟩ := receive_arrived noMemory missing length
          rw [arrived, next] at stuck
          exact .next header missing length stuck
        · obtain ⟨rest, isRefused⟩ := loop.refuses refused
          rw [isRefused, receive_returned] at stuck
          cases stuck
      · intro stalled
        cases stalled with
        | header part =>
            obtain ⟨now, header, stays⟩ := loop.part part
            rw [stays]
            rfl
        | memory header noMemory =>
            rw [loop.whole header, beginContent_of_noMemory noMemory,
              receive_thrown]
            rfl
        | content header missing =>
            rw [loop.whole header]
            exact stalls_of_missing missing
        | @next _ _ digits _ _ _ header arrived length stalled =>
            rw [loop.whole header]
            by_cases noMemory : NoMemory heap strings.length
                (strtol digits).toNat
            · rw [beginContent_of_noMemory noMemory, receive_thrown]
              rfl
            · obtain ⟨text, isArrived⟩ := receive_arrived noMemory arrived length
              rw [isArrived, next]
              exact stalled

/-- A client that has fallen silent. -/
theorem stalls_iff (bytes : Bytes) :
    (receive heap (.count .marker []) bytes).stalls = true ↔
      ∃ digits text rest, Header 42 digits text ∧ bytes = text ++ rest ∧
        Stalled heap 0 (strtol digits).toNat rest := by
  have loop := countLoop heap
  constructor
  · intro stuck
    rcases header_cases 42 bytes with
      part | ⟨digits, text, rest, header, rfl⟩ | refused
    · obtain ⟨now, header, stays⟩ := loop.part part
      rw [stays] at stuck
      cases stuck
    · rw [loop.whole header, stalls_nextString_iff] at stuck
      exact ⟨digits, text, rest, header, rfl, stuck⟩
    · obtain ⟨rest, isRefused⟩ := loop.refuses refused
      rw [isRefused, receive_returned] at stuck
      cases stuck
  · rintro ⟨digits, text, rest, header, rfl, stalled⟩
    rw [loop.whole header, stalls_nextString_iff]
    exact stalled

/-- A client that stays connected and silent gets rid of `recvCommand`, unless
it has sent the number of its strings and not all of them. -/
theorem recvCommand_returns_iff
    (heap : Nat → Nat → Option Bytes)
    (bytes : Bytes) :
    Returns heap (silentAfter bytes) ↔
      ¬ ∃ digits text rest, Header 42 digits text ∧ bytes = text ++ rest ∧
        Stalled heap 0 (strtol digits).toNat rest := by
  rw [returns_silentAfter_iff, ← Bool.not_eq_true, stalls_iff]

/-- The number of strings, and nothing else. -/
theorem recvCommand_held :
    ¬ ∀ (heap : Nat → Nat → Option Bytes) (bytes : Bytes),
      Returns heap (silentAfter bytes) := by
  intro always
  have returns := always (fun _ _ => none) (str "*1\r\n")
  rw [returns_silentAfter_iff] at returns
  revert returns
  decide

/-! ## Clients that close -/

/-- `recvCommand` with what arrives, and the end of the connection. -/
def closed
    (heap : Nat → Nat → Option Bytes)
    (reception : Reception)
    (script : List Inbound) : Reception :=
  step heap (script.foldl (step heap) reception) (.fault .networkClose)

theorem closed_cons
    (reception : Reception)
    (inbound : Inbound)
    (script : List Inbound) :
    closed heap reception (inbound :: script) =
      closed heap (step heap reception inbound) script :=
  rfl

theorem closed_thrown (script : List Inbound) :
    closed heap .thrown script = .thrown := by
  induction script with
  | nil => rfl
  | cons inbound script inductionHypothesis => exact inductionHypothesis

theorem closed_returned
    (rc : Int)
    (strings : List Bytes)
    (script : List Inbound) :
    closed heap (.returned rc strings) script = .returned rc strings := by
  induction script with
  | nil => rfl
  | cons inbound script inductionHypothesis => exact inductionHypothesis

theorem recvNumber_byte
    (marker : UInt8)
    (patient : Bool)
    (now : HeaderStep)
    (header : Bytes)
    (value : UInt8)
    (rest : List Inbound) :
    recvNumber marker patient now header (.byte value :: rest) =
      match headerByte marker header value now with
      | .more later longer => recvNumber marker patient later longer rest
      | .complete digits => (kvOk, digits, rest)
      | .bad => (kvBadCommad, header, rest) := by
  cases now with
  | marker => rfl
  | digits =>
      by_cases isReturn : value = 13
      · simp only [recvNumber, headerByte, if_pos isReturn]
      · by_cases outside : value < 48 ∨ 57 < value
        · simp only [recvNumber, headerByte, if_neg isReturn, if_pos outside]
        · simp only [recvNumber, headerByte, if_neg isReturn, if_neg outside]
  | lineFeed =>
      by_cases isFeed : value = 10
      · simp only [recvNumber, headerByte, if_pos isFeed]
      · simp only [recvNumber, headerByte, if_neg isFeed]

/-- A header loop is `recvNumber`. -/
theorem HeaderLoop.closed
    {marker : UInt8}
    {inside : HeaderStep → Bytes → Reception}
    {done : Bytes → Reception}
    {strings : List Bytes}
    (loop : HeaderLoop heap marker inside done (.returned kvBadCommad strings))
    {patient : Bool}
    (faults : ∀ now header error, step heap (inside now header) (.fault error) =
      if patient = true ∧ error ≠ .networkClose then inside now header
      else .returned error.code strings)
    (now : HeaderStep)
    (header : Bytes)
    (script : List Inbound) :
    closed heap (inside now header) script =
      match recvNumber marker patient now header script with
      | (rc, header, rest) =>
          if rc ≠ kvOk then .returned rc strings
          else Reception.closed heap (done header) rest := by
  induction script generalizing now header with
  | nil => exact (faults now header .networkClose).trans (if_neg (by simp))
  | cons inbound script inductionHypothesis =>
      rw [closed_cons]
      cases inbound with
      | fault error =>
          rw [faults, recvNumber]
          split
          · exact inductionHypothesis now header
          · rw [closed_returned]
            exact (if_pos error.code_ne_kvOk).symm
      | byte value =>
          rw [recvNumber_byte]
          cases read : headerByte marker header value now with
          | more later longer =>
              rw [loop.more read]
              exact inductionHypothesis later longer
          | complete digits =>
              rw [loop.complete read]
              rfl
          | bad =>
              rw [loop.bad read, closed_returned]
              rfl

/-- A call of `recv` for some bytes. -/
theorem closed_content
    {contentLen missing : Nat}
    {received : Bytes}
    (left : Nat)
    (strings : List Bytes)
    (script : List Inbound)
    (asked : received.length + (missing + 1) = (toInt32 contentLen).toNat) :
    closed heap (.content contentLen received left strings) script =
      match recvContent (toInt32 contentLen).toNat (missing + 1) received
        script with
      | (rc, received, rest) =>
          if rc ≠ kvOk then .returned rc strings
          else closed heap (pushString heap contentLen received left strings)
            rest := by
  have notNegative : ¬ toInt32 contentLen < 0 := by omega
  induction script generalizing received missing with
  | nil =>
      have notOk : kvNetworkClose ≠ kvOk := by decide
      rw [recvContent]
      change step heap _ _ = _
      rw [List.foldl_nil, step, if_neg notNegative]
      exact (if_pos notOk).symm
  | cons inbound script inductionHypothesis =>
      rw [closed_cons]
      cases inbound with
      | fault error =>
          cases error with
          | timeout => exact inductionHypothesis asked
          | network =>
              have again := @inductionHypothesis (received.length + missing) []
                (by rw [List.length_nil]; omega)
              have same : received.length + missing + 1 =
                  (toInt32 contentLen).toNat := by omega
              rw [same] at again
              rw [step, recvContent]
              exact again
          | networkClose =>
              rw [step, if_neg notNegative, closed_returned]
              rfl
      | byte value =>
          rw [step, if_neg notNegative, recvContent]
          cases missing with
          | zero =>
              rw [if_pos asked, recvContent]
              rfl
          | succ missing =>
              rw [if_neg (by omega)]
              exact inductionHypothesis (by
                rw [List.length_append, List.length_singleton]; omega)

/-- A call of `recv` for a negative number of bytes. -/
theorem closed_negative
    {contentLen : Nat}
    (negative : toInt32 contentLen < 0)
    {left : Nat}
    {strings : List Bytes}
    {text : Bytes}
    (pushed : pushString heap contentLen [] left strings =
      nextString (strings ++ [text]) left)
    (script : List Inbound) :
    closed heap (.content contentLen [] left strings) script =
      closed heap (nextString (strings ++ [text]) left) script := by
  induction script with
  | nil =>
      unfold closed
      rw [List.foldl_nil, List.foldl_nil, step, if_pos negative, pushed]
      cases left with
      | zero => rfl
      | succ left => rfl
  | cons inbound script inductionHypothesis =>
      rw [closed_cons, closed_cons]
      cases inbound with
      | fault error =>
          cases error with
          | timeout =>
              cases left with
              | zero => exact inductionHypothesis
              | succ left => exact inductionHypothesis
          | network =>
              cases left with
              | zero => exact inductionHypothesis
              | succ left => exact inductionHypothesis
          | networkClose =>
              rw [step, if_pos negative, pushed]
              cases left with
              | zero => rfl
              | succ left => rfl
      | byte value =>
          rw [step, if_pos negative, pushed]
          cases left with
          | zero => rfl
          | succ left => rfl

/-- The loop for a content is `recvContent`. -/
theorem closed_beginContent
    {contentLen left : Nat}
    {strings : List Bytes}
    (memory : ¬ NoMemory heap strings.length contentLen)
    (script : List Inbound) :
    closed heap (beginContent heap contentLen left strings) script =
      match recvContent (toInt32 contentLen).toNat (toInt32 contentLen).toNat []
        script with
      | (rc, received, rest) =>
          if rc ≠ kvOk then .returned rc strings
          else closed heap (pushString heap contentLen received left strings)
            rest := by
  rcases lt_trichotomy (toInt32 contentLen) 0 with negative | zero | positive
  · obtain ⟨text, pushed⟩ := exists_pushString left memory []
    have none : (toInt32 contentLen).toNat = 0 := by omega
    rw [beginContent_of_asked memory (by omega), closed_negative negative pushed,
      none, recvContent, ← pushed]
    rfl
  · have none : (toInt32 contentLen).toNat = 0 := by omega
    unfold NoMemory at memory
    rw [beginContent, if_neg memory, if_pos zero, none, recvContent]
    rfl
  · obtain ⟨missing, asked⟩ : ∃ missing : Nat,
        missing + 1 = (toInt32 contentLen).toNat :=
      ⟨(toInt32 contentLen).toNat - 1, by omega⟩
    have received := @closed_content heap contentLen missing [] left strings
      script (by rw [List.length_nil, Nat.zero_add, asked])
    rw [asked] at received
    rw [beginContent_of_asked memory (by omega), received]

/-- What `recvCommand` has returned. -/
def result : Reception → Option (Int × List Bytes)
  | .returned rc strings => some (rc, strings)
  | _ => none

/-- The loop over the strings is `recvStrings`. -/
theorem closed_nextString
    (memory : ∀ index contentLen, heap index contentLen ≠ none)
    (count : Nat)
    (strings : List Bytes)
    (script : List Inbound) :
    (closed heap (nextString strings count) script).result =
      recvStrings heap count strings script := by
  induction count generalizing strings script with
  | zero =>
      rw [nextString, closed_returned]
      rfl
  | succ count inductionHypothesis =>
      have faults : ∀ now header error,
          step heap (.length now header count strings) (.fault error) =
            if true = true ∧ error ≠ .networkClose then
              .length now header count strings
            else .returned error.code strings := by
        intro now header error
        cases error <;> rfl
      rw [nextString, (lengthLoop heap count strings).closed faults,
        recvStrings]
      generalize recvNumber 36 true .marker [] script = number
      obtain ⟨rc, header, rest⟩ := number
      dsimp only
      split
      · rfl
      · have hasMemory : ¬ NoMemory heap strings.length (strtol header).toNat :=
          fun noMemory => memory _ _ noMemory.2
        rw [closed_beginContent hasMemory]
        generalize recvContent _ _ [] rest = content
        obtain ⟨rc, received, rest⟩ := content
        dsimp only
        split
        · rfl
        · unfold pushString
          cases contentString heap strings.length (strtol header).toNat
              received with
          | none => rw [closed_thrown]; rfl
          | some text => exact inductionHypothesis _ rest

/-- Until the client closes, `recvCommand` is this. -/
theorem closed_eq_recvCommand
    (memory : ∀ index contentLen, heap index contentLen ≠ none)
    (script : List Inbound) :
    (closed heap (.count .marker []) script).result =
      recvCommand heap script := by
  have faults : ∀ now header error,
      step heap (.count now header) (.fault error) =
        if false = true ∧ error ≠ .networkClose then .count now header
        else .returned error.code [] := by
    intro now header error
    rfl
  rw [(countLoop heap).closed faults, recvCommand]
  generalize recvNumber 42 false .marker [] script = number
  obtain ⟨rc, header, rest⟩ := number
  dsimp only
  split
  · rfl
  · exact closed_nextString memory _ [] rest

end Reception
end Lab3
end CloudComputing
