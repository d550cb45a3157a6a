import CloudComputing.Lab3.Coordinator

/-!
# Client commands

`Network::recvCommand` and `Coordinator::Working`.  A client's connection is
modelled by what the calls of `recvNF` and `recv` meet in it: bytes and faults.
Where the list ends, the client has closed it.

`recvCommand` appends each string to the caller's vector as soon as it is
complete, so the strings before a failure stay there, and `Working` does not
read the return code.
-/

namespace CloudComputing
namespace Lab3

open Decimal CloudComputing.Lab3.Parser

/-- What arrives at the coordinator's end of a client's connection. -/
inductive Inbound
  | byte (value : UInt8)
  | fault (error : NetError)
  deriving DecidableEq, Repr

/-- The values of `step` in the header loops: the marker, the digits and the
line feed are awaited. -/
inductive HeaderStep
  | marker
  | digits
  | lineFeed
  deriving DecidableEq, Repr

namespace Network

/-- The header loops of `recvCommand`: the return code, `header`, and what has
not been received.  The first loop gives up after every error, the loop for a
string (`patient`) only when the connection is closed. -/
def recvNumber (marker : UInt8) (patient : Bool) :
    HeaderStep → Bytes → List Inbound → Int × Bytes × List Inbound
  | _, header, [] => (kvNetworkClose, header, [])
  | step, header, .fault error :: rest =>
      if patient = true ∧ error ≠ .networkClose then
        recvNumber marker patient step header rest
      else (error.code, header, rest)
  | .marker, header, .byte value :: rest =>
      recvNumber marker patient
        (if value = marker then .digits else .marker) header rest
  | .digits, header, .byte value :: rest =>
      -- '\r'
      if value = 13 then recvNumber marker patient .lineFeed header rest
      else if value < 48 ∨ 57 < value then (kvBadCommad, header, rest)
      else recvNumber marker patient .digits (header ++ [value]) rest
  | .lineFeed, header, .byte value :: rest =>
      -- '\n'
      if value = 10 then (kvOk, header, rest) else (kvBadCommad, header, rest)

/-- The content loop of `recvCommand` with the call of `ossSocket::recv` in it,
which asks for `asked` bytes and has received all of them but `missing`.  A
call that fails loses what it has received and is repeated.  A timeout occurs
only before its first byte. -/
def recvContent (asked : Nat) :
    Nat → Bytes → List Inbound → Int × Bytes × List Inbound
  | 0, content, script => (kvOk, content, script)
  | _ + 1, _, [] => (kvNetworkClose, [], [])
  | missing + 1, content, .byte value :: rest =>
      recvContent asked missing (content ++ [value]) rest
  | missing + 1, content, .fault .timeout :: rest =>
      recvContent asked (missing + 1) content rest
  | _ + 1, _, .fault .network :: rest => recvContent asked asked [] rest
  | _ + 1, _, .fault .networkClose :: rest => (kvNetworkClose, [], rest)

/-- The string that is made from a received content.  The length given to
`recv` is an `int`, so of `2 ^ 31` bytes or more only a part is received, and
the rest is what the new buffer holds; `heap` says what that is, or that
`new` fails, for each string of the command. -/
def contentString
    (heap : Nat → Nat → Option Bytes)
    (index contentLen : Nat)
    (received : Bytes) : Option Bytes :=
  if contentLen < 2 ^ 31 then some received
  else (heap index contentLen).map fun buffer =>
    received ++ buffer.drop received.length

/-- The loop of `recvCommand` over the strings, with `count` of them to go. -/
def recvStrings (heap : Nat → Nat → Option Bytes) :
    Nat → List Bytes → List Inbound → Option (Int × List Bytes)
  | 0, strings, _ => some (kvOk, strings)
  | count + 1, strings, script =>
      let (rc, header, script) := recvNumber 36 true .marker [] script
      if rc ≠ kvOk then some (rc, strings)
      else
        let contentLen := (strtol header).toNat
        let asked := (toInt32 contentLen).toNat
        let (rc, received, script) := recvContent asked asked [] script
        if rc ≠ kvOk then some (rc, strings)
        else do
          let content ← contentString heap strings.length contentLen received
          recvStrings heap count (strings ++ [content]) script

/-- `recvCommand`: the return code and the caller's vector, which was empty.
`none` stands for an exception of `new`. -/
def recvCommand
    (heap : Nat → Nat → Option Bytes)
    (script : List Inbound) : Option (Int × List Bytes) :=
  let (rc, header, script) := recvNumber 42 false .marker [] script
  if rc ≠ kvOk then some (rc, [])
  else recvStrings heap (strtol header).toNat [] script

end Network

/-- `Working` for one client: the string given to `sendResult`.  It replaces
the sleeping loop by its only round, which jumps to the end. -/
def working
    (heap : Nat → Nat → Option Bytes)
    (script : List Inbound)
    (s : Sys) : Option (Bytes × Sys) := do
  let (_, task) ← Network.recvCommand heap script
  if task.length < 1 then some (getErrorMessage, s)
  else if s.co.cstate ≠ .working then some (getErrorMessage, s)
  else (dispatch task).exec s

namespace Network

/-! ## Encoded commands are received exactly -/

/-- A client that sends these bytes. -/
def sent (bytes : Bytes) : List Inbound := bytes.map .byte

@[simp] theorem sent_nil : sent [] = [] := rfl

@[simp] theorem sent_cons (byte : UInt8) (bytes : Bytes) :
    sent (byte :: bytes) = .byte byte :: sent bytes := rfl

@[simp] theorem sent_append (bytes others : Bytes) :
    sent (bytes ++ others) = sent bytes ++ sent others :=
  List.map_append

/-- What stands before the marker is skipped. -/
theorem recvNumber_skip
    {marker : UInt8}
    (patient : Bool)
    (header : Bytes)
    {before : Bytes}
    (absent : marker ∉ before)
    (rest : List Inbound) :
    recvNumber marker patient .marker header (sent before ++ rest) =
      recvNumber marker patient .marker header rest := by
  induction before with
  | nil => rfl
  | cons byte before inductionHypothesis =>
      simp only [List.mem_cons, not_or] at absent
      rw [sent_cons, List.cons_append, recvNumber, if_neg (Ne.symm absent.1)]
      exact inductionHypothesis absent.2

/-- Digits are collected up to the carriage return. -/
theorem recvNumber_digits
    (marker : UInt8)
    (patient : Bool)
    (header : Bytes)
    {digits : Bytes}
    (allDigits : ∀ byte ∈ digits, isDigit byte = true)
    (rest : List Inbound) :
    recvNumber marker patient .digits header (sent digits ++ rest) =
      recvNumber marker patient .digits (header ++ digits) rest := by
  induction digits generalizing header with
  | nil => rw [sent_nil, List.nil_append, List.append_nil]
  | cons byte digits inductionHypothesis =>
      have digit : isDigit byte = true := allDigits byte (by simp)
      have bounds : 48 ≤ byte ∧ byte ≤ 57 := by
        simpa [isDigit] using digit
      have notReturn : byte ≠ 13 := by
        rintro rfl
        exact absurd bounds.1 (by decide)
      have inside : ¬ (byte < 48 ∨ 57 < byte) := by
        rintro (below | above)
        · exact absurd bounds.1 (UInt8.not_le.mpr below)
        · exact absurd bounds.2 (UInt8.not_le.mpr above)
      rw [sent_cons, List.cons_append, recvNumber, if_neg notReturn,
        if_neg inside,
        inductionHypothesis (header ++ [byte]) fun other member =>
          allDigits other (List.mem_cons_of_mem byte member),
        List.append_assoc]
      rfl

/-- A printed number after its marker is received. -/
theorem recvNumber_toDecimal
    (marker : UInt8)
    (patient : Bool)
    (number : Nat)
    (rest : List Inbound) :
    recvNumber marker patient .marker []
        (sent (marker :: (toDecimal number ++ str "\r\n")) ++ rest) =
      (kvOk, toDecimal number, rest) := by
  have digits := recvNumber_digits marker patient []
    (fun _ member => isDigit_of_mem_toDecimal
      (show _ ∈ toDecimal number from member))
    (sent (str "\r\n") ++ rest)
  rw [sent_cons, List.cons_append, recvNumber, if_pos rfl, sent_append,
    List.append_assoc, digits]
  rfl

/-- A content that arrives without a fault is received. -/
theorem recvContent_sent
    (asked : Nat)
    (content bytes : Bytes)
    (rest : List Inbound) :
    recvContent asked bytes.length content (sent bytes ++ rest) =
      (kvOk, content ++ bytes, rest) := by
  induction bytes generalizing content with
  | nil => simp [recvContent]
  | cons byte bytes inductionHypothesis =>
      rw [sent_cons, List.cons_append, List.length_cons, recvContent,
        inductionHypothesis, List.append_assoc]
      rfl

/-- The loop over the strings receives a run of string messages; what stands
before the first one has no marker in it. -/
theorem recvStrings_flatMap
    (heap : Nat → Nat → Option Bytes)
    (raw : List Bytes)
    (small : ∀ element ∈ raw, element.length < 2 ^ 31)
    (strings : List Bytes)
    {before : Bytes}
    (absent : 36 ∉ before)
    (rest : List Inbound) :
    recvStrings heap raw.length strings
        (sent before ++ (sent (raw.flatMap getStringMessage) ++ rest)) =
      some (kvOk, strings ++ raw) := by
  induction raw generalizing strings before with
  | nil => simp [recvStrings]
  | cons head tail inductionHypothesis =>
      have headSmall : head.length < 2 ^ 31 := small head (by simp)
      have split :
          sent ((head :: tail).flatMap getStringMessage) ++ rest =
            sent (36 :: (toDecimal head.length ++ str "\r\n")) ++
              (sent head ++ (sent (str "\r\n") ++
                (sent (tail.flatMap getStringMessage) ++ rest))) := by
        rw [List.flatMap_cons, getStringMessage_of_lt headSmall]
        simp only [sent_append, sent_cons, List.append_assoc,
          List.cons_append]
      have value : (strtol (toDecimal head.length)).toNat = head.length := by
        have read := strtol_toDecimal_append_of_lt
          (show head.length < 2 ^ 63 by omega) EndsNumber.nil
        rw [List.append_nil] at read
        rw [read, Int.toNat_natCast]
      have asked : (toInt32 head.length).toNat = head.length := by
        rw [toInt32_of_lt headSmall, Int.toNat_natCast]
      have next := inductionHypothesis
        (fun element member => small element (List.mem_cons_of_mem head member))
        (strings ++ [head]) (show (36 : UInt8) ∉ str "\r\n" by decide)
      rw [List.length_cons, recvStrings, recvNumber_skip true [] absent, split,
        recvNumber_toDecimal]
      simp only [ne_eq, not_true_eq_false, if_false, value, asked,
        recvContent_sent, List.nil_append, contentString, if_pos headSmall,
        Option.bind_eq_bind, Option.bind_some, next]
      rw [List.append_assoc]
      rfl

/-- `recvCommand` gives back the command whose encoding a client sends. -/
theorem recvCommand_getRESPArry
    (heap : Nat → Nat → Option Bytes)
    {task : List Bytes}
    (small : (getRESPArry task).length < 2 ^ 31)
    (rest : List Inbound) :
    recvCommand heap (sent (getRESPArry task) ++ rest) =
      some (kvOk, task) := by
  have countSmall : task.length < 2 ^ 31 := length_lt_of_getRESPArry_lt small
  have split :
      sent (getRESPArry task) ++ rest =
        sent (42 :: (toDecimal task.length ++ str "\r\n")) ++
          (sent (task.flatMap getStringMessage) ++ rest) := by
    rw [getRESPArry_of_lt countSmall]
    simp only [sent_append, sent_cons, List.append_assoc, List.cons_append]
  have value : (strtol (toDecimal task.length)).toNat = task.length := by
    have read := strtol_toDecimal_append_of_lt
      (show task.length < 2 ^ 63 by omega) EndsNumber.nil
    rw [List.append_nil] at read
    rw [read, Int.toNat_natCast]
  have strings := recvStrings_flatMap heap task
    (fun element member => element_length_lt_of_getRESPArry_lt small member)
    [] (List.not_mem_nil (a := 36)) rest
  rw [recvCommand, split, recvNumber_toDecimal]
  simp only [ne_eq, not_true_eq_false, if_false, value]
  exact strings

/-! ## Delays -/

/-- What arrives, without the timeouts. -/
def prompt (script : List Inbound) : List Inbound :=
  script.filter (· ≠ .fault .timeout)

theorem prompt_byte (value : UInt8) (script : List Inbound) :
    prompt (.byte value :: script) = .byte value :: prompt script := by
  rfl

theorem prompt_timeout (script : List Inbound) :
    prompt (.fault .timeout :: script) = prompt script := by
  rfl

theorem prompt_fault
    {error : NetError}
    (serious : error ≠ .timeout)
    (script : List Inbound) :
    prompt (.fault error :: script) = .fault error :: prompt script := by
  cases error with
  | timeout => exact absurd rfl serious
  | network => rfl
  | networkClose => rfl

/-- The header loop of a string waits as long as it has to. -/
theorem recvNumber_prompt
    (marker : UInt8)
    (step : HeaderStep)
    (header : Bytes)
    (script : List Inbound) :
    recvNumber marker true step header (prompt script) =
      match recvNumber marker true step header script with
      | (rc, header, rest) => (rc, header, prompt rest) := by
  induction script generalizing step header with
  | nil => rfl
  | cons inbound script inductionHypothesis =>
      cases inbound with
      | fault error =>
          cases error with
          | timeout =>
              rw [prompt_timeout, inductionHypothesis step header]
              simp only [recvNumber]
              rfl
          | network =>
              rw [prompt_fault (by decide)]
              simp only [recvNumber]
              exact inductionHypothesis step header
          | networkClose =>
              rw [prompt_fault (by decide)]
              rfl
      | byte value =>
          rw [prompt_byte]
          cases step with
          | marker =>
              simp only [recvNumber]
              exact inductionHypothesis _ header
          | digits =>
              simp only [recvNumber]
              split
              · exact inductionHypothesis .lineFeed header
              · split
                · rfl
                · exact inductionHypothesis .digits (header ++ [value])
          | lineFeed =>
              simp only [recvNumber]
              split
              · rfl
              · rfl

/-- So does the content loop. -/
theorem recvContent_prompt
    (asked missing : Nat)
    (content : Bytes)
    (script : List Inbound) :
    recvContent asked missing content (prompt script) =
      match recvContent asked missing content script with
      | (rc, content, rest) => (rc, content, prompt rest) := by
  induction script generalizing missing content with
  | nil =>
      cases missing with
      | zero => simp [recvContent, prompt]
      | succ missing => simp [recvContent, prompt]
  | cons inbound script inductionHypothesis =>
      cases missing with
      | zero => simp [recvContent]
      | succ missing =>
          cases inbound with
          | fault error =>
              cases error with
              | timeout =>
                  rw [prompt_timeout, inductionHypothesis (missing + 1) content,
                    recvContent]
              | network =>
                  rw [prompt_fault (by decide), recvContent, recvContent]
                  exact inductionHypothesis asked []
              | networkClose =>
                  rw [prompt_fault (by decide)]
                  simp [recvContent]
          | byte value =>
              rw [prompt_byte, recvContent, recvContent]
              exact inductionHypothesis missing (content ++ [value])

theorem recvStrings_prompt
    (heap : Nat → Nat → Option Bytes)
    (count : Nat)
    (strings : List Bytes)
    (script : List Inbound) :
    recvStrings heap count strings (prompt script) =
      recvStrings heap count strings script := by
  induction count generalizing strings script with
  | zero => rfl
  | succ count inductionHypothesis =>
      have number := recvNumber_prompt 36 .marker [] script
      rcases received : recvNumber 36 true .marker [] script with
        ⟨rc, header, rest⟩
      rw [received] at number
      rw [recvStrings, recvStrings, number, received]
      dsimp only
      have content := recvContent_prompt (toInt32 (strtol header).toNat).toNat
        (toInt32 (strtol header).toNat).toNat [] rest
      rcases collected : recvContent (toInt32 (strtol header).toNat).toNat
        (toInt32 (strtol header).toNat).toNat [] rest with ⟨rc', raw, rest'⟩
      rw [collected] at content
      rw [content]
      simp only [inductionHypothesis]

/-- The first line of an encoded command. -/
def arrayLine (raw : List Bytes) : Bytes :=
  str "*" ++ intToDecimal (toInt32 raw.length) ++ str "\r\n"

/-- `recvCommand` gives back the command however the bytes after its first line
are delayed.  Each of its reads asks for a fixed number of bytes, so timeouts
are all that it sees of the chunks in which they arrive. -/
theorem recvCommand_delayed
    (heap : Nat → Nat → Option Bytes)
    {raw : List Bytes}
    (small : (getRESPArry raw).length < 2 ^ 31)
    {rest : Bytes}
    {later : List Inbound}
    (arrives : prompt later = sent (raw.flatMap getStringMessage ++ rest)) :
    recvCommand heap (sent (arrayLine raw) ++ later) = some (kvOk, raw) := by
  have countSmall : raw.length < 2 ^ 31 := length_lt_of_getRESPArry_lt small
  have line : arrayLine raw = 42 :: (toDecimal raw.length ++ str "\r\n") := by
    rw [arrayLine, toInt32_of_lt countSmall]
    rfl
  have undelayed := recvCommand_getRESPArry heap small (sent rest)
  have split : sent (getRESPArry raw) ++ sent rest =
      sent (arrayLine raw) ++ prompt later := by
    rw [arrives, ← sent_append, ← sent_append, getRESPArry, arrayLine]
    simp only [List.append_assoc]
  rw [split] at undelayed
  rw [recvCommand, line, recvNumber_toDecimal] at undelayed ⊢
  dsimp only at undelayed ⊢
  rw [recvStrings_prompt] at undelayed
  exact undelayed

/-- Decoding undoes encoding: in `parserRESPArry`, in `recvCommand`, in
`parserIntergerMessage` and `parserSuccessMessage`, and so for messages one
after the other. -/
theorem resp_decoded :
    (∀ raw : List Bytes, (getRESPArry raw).length < 2 ^ 31 → ∀ rest,
      parserRESPArry (getRESPArry raw ++ rest) =
          some (raw, (getRESPArry raw).length) ∧
        ∀ heap later,
          prompt later = sent (raw.flatMap getStringMessage ++ rest) →
            recvCommand heap (sent (arrayLine raw) ++ later) =
              some (kvOk, raw)) ∧
    (∀ raw : Int, -2 ^ 31 ≤ raw → raw < 2 ^ 31 → ∀ rest,
      parserIntergerMessage (getIntergerMessage raw ++ rest) =
        some (raw, (getIntergerMessage raw).length)) ∧
    (∀ rest,
      parserSuccessMessage (getSuccessMessage ++ rest) =
          some (true, getSuccessMessage.length) ∧
        parserSuccessMessage (getErrorMessage ++ rest) =
          some (false, getErrorMessage.length)) ∧
    ∀ messages : List Resp, (∀ message ∈ messages, message.Fits) → ∀ rest,
      Resp.decodeAllLike (messages.flatMap Resp.encode ++ rest)
          messages =
        some (messages, (messages.flatMap Resp.encode).length) := by
  refine ⟨?_, ?_, ?_, ?_⟩
  · intro raw small rest
    refine ⟨parserRESPArry_getRESPArry small rest, ?_⟩
    intro heap later arrives
    exact recvCommand_delayed heap small arrives
  · intro raw lower upper rest
    exact parserIntergerMessage_getIntergerMessage lower upper rest
  · intro rest
    exact ⟨rfl, rfl⟩
  · intro messages fits rest
    exact Resp.decodeAllLike_flatMap fits rest

/-- A string with a line end and a marker in it, the smallest `int`, and a
delay in the midst of a content. -/
theorem resp_decoded_markers :
    parserRESPArry (getRESPArry [str "GET", str "\r\n$1"] ++ str "x") =
        some ([str "GET", str "\r\n$1"], 23) ∧
      recvCommand (fun _ _ => none)
          (sent (str "*1\r\n$2\r\n$") ++
            .fault .timeout :: sent (str "*\r\n")) =
        some (kvOk, [str "$*"]) ∧
      parserIntergerMessage (getIntergerMessage (-2147483648)) =
        some (-2147483648, 14) ∧
      Resp.decodeAllLike (str "+OK\r\n:-7\r\n$0\r\n\r\n")
          [.status true, .integer (-7), .string []] =
        some ([.status true, .integer (-7), .string []], 16) := by
  obtain ⟨arrays, integers, _, messages⟩ := resp_decoded
  refine ⟨?_, ?_, ?_, ?_⟩
  · exact (arrays [str "GET", str "\r\n$1"] (by decide) (str "x")).1
  · exact (arrays [str "$*"] (by decide) []).2 (fun _ _ => none)
      (sent (str "$2\r\n$") ++ .fault .timeout :: sent (str "*\r\n"))
      (by decide)
  · exact integers (-2147483648) (by decide) (by decide) []
  · have text : [Resp.status true, .integer (-7), .string []].flatMap
        Resp.encode = str "+OK\r\n:-7\r\n$0\r\n\r\n" := by decide
    have decoded := messages [.status true, .integer (-7), .string []]
      (by simp [Resp.Fits]) []
    rw [text] at decoded
    exact decoded

end Network
end Lab3
end CloudComputing
