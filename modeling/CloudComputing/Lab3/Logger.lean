import CloudComputing.Lab3.Core

/-!
# Log records and their text form

`Log`, its text form `TXID: <id>\r\nS: <state>\r\n\r\n<event>` and the `Logger`
of `logger.cc`.  A result `none` stands for a failed assertion (or an exception
of `substr`), which ends the process.
-/

namespace CloudComputing
namespace Lab3

open Decimal

/-- `logState`, an enumeration stored in one byte.  A cast may produce a value
without a name. -/
inductive LogState
  | invalid
  | pre
  | commit
  | abort
  | unnamed (code : Nat)
  deriving DecidableEq, Repr

/-- Numeric value of a log state. -/
def LogState.code : LogState → Nat
  | .invalid => 0
  | .pre => 1
  | .commit => 2
  | .abort => 3
  | .unnamed code => code

/-- The cast `(logState)` from a `long`. -/
def LogState.ofLong (number : Int) : LogState :=
  match (number % 256).toNat with
  | 0 => .invalid
  | 1 => .pre
  | 2 => .commit
  | 3 => .abort
  | code => .unnamed code

/-- `Log` -/
structure Log where
  /-- Transaction number. -/
  ID : Nat
  /-- State of the transaction. -/
  state : LogState
  /-- The client command, as a RESP array. -/
  event : Bytes
  deriving DecidableEq, Repr

namespace Log

/-- `logToStr` -/
def logToStr (log : Log) : Bytes :=
  str "TXID: " ++ toDecimal log.ID ++ str "\r\n" ++
    str "S: " ++ toDecimal log.state.code ++ str "\r\n\r\n" ++ log.event

/-- `strToLog` -/
def strToLog (text : Bytes) : Option Log := do
  let start ← Bytes.find (str "TXID: ") text
  let stop ← Bytes.find (str "\r\n") text
  let sID ← Bytes.substr text (start + 6) ((stop : Int) - start - 6)
  let text ← Bytes.substrFrom text (stop + 2)
  let start ← Bytes.find (str "S: ") text
  let stop ← Bytes.find (str "\r\n") text
  let sState ← Bytes.substr text (start + 3) ((stop : Int) - start - 3)
  let event ← Bytes.substrFrom text (stop + 4)
  some
    { ID := toUInt64 (strtol sID)
      state := .ofLong (strtol sState)
      event := event }

/-- The transaction number read back from a printed one: exact below `2 ^ 63`,
saturated by `strtol` from there on. -/
def readTxid (id : Nat) : Nat := min (2 ^ 63 - 1) id

theorem readTxid_of_lt
    {id : Nat}
    (small : id < 2 ^ 63) :
    readTxid id = id := by
  simp only [readTxid]
  omega

theorem readTxid_lt (id : Nat) : readTxid id < 2 ^ 63 := by
  simp only [readTxid]
  omega

theorem toUInt64_strtol_toDecimal (id : Nat) :
    toUInt64 (strtol (toDecimal id)) = readTxid id := by
  rw [strtol_toDecimal]
  simp only [toUInt64, longMax, readTxid]
  omega

/-- A number between a label without `\r` and a line end is cut out exactly. -/
theorem find_substr_number
    (label rest : Bytes)
    (number : Nat)
    (labelClean : (13 : UInt8) ∉ label) :
    Bytes.find label
        (label ++ (toDecimal number ++ (str "\r\n" ++ rest))) = some 0 ∧
      Bytes.find (str "\r\n")
          (label ++ (toDecimal number ++ (str "\r\n" ++ rest))) =
        some (label.length + (toDecimal number).length) ∧
      Bytes.substr
          (label ++ (toDecimal number ++ (str "\r\n" ++ rest)))
          label.length (toDecimal number).length =
        some (toDecimal number) := by
  refine ⟨Bytes.find_append_self _ _, ?_, ?_⟩
  · have clean : (13 : UInt8) ∉ label ++ toDecimal number := by
      simp only [List.mem_append, not_or]
      exact ⟨labelClean, not_mem_toDecimal (by decide)⟩
    have found := Bytes.find_append_of_head_not_mem 13 [10]
      (label ++ toDecimal number) rest clean
    simp only [List.append_assoc, List.length_append] at found
    exact found
  · have cut := Bytes.substr_append label (toDecimal number)
      (str "\r\n" ++ rest)
    simpa only [List.append_assoc] using cut

/-- Decoding the text of a record gives the record back, up to the saturation
of its number. -/
theorem strToLog_logToStr_eq
    (log : Log)
    (named : LogState.ofLong log.state.code = log.state)
    (short : log.state.code < 256) :
    strToLog log.logToStr = some { log with ID := readTxid log.ID } := by
  have body :
      str "S: " ++ (toDecimal log.state.code ++
        (str "\r\n" ++ (str "\r\n" ++ log.event))) =
        (str "S: " ++ (toDecimal log.state.code ++ str "\r\n\r\n")) ++
          log.event := by
    simp only [List.append_assoc]
    rfl
  have text :
      log.logToStr =
        str "TXID: " ++ (toDecimal log.ID ++ (str "\r\n" ++
          (str "S: " ++ (toDecimal log.state.code ++
            (str "\r\n" ++ (str "\r\n" ++ log.event)))))) := by
    rw [body, logToStr]
    simp only [List.append_assoc]
  have stateValue : strtol (toDecimal log.state.code) = log.state.code := by
    rw [strtol_toDecimal]
    exact min_eq_right (by simp only [longMax]; omega)
  obtain ⟨foundLabel, foundEnd, cut⟩ := find_substr_number (str "TXID: ")
    (str "S: " ++ (toDecimal log.state.code ++
      (str "\r\n" ++ (str "\r\n" ++ log.event)))) log.ID (by decide)
  obtain ⟨foundLabel', foundEnd', cut'⟩ := find_substr_number (str "S: ")
    (str "\r\n" ++ log.event) log.state.code (by decide)
  have tail := Bytes.substrFrom_append
    (str "TXID: " ++ toDecimal log.ID ++ str "\r\n")
    (str "S: " ++ (toDecimal log.state.code ++
      (str "\r\n" ++ (str "\r\n" ++ log.event))))
  have eventTail := Bytes.substrFrom_append
    (str "S: " ++ (toDecimal log.state.code ++ str "\r\n\r\n")) log.event
  rw [← body] at eventTail
  simp only [List.append_assoc, List.length_append,
    show (str "TXID: ").length = 6 by rfl, show (str "S: ").length = 3 by rfl,
    show (str "\r\n").length = 2 by rfl,
    show (str "\r\n\r\n").length = 4 by rfl]
    at foundEnd cut tail foundEnd' cut' eventTail
  rw [text, strToLog]
  simp only [Option.bind_eq_bind, foundLabel, foundEnd, Option.bind_some,
    Nat.zero_add]
  rw [show ((6 + (toDecimal log.ID).length : Nat) : Int) - (0 : Nat) - 6 =
    (toDecimal log.ID).length by omega, cut]
  simp only [Option.bind_some]
  rw [show 6 + (toDecimal log.ID).length + 2 =
    6 + ((toDecimal log.ID).length + 2) by omega, tail]
  simp only [foundLabel', foundEnd', Option.bind_some, Nat.zero_add]
  rw [show ((3 + (toDecimal log.state.code).length : Nat) : Int) -
    (0 : Nat) - 3 = (toDecimal log.state.code).length by omega, cut']
  simp only [Option.bind_some]
  rw [show 3 + (toDecimal log.state.code).length + 4 =
    3 + ((toDecimal log.state.code).length + 4) by omega, eventTail]
  simp only [Option.bind_some, toUInt64_strtol_toDecimal, stateValue, named]

/-- The states that a byte can hold are read back from their numbers. -/
theorem ofLong_code
    (byte : UInt8) :
    LogState.ofLong (LogState.ofLong byte.toNat).code =
        LogState.ofLong byte.toNat ∧
      (LogState.ofLong byte.toNat).code < 256 := by
  have bound := byte.toNat_lt
  have value : ((byte.toNat : Int) % 256).toNat = byte.toNat := by omega
  have code : (LogState.ofLong byte.toNat).code = byte.toNat := by
    unfold LogState.ofLong
    rw [value]
    split <;> simp_all [LogState.code]
  rw [code]
  exact ⟨rfl, bound⟩

/-- A record is read back from its text, whatever the bytes of its event. -/
theorem round_trips
    {id : Nat}
    (small : id < 2 ^ 63)
    (byte : UInt8)
    (event : Bytes) :
    strToLog (logToStr ⟨id, .ofLong byte.toNat, event⟩) =
      some ⟨id, .ofLong byte.toNat, event⟩ := by
  obtain ⟨named, short⟩ := ofLong_code byte
  rw [strToLog_logToStr_eq ⟨id, .ofLong byte.toNat, event⟩ named short,
    readTxid_of_lt small]

/-- An event that looks like another record. -/
theorem round_trips_nested :
    strToLog (logToStr ⟨7, .commit, str "TXID: 9\r\nS: 1\r\n\r\nx"⟩) =
      some ⟨7, .commit, str "TXID: 9\r\nS: 1\r\n\r\nx"⟩ :=
  round_trips (by decide) 2 _

/-- Records in one of the four named states are read back from their text. -/
theorem strToLog_logToStr
    (id : Nat)
    (event : Bytes)
    {state : LogState}
    (named : ∀ code, state ≠ .unnamed code) :
    strToLog (logToStr ⟨id, state, event⟩) =
      some ⟨readTxid id, state, event⟩ := by
  cases state with
  | unnamed code => exact absurd rfl (named code)
  | invalid => exact strToLog_logToStr_eq ⟨id, .invalid, event⟩ rfl (by simp [LogState.code])
  | pre => exact strToLog_logToStr_eq ⟨id, .pre, event⟩ rfl (by simp [LogState.code])
  | commit => exact strToLog_logToStr_eq ⟨id, .commit, event⟩ rfl (by simp [LogState.code])
  | abort => exact strToLog_logToStr_eq ⟨id, .abort, event⟩ rfl (by simp [LogState.code])

end Log

/-- The map `_l` of a `Logger`. -/
abbrev Logger := Nat → Option Log

namespace Logger

/-- A freshly constructed `Logger`. -/
def empty : Logger := fun _ => none

/-- `writeLog` -/
def writeLog (lg : Logger) (log : Log) : Logger :=
  Function.update lg log.ID (some log)

/-- `chageLogState`, with the assertion that the entry exists. -/
def chageLogState (lg : Logger) (id : Nat) (newState : LogState) :
    Option Logger :=
  (lg id).map fun log =>
    Function.update lg id (some { log with state := newState })

/-- `getLogByTXID`, with the assertion that the entry exists. -/
def getLogByTXID (lg : Logger) (id : Nat) : Option Log := lg id

@[simp] theorem empty_apply (id : Nat) : empty id = none := rfl

@[simp] theorem writeLog_self (lg : Logger) (log : Log) :
    lg.writeLog log log.ID = some log := by
  simp [writeLog]

theorem writeLog_of_ne
    (lg : Logger)
    (log : Log)
    {id : Nat}
    (different : id ≠ log.ID) :
    lg.writeLog log id = lg id := by
  simp [writeLog, different]

/-- Writing a record and then changing its state is writing the changed
record. -/
theorem chageLogState_writeLog
    (lg : Logger)
    (log : Log)
    (newState : LogState) :
    (lg.writeLog log).chageLogState log.ID newState =
      some (lg.writeLog { log with state := newState }) := by
  simp [chageLogState, writeLog]

end Logger
end Lab3
end CloudComputing
