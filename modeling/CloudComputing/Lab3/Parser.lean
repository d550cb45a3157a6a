import CloudComputing.Lab3.Core

/-!
# RESP messages

The encoders and the buffer decoder of `parser.cc`.  A decoder result `none`
stands for a failed assertion or a read outside the buffer.  The decoder
computes positions from the length of the re-printed number, so the round trip
rests on the printed form being canonical.
-/

namespace CloudComputing
namespace Lab3
namespace Parser

open Decimal

/-- `getStringMessage`: `$7\r\nCS06142\r\n` -/
def getStringMessage (raw : Bytes) : Bytes :=
  str "$" ++ intToDecimal (toInt32 raw.length) ++ str "\r\n" ++ raw ++
    str "\r\n"

/-- `getSuccessMessage` -/
def getSuccessMessage : Bytes := str "+OK\r\n"

/-- `getErrorMessage` -/
def getErrorMessage : Bytes := str "-ERROR\r\n"

/-- `getIntergerMessage`: `:10\r\n` -/
def getIntergerMessage (raw : Int) : Bytes :=
  str ":" ++ intToDecimal raw ++ str "\r\n"

/-- `getRESPArry` of a vector -/
def getRESPArry (raw : List Bytes) : Bytes :=
  str "*" ++ intToDecimal (toInt32 raw.length) ++ str "\r\n" ++
    raw.flatMap getStringMessage

/-- `getRESPArry` of a single string -/
def getRESPArryOfString (raw : Bytes) : Bytes :=
  str "*" ++ intToDecimal 1 ++ str "\r\n" ++ getStringMessage raw

/-- `parseStringMessage`: the string at the head of the buffer and the length
of its message. -/
def parseStringMessage : Bytes → Option (Bytes × Nat)
  | 36 :: text =>
      let strl := atoi text
      let pos := 3 + (intToDecimal strl).length
      if strl < 0 ∨ (36 :: text).length < pos + strl.toNat then none
      else some
        (((36 :: text).drop pos).take strl.toNat, pos + strl.toNat + 2)
  | _ => none

/-- The loop of `parserRESPArry` from position `pos` on. -/
def parserElements (message : Bytes) : Nat → Nat → Option (List Bytes × Nat)
  | 0, pos => some ([], pos)
  | number + 1, pos => do
      let (tmp, len) ← parseStringMessage (message.drop pos)
      let (rest, stop) ← parserElements message number (pos + len)
      some (tmp :: rest, stop)

/-- `parserRESPArry`: the strings of an array message and its length. -/
def parserRESPArry : Bytes → Option (List Bytes × Nat)
  | 42 :: text =>
      let number := atoi text
      let pos := (intToDecimal number).length + 3
      parserElements (42 :: text) number.toNat pos
  | _ => none

/-- `parserIntergerMessage`: the number and the length of its message. -/
def parserIntergerMessage : Bytes → Option (Int × Nat)
  | 58 :: text =>
      let rc := atoi text
      some (rc, 3 + (intToDecimal rc).length)
  | _ => none

/-- `parserSuccessMessage`: the status and the length of its message. -/
def parserSuccessMessage : Bytes → Option (Bool × Nat)
  | 43 :: _ => some (true, 5)
  | 45 :: _ => some (false, 8)
  | _ => none

/-! ## Encoded lengths -/

/-- `\r` is not a digit, so it ends every printed number. -/
theorem endsNumber_crlf (rest : Bytes) :
    EndsNumber (str "\r\n" ++ rest) :=
  EndsNumber.cons (by decide) _

theorem getStringMessage_of_lt
    {raw : Bytes}
    (small : raw.length < 2 ^ 31) :
    getStringMessage raw =
      36 :: (toDecimal raw.length ++ (str "\r\n" ++ (raw ++ str "\r\n"))) := by
  rw [getStringMessage, toInt32_of_lt small, intToDecimal_natCast]
  simp only [List.append_assoc]
  rfl

theorem length_getStringMessage_of_lt
    {raw : Bytes}
    (small : raw.length < 2 ^ 31) :
    (getStringMessage raw).length =
      (toDecimal raw.length).length + raw.length + 5 := by
  rw [getStringMessage_of_lt small]
  simp only [List.length_cons, List.length_append,
    show (str "\r\n").length = 2 by rfl]
  omega

/-- An element is shorter than the message that carries it. -/
theorem length_lt_getStringMessage (raw : Bytes) :
    raw.length + 5 ≤ (getStringMessage raw).length := by
  simp only [getStringMessage, List.length_append,
    show (str "\r\n").length = 2 by rfl, show (str "$").length = 1 by rfl]
  omega

theorem length_flatMap_getStringMessage (raw : List Bytes) :
    raw.length ≤ (raw.flatMap getStringMessage).length := by
  induction raw with
  | nil => simp
  | cons head tail inductionHypothesis =>
      have := length_lt_getStringMessage head
      simp only [List.flatMap_cons, List.length_append, List.length_cons]
      omega

theorem length_le_flatMap_getStringMessage
    {raw : List Bytes}
    {element : Bytes}
    (member : element ∈ raw) :
    element.length ≤ (raw.flatMap getStringMessage).length := by
  induction raw with
  | nil => simp at member
  | cons head tail inductionHypothesis =>
      have headBound := length_lt_getStringMessage head
      simp only [List.flatMap_cons, List.length_append]
      rcases List.mem_cons.mp member with equal | inTail
      · rw [equal]
        omega
      · have := inductionHypothesis inTail
        omega

theorem length_flatMap_le_getRESPArry (raw : List Bytes) :
    (raw.flatMap getStringMessage).length ≤ (getRESPArry raw).length := by
  simp only [getRESPArry, List.length_append]
  omega

/-- The number of elements of an encoded vector is below its length. -/
theorem length_lt_of_getRESPArry_lt
    {raw : List Bytes}
    {bound : Nat}
    (small : (getRESPArry raw).length < bound) :
    raw.length < bound :=
  Nat.lt_of_le_of_lt
    ((length_flatMap_getStringMessage raw).trans
      (length_flatMap_le_getRESPArry raw))
    small

/-- Every element of an encoded vector is shorter than its encoding. -/
theorem element_length_lt_of_getRESPArry_lt
    {raw : List Bytes}
    {bound : Nat}
    (small : (getRESPArry raw).length < bound)
    {element : Bytes}
    (member : element ∈ raw) :
    element.length < bound :=
  Nat.lt_of_le_of_lt
    ((length_le_flatMap_getStringMessage member).trans
      (length_flatMap_le_getRESPArry raw))
    small

theorem getRESPArry_of_lt
    {raw : List Bytes}
    (small : raw.length < 2 ^ 31) :
    getRESPArry raw =
      42 :: (toDecimal raw.length ++
        (str "\r\n" ++ raw.flatMap getStringMessage)) := by
  rw [getRESPArry, toInt32_of_lt small, intToDecimal_natCast]
  simp only [List.append_assoc]
  rfl

/-! ## Decoding undoes encoding -/

/-- A string message is decoded whatever bytes follow it. -/
theorem parseStringMessage_getStringMessage
    {raw : Bytes}
    (small : raw.length < 2 ^ 31)
    (rest : Bytes) :
    parseStringMessage (getStringMessage raw ++ rest) =
      some (raw, (getStringMessage raw).length) := by
  have textValue :
      atoi (toDecimal raw.length ++
        (str "\r\n" ++ (raw ++ (str "\r\n" ++ rest)))) = raw.length :=
    atoi_toDecimal_append small (endsNumber_crlf _)
  have payload :
      (36 :: (toDecimal raw.length ++
        (str "\r\n" ++ (raw ++ (str "\r\n" ++ rest))))).drop
          (3 + (toDecimal raw.length).length) =
        raw ++ (str "\r\n" ++ rest) := by
    have split :
        36 :: (toDecimal raw.length ++
            (str "\r\n" ++ (raw ++ (str "\r\n" ++ rest)))) =
          (36 :: (toDecimal raw.length ++ str "\r\n")) ++
            (raw ++ (str "\r\n" ++ rest)) := by simp
    rw [split]
    exact List.drop_left' (by
      simp only [List.length_cons, List.length_append,
        show (str "\r\n").length = 2 by rfl]
      omega)
  rw [length_getStringMessage_of_lt small, getStringMessage_of_lt small]
  simp only [List.cons_append, List.append_assoc]
  rw [parseStringMessage, textValue, intToDecimal_natCast, Int.toNat_natCast]
  rw [if_neg, payload, List.take_left]
  · congr 2
    omega
  · simp only [List.length_cons, List.length_append,
      show (str "\r\n").length = 2 by rfl]
    omega

/-- The element loop decodes a run of string messages that starts at its
position. -/
theorem parserElements_flatMap
    (raw : List Bytes)
    (small : ∀ element ∈ raw, element.length < 2 ^ 31)
    (before rest : Bytes) :
    parserElements (before ++ raw.flatMap getStringMessage ++ rest)
        raw.length before.length =
      some (raw,
        before.length + (raw.flatMap getStringMessage).length) := by
  induction raw generalizing before with
  | nil => simp [parserElements]
  | cons head tail inductionHypothesis =>
      have headSmall : head.length < 2 ^ 31 := small head (by simp)
      have next := inductionHypothesis
        (fun element member => small element (List.mem_cons_of_mem head member))
        (before ++ getStringMessage head)
      simp only [List.append_assoc, List.length_append] at next
      simp only [List.flatMap_cons, List.append_assoc, List.length_cons,
        List.length_append, parserElements, List.drop_left]
      rw [parseStringMessage_getStringMessage headSmall]
      simp only [Option.bind_eq_bind, Option.bind_some]
      rw [next]
      simp only [Option.bind_some, Option.some.injEq, Prod.mk.injEq, true_and]
      omega

/-- `parserRESPArry` inverts `getRESPArry` and reports the encoded length. -/
theorem parserRESPArry_getRESPArry
    {raw : List Bytes}
    (small : (getRESPArry raw).length < 2 ^ 31)
    (rest : Bytes) :
    parserRESPArry (getRESPArry raw ++ rest) =
      some (raw, (getRESPArry raw).length) := by
  have countSmall : raw.length < 2 ^ 31 := length_lt_of_getRESPArry_lt small
  have textValue :
      atoi (toDecimal raw.length ++
        (str "\r\n" ++ (raw.flatMap getStringMessage ++ rest))) =
          raw.length :=
    atoi_toDecimal_append countSmall (endsNumber_crlf _)
  have elements := parserElements_flatMap raw
    (fun element member => element_length_lt_of_getRESPArry_lt small member)
    (42 :: (toDecimal raw.length ++ str "\r\n")) rest
  rw [getRESPArry_of_lt countSmall]
  simp only [List.cons_append, List.append_assoc] at elements ⊢
  rw [parserRESPArry, textValue, intToDecimal_natCast, Int.toNat_natCast]
  simp only [List.length_cons, List.length_append,
    show (str "\r\n").length = 2 by rfl] at elements ⊢
  rw [show (toDecimal raw.length).length + 3 =
      (toDecimal raw.length).length + 2 + 1 by omega, elements]
  congr 2
  omega

/-- Commands with the same text are the same. -/
theorem getRESPArry_injective
    {raw other : List Bytes}
    (small : (getRESPArry raw).length < 2 ^ 31)
    (same : getRESPArry raw = getRESPArry other) :
    raw = other := by
  have decoded := parserRESPArry_getRESPArry small []
  rw [same, parserRESPArry_getRESPArry (same ▸ small) []] at decoded
  exact (congrArg Prod.fst (Option.some.inj decoded)).symm

/-- `parserIntergerMessage` inverts `getIntergerMessage` and reports the encoded
length. -/
theorem parserIntergerMessage_getIntergerMessage
    {raw : Int}
    (lower : -2 ^ 31 ≤ raw)
    (upper : raw < 2 ^ 31)
    (rest : Bytes) :
    parserIntergerMessage (getIntergerMessage raw ++ rest) =
      some (raw, (getIntergerMessage raw).length) := by
  have text : getIntergerMessage raw ++ rest =
      58 :: (intToDecimal raw ++ (str "\r\n" ++ rest)) := by
    simp only [getIntergerMessage, List.append_assoc]
    rfl
  have value := atoi_intToDecimal_append lower upper (endsNumber_crlf rest)
  rw [text, parserIntergerMessage]
  simp only [value, getIntergerMessage, List.length_append,
    show (str ":").length = 1 by rfl, show (str "\r\n").length = 2 by rfl]
  congr 2
  omega

/-! ## Messages one after the other -/

/-- A message of one of the four kinds that have a decoder. -/
inductive Resp
  | string (raw : Bytes)
  | array (raw : List Bytes)
  | integer (raw : Int)
  | status (success : Bool)
  deriving DecidableEq, Repr

namespace Resp

/-- The encoded message. -/
def encode : Resp → Bytes
  | .string raw => getStringMessage raw
  | .array raw => getRESPArry raw
  | .integer raw => getIntergerMessage raw
  | .status true => getSuccessMessage
  | .status false => getErrorMessage

/-- The lengths and numbers fit an `int`. -/
def Fits : Resp → Prop
  | .string raw => raw.length < 2 ^ 31
  | .array raw => (getRESPArry raw).length < 2 ^ 31
  | .integer raw => -2 ^ 31 ≤ raw ∧ raw < 2 ^ 31
  | .status _ => True

/-- Decode a message of the same kind as this one at the head of the
buffer. -/
def decodeLike (text : Bytes) : Resp → Option (Resp × Nat)
  | .string _ => (parseStringMessage text).map fun (raw, length) =>
      (.string raw, length)
  | .array _ => (parserRESPArry text).map fun (raw, length) =>
      (.array raw, length)
  | .integer _ => (parserIntergerMessage text).map fun (raw, length) =>
      (.integer raw, length)
  | .status _ => (parserSuccessMessage text).map fun (success, length) =>
      (.status success, length)

/-- Decode messages of the same kinds one after the other, each at the position
that the lengths of the messages before it give. -/
def decodeAllLike (text : Bytes) : List Resp → Option (List Resp × Nat)
  | [] => some ([], 0)
  | like :: others => do
      let (message, length) ← decodeLike text like
      let (messages, stop) ← decodeAllLike (text.drop length) others
      some (message :: messages, length + stop)

/-- Every decoder inverts its encoder and reports the encoded length. -/
theorem decodeLike_encode
    {message : Resp}
    (fits : message.Fits)
    (rest : Bytes) :
    decodeLike (message.encode ++ rest) message =
      some (message, message.encode.length) := by
  cases message with
  | string raw =>
      simp only [decodeLike, encode, Option.map_some,
        parseStringMessage_getStringMessage fits]
  | array raw =>
      simp only [decodeLike, encode, Option.map_some,
        parserRESPArry_getRESPArry fits]
  | integer raw =>
      simp only [decodeLike, encode, Option.map_some,
        parserIntergerMessage_getIntergerMessage fits.1 fits.2]
  | status success =>
      cases success with
      | true => rfl
      | false => rfl

theorem decodeAllLike_flatMap
    {messages : List Resp}
    (fits : ∀ message ∈ messages, message.Fits)
    (rest : Bytes) :
    decodeAllLike (messages.flatMap encode ++ rest) messages =
      some (messages, (messages.flatMap encode).length) := by
  induction messages with
  | nil => rfl
  | cons message messages inductionHypothesis =>
      have others := inductionHypothesis fun other member =>
        fits other (List.mem_cons_of_mem message member)
      simp only [List.flatMap_cons, List.append_assoc, decodeAllLike,
        decodeLike_encode (fits message (by simp)), Option.bind_eq_bind,
        Option.bind_some, List.drop_left, others, List.length_append]

end Resp
end Parser
end Lab3
end CloudComputing
