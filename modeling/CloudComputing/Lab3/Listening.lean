import CloudComputing.Lab3.OssSocket
import CloudComputing.Lab3.Silent
import CloudComputing.Lib.Runs

/-!
# The coordinator's end of a client's connection

`Working` a system call at a time: `recvCommand` with its calls of `recvNF` and
`recv`, and `sendResult`.  Whatever a client sends and the system calls answer,
`recvCommand` has received what it makes of some bytes and errors, and the bytes
are those that the client has sent.

A string of `2 ^ 31` bytes or more, whose length no `int` holds, has no step.
-/

namespace CloudComputing
namespace Lab3

open Decimal CloudComputing.Lab3.Parser Network
open CloudComputing.Lab3.OssSocket (Answer Call Progress Collects CollectStep
  Sends SendStep Takes TakeStep maxRecvRetries)

namespace Listening

/-! ## `Working` -/

/-- Where `Working` is: in the three loops of `recvCommand`, behind it with the
strings it has received, in `sendResult`, and behind it and `close`. -/
inductive Server
  | count (step : HeaderStep) (header : Bytes) (call : Call)
  | length
      (step : HeaderStep)
      (header : Bytes)
      (left : Nat)
      (strings : List Bytes)
      (call : Call)
  | content (contentLen left : Nat) (strings : List Bytes) (call : Call)
  | worker (task : List Bytes)
  | sending (call : Call)
  | closed
  deriving DecidableEq, Repr

namespace Server

/-- The loop over the strings, with so many to go. -/
def nextString (strings : List Bytes) : Nat → Server
  | 0 => .worker strings
  | left + 1 => .length .marker [] left strings (.recvNFSelect 1)

/-- The loop for a content, which makes no call for an empty one. -/
def beginContent
    (contentLen left : Nat)
    (strings : List Bytes) : Option Server :=
  if 2 ^ 31 ≤ contentLen then none
  else if contentLen = 0 then some (nextString (strings ++ [[]]) left)
  else some (.content contentLen left strings (.recvSelect contentLen))

/-- A byte in the loop for the number of strings. -/
def countByte (value : UInt8) (step : HeaderStep) (header : Bytes) : Server :=
  match headerByte 42 header value step with
  | .more step header => .count step header (.recvNFSelect 1)
  | .complete header => nextString [] (strtol header).toNat
  | .bad => .worker []

/-- A byte in the loop for the header of a string. -/
def lengthByte
    (value : UInt8)
    (step : HeaderStep)
    (header : Bytes)
    (left : Nat)
    (strings : List Bytes) : Option Server :=
  match headerByte 36 header value step with
  | .more step header =>
      some (.length step header left strings (.recvNFSelect 1))
  | .complete header => beginContent (strtol header).toNat left strings
  | .bad => some (.worker strings)

/-- The call that it is in. -/
def call : Server → Option Call
  | .count _ _ call => some call
  | .length _ _ _ _ call => some call
  | .content _ _ _ call => some call
  | .worker _ => none
  | .sending call => some call
  | .closed => none

/-- What comes of the call.  The codes of `recvCommand` and `sendResult` are
not looked at. -/
def after (progress : Progress) : Server → Option Server
  | .count step header _ =>
      match progress with
      | .goesOn call => some (.count step header call)
      | .returns data => data.head?.map fun value => countByte value step header
      | .fails _ => some (.worker [])
  | .length step header left strings _ =>
      match progress with
      | .goesOn call => some (.length step header left strings call)
      | .returns data => do
          let value ← data.head?
          lengthByte value step header left strings
      | .fails .networkClose => some (.worker strings)
      | .fails _ => some (.length step header left strings (.recvNFSelect 1))
  | .content contentLen left strings _ =>
      match progress with
      | .goesOn call => some (.content contentLen left strings call)
      | .returns data => some (nextString (strings ++ [data]) left)
      | .fails .networkClose => some (.worker strings)
      | .fails _ =>
          some (.content contentLen left strings (.recvSelect contentLen))
  | .worker _ => none
  | .sending _ =>
      match progress with
      | .goesOn call => some (.sending call)
      | _ => some .closed
  | .closed => none

/-- A system call: where it leads, the bytes that it writes, and what it leaves
of the bytes on their way. -/
def step
    (incoming : Bytes)
    (answer : Answer)
    (server : Server) : Option (Server × Bytes × Bytes) := do
  let call ← server.call
  let (progress, written, left) ← call.step incoming answer
  let server ← server.after progress
  some (server, written, left)

end Server

/-! ## What has been received -/

/-- Where `recvCommand` is between two events, with a part of a content in the
call. -/
inductive Reads : Server → Reception → Prop
  | count
      (step : HeaderStep)
      (header : Bytes)
      (call : Call)
      (takes : Takes 1 call) :
      Reads (.count step header call) (.count step header)
  | length
      (step : HeaderStep)
      (header : Bytes)
      (left : Nat)
      (strings : List Bytes)
      (call : Call)
      (takes : Takes 1 call) :
      Reads (.length step header left strings call)
        (.length step header left strings)
  | content
      (contentLen left : Nat)
      (strings : List Bytes)
      (received : Bytes)
      (call : Call)
      (collects : Collects contentLen received call)
      (positive : 0 < contentLen)
      (short : contentLen < 2 ^ 31) :
      Reads (.content contentLen left strings call)
        (.content contentLen received left strings)
  | worker (rc : Int) (task : List Bytes) :
      Reads (.worker task) (.returned rc task)

theorem Reads.nextString (strings : List Bytes) (left : Nat) :
    Reads (Server.nextString strings left)
      (Reception.nextString strings left) := by
  cases left with
  | zero => exact .worker _ _
  | succ left => exact .length _ _ _ _ _ .select

variable {heap : Nat → Nat → Option Bytes}
variable {incoming outgoing rest : Bytes} {answer : Answer}
variable {server next : Server} {reception : Reception}

theorem Reads.beginContent
    {contentLen left : Nat}
    {strings : List Bytes}
    (begun : Server.beginContent contentLen left strings = some next) :
    Reads next (Reception.beginContent heap contentLen left strings) := by
  unfold Server.beginContent at begun
  split at begun
  case isTrue => cases begun
  case isFalse short =>
    have short : contentLen < 2 ^ 31 := Nat.lt_of_not_le short
    have asked := toInt32_of_lt short
    have memory : ¬ NoMemory heap strings.length contentLen :=
      fun noMemory => absurd noMemory.1 (Nat.not_le_of_lt short)
    split at begun
    case isTrue none =>
      cases begun
      subst none
      rw [Reception.beginContent, if_neg (by omega), asked, Nat.cast_zero, if_pos rfl,
        Reception.pushString, contentString, if_pos short]
      exact .nextString _ _
    case isFalse some =>
      cases begun
      rw [Reception.beginContent_of_asked memory (by omega)]
      exact .content _ _ _ _ _ (.select rfl) (Nat.pos_of_ne_zero some) short

theorem Reads.countByte
    (heap : Nat → Nat → Option Bytes)
    (value : UInt8)
    (step : HeaderStep)
    (header : Bytes) :
    Reads (Server.countByte value step header)
      (Reception.step heap (.count step header) (.byte value)) := by
  have loop := Reception.countLoop heap
  unfold Server.countByte
  cases read : headerByte 42 header value step with
  | more later longer =>
      rw [loop.more read]
      exact .count _ _ _ .select
  | complete digits =>
      rw [loop.complete read]
      exact .nextString _ _
  | bad =>
      rw [loop.bad read]
      exact .worker _ _

theorem Reads.lengthByte
    {value : UInt8}
    {step : HeaderStep}
    {header : Bytes}
    {left : Nat}
    {strings : List Bytes}
    (read : Server.lengthByte value step header left strings = some next) :
    Reads next
      (Reception.step heap (.length step header left strings)
        (.byte value)) := by
  have loop := Reception.lengthLoop heap left strings
  unfold Server.lengthByte at read
  cases isRead : headerByte 36 header value step with
  | more later longer =>
      rw [isRead] at read
      cases read
      rw [loop.more isRead]
      exact .length _ _ _ _ _ .select
  | complete digits =>
      rw [isRead] at read
      rw [loop.complete isRead]
      exact .beginContent read
  | bad =>
      rw [isRead] at read
      cases read
      rw [loop.bad isRead]
      exact .worker _ _

/-- With these answers a call does not lose what it has received, and does not
find the connection closed. -/
def keeps : Call → Answer → Bool
  | _, .closed => false
  | .receiving _ _ retries, .failed errno =>
      errno = .eintr ∧ retries < maxRecvRetries
  | _, _ => true

/-- The error of a `select` is no closed connection. -/
theorem not_closed_of_select
    {call ready : Call}
    {error : NetError}
    (failed : OssSocket.select call ready answer = some (.fails error)) :
    error ≠ .networkClose := by
  rintro rfl
  unfold OssSocket.select at failed
  split at failed
  all_goals cases failed

theorem not_closed_of_takes
    {len : Nat}
    {call : Call}
    {error : NetError}
    (takes : Takes len call)
    (kept : keeps call answer = true)
    (taken : call.step incoming answer = some (.fails error, outgoing, rest)) :
    error ≠ .networkClose := by
  cases takes with
  | select =>
      obtain ⟨progress, selected, same⟩ := Option.map_eq_some_iff.mp taken
      cases same
      exact not_closed_of_select selected
  | receiving =>
      rintro rfl
      obtain ⟨⟨progress, left⟩, received, same⟩ :=
        Option.map_eq_some_iff.mp taken
      cases same
      unfold OssSocket.receivedNF at received
      split at received
      case h_1 => split at received <;> cases received
      case h_2 => cases kept
      case h_3 => cases received
      case h_4 => cases received

theorem nothing_of_collects
    {len : Nat}
    {got : Bytes}
    {call : Call}
    {error : NetError}
    (collects : Collects len got call)
    (kept : keeps call answer = true)
    (taken : call.step incoming answer = some (.fails error, outgoing, rest)) :
    error ≠ .networkClose ∧ got = [] := by
  cases collects with
  | select none =>
      obtain ⟨progress, selected, same⟩ := Option.map_eq_some_iff.mp taken
      cases same
      exact ⟨not_closed_of_select selected, none⟩
  | receiving missing retries positive sum =>
      obtain ⟨⟨progress, left⟩, received, same⟩ :=
        Option.map_eq_some_iff.mp taken
      cases same
      unfold OssSocket.received at received
      split at received
      case h_1 =>
        split at received
        case isTrue =>
          split at received <;> cases received
        case isFalse => cases received
      case h_2 => cases kept
      case h_3 errno =>
        rw [keeps, decide_eq_true_iff] at kept
        rw [if_pos kept] at received
        cases received
      case h_4 => cases received

/-- A timeout occurs only before the first byte. -/
theorem nothing_of_timeout
    {len : Nat}
    {got : Bytes}
    {call : Call}
    (collects : Collects len got call)
    (taken : call.step incoming answer =
      some (.fails .timeout, outgoing, rest)) :
    got = [] := by
  cases collects with
  | select none => exact none
  | receiving missing retries positive sum =>
      obtain ⟨⟨progress, left⟩, received, same⟩ :=
        Option.map_eq_some_iff.mp taken
      cases same
      unfold OssSocket.received at received
      split at received
      case h_1 =>
        split at received
        case isTrue =>
          split at received <;> cases received
        case isFalse => cases received
      case h_2 => cases received
      case h_3 =>
        split at received <;> cases received
      case h_4 => cases received

theorem length_lt_of_collects
    {len : Nat}
    {got : Bytes}
    {call : Call}
    (collects : Collects len got call)
    (positive : 0 < len) :
    got.length < len := by
  cases collects with
  | select none => rwa [none]
  | receiving missing retries some sum => omega

/-- The part of a content that is in the call. -/
def partOf : Reception → Bytes
  | .content _ received _ _ => received
  | _ => []

/-- What a system call of `recvCommand` is: some bytes of the client, or the end
of a call that has failed. -/
inductive ReadStep
    (heap : Nat → Nat → Option Bytes)
    (call : Call)
    (answer : Answer)
    (reception : Reception)
    (incoming : Bytes) : Server → Bytes → Prop
  | bytes
      (next : Server)
      (taken left : Bytes)
      (split : incoming = taken ++ left)
      (reads : Reads next (Reception.receive heap reception taken)) :
      ReadStep heap call answer reception incoming next left
  | fault
      (next : Server)
      (error : NetError)
      (failed : call.step incoming answer = some (.fails error, [], incoming))
      (harmless : keeps call answer = true →
        error ≠ .networkClose ∧ partOf reception = [])
      (reads : Reads next (Reception.step heap reception (.fault error))) :
      ReadStep heap call answer reception incoming next incoming

/-- A byte of `recvNF`. -/
theorem eq_singleton_of_takes
    {chunk : Bytes}
    (some : chunk ≠ [])
    (short : chunk.length ≤ 1) :
    ∃ value, chunk = [value] := by
  have positive := List.length_pos_iff.mpr some
  exact List.length_eq_one_iff.mp (by omega)

theorem Reads.step
    {call : Call}
    (reads : Reads server reception)
    (isCall : server.call = some call)
    (taken : server.step incoming answer = some (next, outgoing, rest)) :
    ReadStep heap call answer reception incoming next rest ∧
      outgoing = [] := by
  obtain ⟨called, isCalled, taken⟩ := Option.bind_eq_some_iff.mp taken
  obtain ⟨⟨progress, written, left⟩, stepped, taken⟩ :=
    Option.bind_eq_some_iff.mp taken
  obtain ⟨server, isNext, same⟩ := Option.bind_eq_some_iff.mp taken
  cases same
  rw [isCall, Option.some_inj] at isCalled
  subst isCalled
  cases reads with
  | count step header call takes =>
      cases isCall
      obtain ⟨outcome, none⟩ := takes.step stepped
      subst none
      refine ⟨?_, rfl⟩
      cases outcome with
      | goesOn call takes =>
          cases isNext
          exact .bytes _ [] _ rfl (.count _ _ _ takes)
      | returns chunk left split some short =>
          obtain ⟨value, rfl⟩ := eq_singleton_of_takes some short
          cases isNext
          exact .bytes _ _ _ split (.countByte heap value step header)
      | fails error =>
          cases isNext
          exact .fault _ error stepped
            (fun kept => ⟨not_closed_of_takes takes kept stepped, rfl⟩)
            (.worker _ _)
  | length step header left strings call takes =>
      cases isCall
      obtain ⟨outcome, none⟩ := takes.step stepped
      subst none
      refine ⟨?_, rfl⟩
      cases outcome with
      | goesOn call takes =>
          cases isNext
          exact .bytes _ [] _ rfl (.length _ _ _ _ _ takes)
      | returns chunk left split some short =>
          obtain ⟨value, rfl⟩ := eq_singleton_of_takes some short
          exact .bytes _ _ _ split (.lengthByte isNext)
      | fails error =>
          refine .fault _ error stepped
            (fun kept => ⟨not_closed_of_takes takes kept stepped, rfl⟩) ?_
          cases error with
          | timeout =>
              cases isNext
              exact .length _ _ _ _ _ .select
          | network =>
              cases isNext
              exact .length _ _ _ _ _ .select
          | networkClose =>
              cases isNext
              exact .worker _ _
  | content contentLen left strings received call collects positive short =>
      cases isCall
      have asked := toInt32_of_lt short
      obtain ⟨outcome, none⟩ := collects.step positive stepped
      subst none
      refine ⟨?_, rfl⟩
      cases outcome with
      | goesOn call chunk left split more =>
          cases isNext
          have missing := length_lt_of_collects more positive
          rw [List.length_append] at missing
          refine .bytes _ chunk _ split ?_
          rw [Reception.receive_content_of_lt (by omega)]
          exact .content _ _ _ _ _ more positive short
      | returns chunk left split all =>
          cases isNext
          refine .bytes _ chunk _ split ?_
          have missing := length_lt_of_collects collects positive
          rw [List.length_append] at all
          have some : chunk ≠ [] := by
            rintro rfl
            rw [List.length_nil] at all
            omega
          rw [Reception.receive_content_of_eq some (by omega),
            Reception.pushString, contentString, if_pos short]
          exact .nextString _ _
      | fails error =>
          refine .fault _ error stepped
            (fun kept => nothing_of_collects collects kept stepped) ?_
          have again := Reads.content contentLen left strings [] _
            (.select rfl) positive short
          cases error with
          | timeout =>
              cases isNext
              rw [nothing_of_timeout collects stepped]
              exact again
          | network =>
              cases isNext
              exact again
          | networkClose =>
              cases isNext
              rw [Reception.step, if_neg (by omega)]
              exact .worker _ _
  | worker rc task => cases isCall

/-! ## Any client -/

/-- `recvCommand`, the bytes on their way to it, and all that the client has
sent. -/
structure Listener where
  server : Server
  up : Bytes
  arrived : Bytes

/-- The client sends something, or a system call answers. -/
inductive Event
  | arrives (bytes : Bytes)
  | answers (answer : Answer)
  deriving DecidableEq, Repr

/-- `recvCommand` with a new connection. -/
def accepted : Server := .count .marker [] (.recvNFSelect 1)

def Listener.start : Listener where
  server := accepted
  up := []
  arrived := []

def Listener.step (s : Listener) : Event → Option Listener
  | .arrives bytes =>
      some { s with up := s.up ++ bytes, arrived := s.arrived ++ bytes }
  | .answers answer => do
      let (server, _, left) ← s.server.step s.up answer
      some { s with server := server, up := left }

/-- The bytes of a script. -/
def bytesOf (script : List Inbound) : Bytes :=
  script.filterMap fun
    | .byte value => some value
    | .fault _ => none

@[simp] theorem bytesOf_append (script more : List Inbound) :
    bytesOf (script ++ more) = bytesOf script ++ bytesOf more :=
  List.filterMap_append

@[simp] theorem bytesOf_sent (bytes : Bytes) :
    bytesOf (Network.sent bytes) = bytes := by
  unfold bytesOf Network.sent
  rw [List.filterMap_map]
  exact List.filterMap_some

/-- What has arrived and is not on its way any more is in a script, and
`recvCommand` is where the script leads. -/
def Explained (heap : Nat → Nat → Option Bytes) (s : Listener) : Prop :=
  ∃ script reception, s.arrived = bytesOf script ++ s.up ∧
    script.foldl (Reception.step heap) (.count .marker []) = reception ∧
      Reads s.server reception

theorem Explained.start (heap : Nat → Nat → Option Bytes) :
    Explained heap .start :=
  ⟨[], _, rfl, rfl, .count _ _ _ .select⟩

theorem foldl_sent (reception : Reception) (bytes : Bytes) :
    (Network.sent bytes).foldl (Reception.step heap) reception =
      Reception.receive heap reception bytes :=
  List.foldl_map

theorem Explained.step
    {s next : Listener}
    {event : Event}
    (explained : Explained heap s)
    (taken : s.step event = some next) :
    Explained heap next := by
  obtain ⟨script, reception, arrived, leads, reads⟩ := explained
  cases event with
  | arrives bytes =>
      cases taken
      refine ⟨script, reception, ?_, leads, reads⟩
      rw [arrived, List.append_assoc]
  | answers answer =>
      obtain ⟨⟨server, outgoing, left⟩, stepped, same⟩ :=
        Option.bind_eq_some_iff.mp taken
      cases same
      obtain ⟨call, isCall, _⟩ := Option.bind_eq_some_iff.mp stepped
      obtain ⟨outcome, _⟩ := reads.step isCall stepped
      cases outcome with
      | bytes chunk _ split more =>
          refine ⟨script ++ Network.sent chunk, _, ?_, rfl, ?_⟩
          · rw [arrived, split, bytesOf_append, bytesOf_sent, List.append_assoc]
          · rwa [List.foldl_append, leads, foldl_sent]
      | fault error failed harmless more =>
          refine ⟨script ++ [.fault error], _, ?_, rfl, ?_⟩
          · rw [arrived, bytesOf_append]
            exact congrArg (· ++ s.up) (List.append_nil _).symm
          · rwa [List.foldl_append, leads]

end Listening
end Lab3
end CloudComputing
