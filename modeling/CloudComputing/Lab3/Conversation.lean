import CloudComputing.Lab3.Client
import CloudComputing.Lab3.Listening

/-!
# A client and the coordinator

Both ends of a client's connection, each of them a system call at a time:
`main` sends a command and waits for the answer, `Working` receives it, serves
it and sends the answer.  The bytes between them are two streams.

As long as no call loses bytes that it has received, a line is served as it was
typed, or refused without an effect.  An answer of `2 ^ 31` bytes or more, whose
length no `int` holds, has no step.

`Working` deletes its listening socket behind each command.  A client that has
connected to it by then is reset and waits for its answer for ever, so the next
line is to be typed when `Working` is done with the last one.  `main` never
closes a socket.
-/

namespace CloudComputing
namespace Lab3

open CloudComputing.Lab3.Parser Network
open CloudComputing.Lab3.OssSocket (Answer Call Progress Sends SendStep Takes
  TakeStep)

namespace Conversation

open Listening

/-- `len` of `main` -/
def clientLen : Nat := 1024

/-- The sockets of `main` whose descriptors `FD_SET` can store: those from 3 to
1023. -/
def maxSockets : Nat := 1021

/-- Where `main` is: in `send`, in the loop around `recvNF`, and behind it. -/
inductive Client
  | sending (call : Call)
  | waiting (call : Call)
  | printed (msg2 : Bytes)
  deriving DecidableEq, Repr

namespace Client

/-- The call that it is in. -/
def call : Client → Option Call
  | .sending call => some call
  | .waiting call => some call
  | .printed _ => none

/-- What comes of the call.  The code of `send` is not looked at, and `recvNF`
is repeated until it has received something. -/
def after (progress : Progress) : Client → Option Client
  | .sending _ =>
      match progress with
      | .goesOn call => some (.sending call)
      | _ => some (.waiting (.recvNFSelect clientLen))
  | .waiting _ =>
      match progress with
      | .goesOn call => some (.waiting call)
      | .returns data => some (.printed data)
      | .fails _ => some (.waiting (.recvNFSelect clientLen))
  | .printed _ => none

/-- A system call: where it leads, the bytes that it writes, and what it leaves
of the bytes on their way. -/
def step
    (incoming : Bytes)
    (answer : Answer)
    (client : Client) : Option (Client × Bytes × Bytes) := do
  let call ← client.call
  let (progress, written, left) ← call.step incoming answer
  let client ← client.after progress
  some (client, written, left)

end Client

/-- `Working` behind `recvCommand`, to `sendResult`. -/
def serve (task : List Bytes) (s : Sys) : Option (Bytes × Sys) :=
  if task.length < 1 then some (getErrorMessage, s)
  else if s.co.cstate ≠ .working then some (getErrorMessage, s)
  else (dispatch task).exec s

theorem working_eq_serve
    (heap : Nat → Nat → Option Bytes)
    (script : List Inbound)
    (s : Sys) :
    working heap script s =
      (recvCommand heap script).bind fun (_, task) => serve task s :=
  rfl

/-- Both ends, the bytes on their way to the coordinator and to the client, and
the database. -/
structure State where
  client : Client
  server : Server
  up : Bytes
  down : Bytes
  sys : Sys

/-- A line has been read, and its connection is there. -/
def connect (msg : Bytes) (sys : Sys) : Option State := do
  -- ' '
  let list ← split msg 32
  let pac := getRESPArry list
  if pac.length < 2 ^ 31 then
    some
      { client := .sending (.sendSelect pac)
        server := accepted
        up := []
        down := []
        sys := sys }
  else none

namespace State

def clientStep (s : State) (answer : Answer) : Option State := do
  let (client, written, left) ← s.client.step s.down answer
  some { s with client := client, up := s.up ++ written, down := left }

def serverStep (s : State) (answer : Answer) : Option State := do
  let (server, written, left) ← s.server.step s.up answer
  some { s with server := server, up := left, down := s.down ++ written }

/-- The command is served, and `sendResult` begins. -/
def work (s : State) : Option State :=
  match s.server with
  | .worker task => do
      let (reply, sys) ← serve task s.sys
      if (sendResult reply).length < 2 ^ 31 then
        some
          { s with
            server := .sending (.sendSelect (sendResult reply))
            sys := sys }
      else none
  | _ => none

end State

/-- A system call of the client or of the coordinator, or a command that is
served. -/
inductive Turn
  | client (answer : Answer)
  | server (answer : Answer)
  | work
  deriving DecidableEq, Repr

def step (s : State) : Turn → Option State
  | .client answer => s.clientStep answer
  | .server answer => s.serverStep answer
  | .work => s.work

/-- A call that fails. -/
def fails (incoming : Bytes) (answer : Answer) (call : Call) : Bool :=
  match call.step incoming answer with
  | some (.fails _, _) => true
  | _ => false

/-- In the loop for the number of strings. -/
def counting : Server → Bool
  | .count _ _ _ => true
  | _ => false

/-- The coordinator loses nothing that it has received, and the client does not
close.  If the client is `quick`, no call fails in the loop for the number of
strings, where an error is not tried again. -/
def losesNothing (quick : Bool) (s : State) : Turn → Bool
  | .server answer => s.server.call.all fun call =>
      keeps call answer &&
        !(quick && counting s.server && fails s.up answer call)
  | _ => true

variable {incoming outgoing rest unsent : Bytes} {answer : Answer}

/-! ## The client -/

/-- The client has not got an answer, and has these bytes to send if it is
still in `send`. -/
inductive Asks (unsent : Bytes) : Client → Prop
  | sending (call : Call) (sends : Sends unsent call) : Asks unsent (.sending call)
  | waiting (call : Call) (takes : Takes clientLen call) :
      Asks unsent (.waiting call)

/-- What a system call of the client is. -/
inductive AskStep (unsent incoming : Bytes) : Client → Bytes → Bytes → Prop
  | asks
      (next : Client)
      (written later : Bytes)
      (split : unsent = written ++ later)
      (asks : Asks later next) :
      AskStep unsent incoming next written incoming
  | prints
      (text left : Bytes)
      (split : incoming = text ++ left)
      (some : text ≠ [])
      (short : text.length ≤ clientLen) :
      AskStep unsent incoming (.printed text) [] left

theorem Asks.step
    {client next : Client}
    (asks : Asks unsent client)
    (taken : client.step incoming answer = some (next, outgoing, rest)) :
    AskStep unsent incoming next outgoing rest := by
  obtain ⟨call, isCall, taken⟩ := Option.bind_eq_some_iff.mp taken
  obtain ⟨⟨progress, written, left⟩, stepped, taken⟩ :=
    Option.bind_eq_some_iff.mp taken
  obtain ⟨client, isNext, same⟩ := Option.bind_eq_some_iff.mp taken
  cases same
  cases asks with
  | sending call sends =>
      cases isCall
      obtain ⟨outcome, unread⟩ := sends.step stepped
      subst unread
      cases outcome with
      | goesOn call _ later split sends =>
          cases isNext
          exact .asks _ _ later split (.sending _ sends)
      | returns data =>
          cases isNext
          exact .asks _ _ [] (List.append_nil _).symm (.waiting _ .select)
      | fails error =>
          cases isNext
          exact .asks _ [] unsent rfl (.waiting _ .select)
  | waiting call takes =>
      cases isCall
      obtain ⟨outcome, none⟩ := takes.step stepped
      subst none
      cases outcome with
      | goesOn call takes =>
          cases isNext
          exact .asks _ [] unsent rfl (.waiting _ takes)
      | returns chunk left split some short =>
          cases isNext
          exact .prints _ _ split some short
      | fails error =>
          cases isNext
          exact .asks _ [] unsent rfl (.waiting _ .select)

/-- What the client has of the answer. -/
def shown : Client → Bytes
  | .printed text => text
  | _ => []

theorem Asks.shown_eq
    {client : Client}
    (asks : Asks unsent client) :
    shown client = [] := by
  cases asks with
  | sending => rfl
  | waiting => rfl

/-! ## The answer -/

/-- `sendResult` has these bytes to send, or has given up in front of them. -/
inductive Answers (rest : Bytes) : Server → Prop
  | sending (call : Call) (sends : Sends rest call) : Answers rest (.sending call)
  | closed : Answers rest .closed

theorem Answers.step
    {server next : Server}
    {left : Bytes}
    (answers : Answers rest server)
    (taken : server.step incoming answer = some (next, outgoing, left)) :
    ∃ later, rest = outgoing ++ later ∧ Answers later next := by
  obtain ⟨call, isCall, taken⟩ := Option.bind_eq_some_iff.mp taken
  obtain ⟨⟨progress, written, left⟩, stepped, taken⟩ :=
    Option.bind_eq_some_iff.mp taken
  obtain ⟨server, isNext, same⟩ := Option.bind_eq_some_iff.mp taken
  cases same
  cases answers with
  | sending call sends =>
      cases isCall
      obtain ⟨outcome, _⟩ := sends.step stepped
      cases outcome with
      | goesOn call _ later split sends =>
          cases isNext
          exact ⟨later, split, .sending _ sends⟩
      | returns data =>
          cases isNext
          exact ⟨[], (List.append_nil _).symm, .closed⟩
      | fails error =>
          cases isNext
          exact ⟨rest, rfl, .closed⟩
  | closed => cases isCall

/-! ## A line -/

/-- Where `recvCommand` is with these bytes; with short strings the heap does
not matter. -/
def heard (bytes : Bytes) : Reception :=
  Reception.receive (fun _ _ => some []) (.count .marker []) bytes

theorem heard_append (taken chunk : Bytes) :
    heard (taken ++ chunk) =
      Reception.receive (fun _ _ => some []) (heard taken) chunk :=
  Reception.receive_append _ taken chunk

/-- From a part of a command `recvCommand` gets the whole command or none. -/
theorem eq_task_of_heard
    {task strings : List Bytes}
    {taken later : Bytes}
    {rc : Int}
    (short : (getRESPArry task).length < 2 ^ 31)
    (split : getRESPArry task = taken ++ later)
    (returned : heard taken = .returned rc strings) :
    strings = task := by
  have received := recvCommand_getRESPArry (fun _ _ => some []) short []
  rw [List.append_nil,
    ← @Reception.closed_eq_recvCommand (fun _ _ => some [])
      (fun _ _ none => nomatch none),
    Reception.closed, foldl_sent, split, Reception.receive_append] at received
  change Reception.result (Reception.step _ (Reception.receive _ (heard taken)
    later) _) = _ at received
  rw [returned, Reception.receive_returned] at received
  cases received
  rfl

/-- An error that loses nothing changes nothing, or ends the loop for the
number of strings. -/
theorem step_fault
    {heap : Nat → Nat → Option Bytes}
    {reception : Reception}
    {error : NetError}
    (isOpen : error ≠ .networkClose)
    (none : partOf reception = []) :
    Reception.step heap reception (.fault error) = reception ∨
      (∃ step header, reception = .count step header) ∧
        Reception.step heap reception (.fault error) =
          .returned error.code [] := by
  cases reception with
  | count step header => exact .inr ⟨⟨step, header, rfl⟩, rfl⟩
  | length => exact .inl (if_neg isOpen)
  | content contentLen received left strings =>
      change received = [] at none
      subst none
      cases error with
      | timeout => exact .inl rfl
      | network => exact .inl rfl
      | networkClose => exact absurd rfl isOpen
  | returned => exact .inl rfl
  | thrown => exact .inl rfl

theorem counting_of_reads
    {server : Server}
    {step : HeaderStep}
    {header : Bytes}
    (reads : Reads server (.count step header)) :
    counting server = true := by
  cases reads
  rfl

/-- A command is served, or, of a client that is not quick, refused without an
effect. -/
def Answered
    (quick : Bool)
    (task : List Bytes)
    (before : Sys)
    (reply : Bytes)
    (after : Sys) : Prop :=
  serve task before = some (reply, after) ∨
    quick = false ∧ reply = getErrorMessage ∧ after = before

/-- The client has got nothing, or a part of the answer. -/
inductive Has : Client → Prop
  | asks (unsent : Bytes) (client : Client) (asks : Asks unsent client) :
      Has client
  | printed (text : Bytes) (some : text ≠ []) (short : text.length ≤ clientLen) :
      Has (.printed text)

/-- A conversation about a command: the coordinator is in `recvCommand` with a
part of it, or has given it up, or answers. -/
inductive Stage
    (quick : Bool)
    (task : List Bytes)
    (before : Sys)
    (s : State) : Prop
  | asking
      (taken unsent : Bytes)
      (unchanged : s.sys = before)
      (silent : s.down = [])
      (asks : Asks unsent s.client)
      (split : getRESPArry task = taken ++ (s.up ++ unsent))
      (reads : Reads s.server (heard taken))
  | refused
      (unsent : Bytes)
      (unchanged : s.sys = before)
      (silent : s.down = [])
      (asks : Asks unsent s.client)
      (isWorker : s.server = .worker [])
      (slow : quick = false)
  | answering
      (reply rest : Bytes)
      (answered : Answered quick task before reply s.sys)
      (stream : shown s.client ++ (s.down ++ rest) = sendResult reply)
      (answers : Answers rest s.server)
      (has : Has s.client)

namespace Stage

variable {quick : Bool} {task : List Bytes} {before : Sys} {s next : State}

theorem client
    (stage : Stage quick task before s)
    (taken : s.clientStep answer = some next) :
    Stage quick task before next := by
  obtain ⟨⟨client, written, left⟩, stepped, same⟩ :=
    Option.bind_eq_some_iff.mp taken
  cases same
  cases stage with
  | asking part unsent unchanged silent asks split reads =>
      cases asks.step stepped with
      | asks _ _ later isUnsent more =>
          refine .asking part later unchanged silent more ?_ reads
          rw [split, isUnsent, List.append_assoc]
      | prints text left isDown some =>
          rw [silent] at isDown
          exact absurd (List.append_eq_nil_iff.mp isDown.symm).1 some
  | refused unsent unchanged silent asks isWorker slow =>
      cases asks.step stepped with
      | asks _ _ later isUnsent more =>
          exact .refused later unchanged silent more isWorker slow
      | prints text left isDown some =>
          rw [silent] at isDown
          exact absurd (List.append_eq_nil_iff.mp isDown.symm).1 some
  | answering reply rest answered stream answers has =>
      generalize s.client = client at has stepped stream
      cases has with
      | asks unsent client asks =>
          rw [asks.shown_eq] at stream
          cases asks.step stepped with
          | asks _ _ later isUnsent more =>
              refine .answering reply rest answered ?_ answers
                (.asks later _ more)
              rwa [more.shown_eq]
          | prints text left isDown some short =>
              refine .answering reply rest answered ?_ answers
                (.printed text some short)
              rwa [isDown, List.nil_append, List.append_assoc] at stream
      | printed text some short => cases stepped

theorem server
    (stage : Stage quick task before s)
    (kept : losesNothing quick s (.server answer) = true)
    (taken : s.serverStep answer = some next) :
    Stage quick task before next := by
  obtain ⟨⟨server, written, left⟩, stepped, same⟩ :=
    Option.bind_eq_some_iff.mp taken
  cases same
  obtain ⟨call, isCall, _⟩ := Option.bind_eq_some_iff.mp stepped
  cases stage with
  | asking part unsent unchanged silent asks split reads =>
      have isCounting := reads
      obtain ⟨outcome, none⟩ := reads.step isCall stepped
      subst none
      have silent : s.down ++ [] = [] := by rw [silent, List.append_nil]
      cases outcome with
      | bytes chunk _ isUp reads =>
          refine .asking (part ++ chunk) unsent unchanged silent asks ?_ ?_
          · rw [split, isUp]
            simp only [List.append_assoc]
          · rwa [heard_append]
      | fault error failed harmless reads =>
          rw [losesNothing, isCall, Option.all_some, Bool.and_eq_true] at kept
          obtain ⟨isOpen, none⟩ := harmless kept.1
          rcases step_fault isOpen none with same | ⟨isCount, gone⟩
          · rw [same] at reads
            exact .asking part unsent unchanged silent asks split reads
          · rw [gone] at reads
            cases reads
            refine .refused unsent unchanged silent asks rfl ?_
            obtain ⟨step, header, isCount⟩ := isCount
            rw [isCount] at isCounting
            rw [counting_of_reads isCounting, fails, failed] at kept
            simpa using kept.2
  | refused unsent unchanged silent asks isWorker slow =>
      rw [isWorker] at isCall
      cases isCall
  | answering reply rest answered stream answers has =>
      obtain ⟨later, isRest, answers⟩ := answers.step stepped
      refine .answering reply later answered ?_ answers has
      rw [isRest] at stream
      rwa [List.append_assoc]

/-- The command is served as it was sent. -/
theorem work
    (stage : Stage quick task before s)
    (short : (getRESPArry task).length < 2 ^ 31)
    (taken : s.work = some next) :
    Stage quick task before next := by
  have serves : ∀ got unsent,
      s.sys = before → s.down = [] → Asks unsent s.client →
        s.server = .worker got → (got = task ∨ quick = false ∧ got = []) →
          Stage quick task before next := by
    intro got unsent unchanged silent asks isWorker isTask
    rw [State.work, isWorker] at taken
    obtain ⟨⟨reply, sys⟩, served, taken⟩ := Option.bind_eq_some_iff.mp taken
    have answered : Answered quick task before reply sys := by
      rw [unchanged] at served
      rcases isTask with rfl | ⟨slow, rfl⟩
      · exact .inl served
      · cases served
        exact .inr ⟨slow, rfl, rfl⟩
    dsimp only at taken
    split at taken
    case isTrue =>
      cases taken
      refine .answering reply (sendResult reply) answered ?_
        (.sending _ (.select ?_)) (.asks unsent _ asks)
      · rw [asks.shown_eq, silent]
        rfl
      · exact List.append_ne_nil_of_right_ne_nil _ (List.cons_ne_nil _ _)
    case isFalse => cases taken
  cases stage with
  | asking part unsent unchanged silent asks split reads =>
      generalize isServer : s.server = server at reads
      generalize isHeard : heard part = reception at reads
      cases reads with
      | worker rc got =>
          exact serves got unsent unchanged silent asks isServer
            (.inl (eq_task_of_heard short split isHeard))
      | count => rw [State.work, isServer] at taken; cases taken
      | length => rw [State.work, isServer] at taken; cases taken
      | content => rw [State.work, isServer] at taken; cases taken
  | refused unsent unchanged silent asks isWorker slow =>
      exact serves [] unsent unchanged silent asks isWorker (.inr ⟨slow, rfl⟩)
  | answering reply rest answered stream answers has =>
      generalize isServer : s.server = server at answers
      rw [State.work, isServer] at taken
      cases answers with
      | sending => cases taken
      | closed => cases taken

theorem step
    {turn : Turn}
    (stage : Stage quick task before s)
    (short : (getRESPArry task).length < 2 ^ 31)
    (kept : losesNothing quick s turn = true)
    (taken : Conversation.step s turn = some next) :
    Stage quick task before next := by
  cases turn with
  | client answer => exact stage.client taken
  | server answer => exact stage.server kept taken
  | work => exact stage.work short taken

end Stage

variable {quick : Bool} {msg : Bytes} {before s : Sys}

/-- A connection begins with the command of its line. -/
theorem stage_of_connect
    {s : State}
    (connected : connect msg before = some s) :
    Stage quick (msg.splitOn 32) before s ∧
      (getRESPArry (msg.splitOn 32)).length < 2 ^ 31 := by
  unfold connect at connected
  rw [split_eq, Option.bind_eq_bind, Option.bind_some] at connected
  dsimp only at connected
  split at connected
  case isTrue short =>
    cases connected
    refine ⟨.asking [] _ rfl rfl (.sending _ (.select ?_)) rfl
      (.count _ _ _ .select), short⟩
    intro none
    have marker := (List.append_eq_nil_iff.mp
      (List.append_eq_nil_iff.mp (List.append_eq_nil_iff.mp none).1).1).1
    cases marker
  case isFalse => cases connected

/-- Whatever the system calls answer, the coordinator serves a line as it was
typed, or refuses it without an effect, and the client prints a part of the
answer. -/
theorem conversation_answered
    {begun s : State}
    {turns : List Turn}
    (connected : connect msg before = some begun)
    (run : Run step (fun s turn => losesNothing quick s turn = true) begun turns
      s) :
    (s.sys = before ∧ ∀ text, s.client ≠ .printed text) ∨
      ∃ reply, Answered quick (msg.splitOn 32) before reply s.sys ∧
        ∀ text, s.client = .printed text →
          text ≠ [] ∧ text.length ≤ clientLen ∧ text <+: sendResult reply := by
  obtain ⟨stage, short⟩ := stage_of_connect connected
  have stage := run.preserves
    (fun _ _ _ stage kept taken => Stage.step stage short kept taken) stage
  have silent : ∀ unsent, Asks unsent s.client →
      ∀ text, s.client ≠ .printed text := by
    intro unsent asks text isText
    rw [isText] at asks
    cases asks
  cases stage with
  | asking part unsent unchanged _ asks =>
      exact .inl ⟨unchanged, silent unsent asks⟩
  | refused unsent unchanged _ asks =>
      exact .inl ⟨unchanged, silent unsent asks⟩
  | answering reply rest answered stream answers has =>
      refine .inr ⟨reply, answered, ?_⟩
      intro text isText
      rw [isText] at has stream
      cases has with
      | asks unsent _ asks => cases asks
      | printed _ some short => exact ⟨some, short, ⟨_, stream⟩⟩

/-! ## Sessions -/

/-- The loop of `main` with so many sockets opened: lines, each with a socket of
its own on which a text was printed, and the database before and after them.
When the next line is typed, `Working` is behind `sendResult` and `close`. -/
inductive Typed (quick : Bool) :
    Nat → Sys → List Bytes → List Bytes → Sys → Prop
  | nil (opened : Nat) (s : Sys) : Typed quick opened s [] [] s
  | cons
      {opened : Nat}
      {before last : Sys}
      {begun s : State}
      {msg text : Bytes}
      {lines texts : List Bytes}
      {turns : List Turn}
      (room : opened < maxSockets)
      (connected : connect msg before = some begun)
      (run : Run step (fun s turn => losesNothing quick s turn = true) begun turns
        s)
      (printed : s.client = .printed text)
      (behind : lines ≠ [] → s.server = .closed)
      (rest : Typed quick (opened + 1) s.sys lines texts last) :
      Typed quick opened before (msg :: lines) (text :: texts) last

/-- Each line takes a socket. -/
theorem Typed.length_le
    {opened : Nat}
    {last : Sys}
    {lines texts : List Bytes}
    (typed : Typed quick opened s lines texts last) :
    lines.length ≤ maxSockets - opened := by
  induction typed with
  | nil => exact Nat.zero_le _
  | cons room connected run printed behind rest inductionHypothesis =>
      rw [List.length_cons]
      omega

/-- A part of an answer, and of the byte that ends the string. -/
def PartOf (reply text : Bytes) : Prop :=
  text ≠ [] ∧ text.length ≤ clientLen ∧ text <+: sendResult reply

/-- Texts for lines, when the map serves each of them or, for a client that is
not quick, it is refused. -/
inductive Sequential (quick : Bool) : KV → List Bytes → List Bytes → KV → Prop
  | nil (map : KV) : Sequential quick map [] [] map
  | served
      {map last : KV}
      {msg text : Bytes}
      {lines texts : List Bytes}
      (isPart : PartOf (SequentialMap.step map (msg.splitOn 32)).1 text)
      (rest : Sequential quick (SequentialMap.step map (msg.splitOn 32)).2
        lines texts last) :
      Sequential quick map (msg :: lines) (text :: texts) last
  | refused
      {map last : KV}
      {msg text : Bytes}
      {lines texts : List Bytes}
      (slow : quick = false)
      (isPart : PartOf getErrorMessage text)
      (rest : Sequential quick map lines texts last) :
      Sequential quick map (msg :: lines) (text :: texts) last

/-- For a client that is quick the texts are those of the map. -/
theorem Sequential.run
    {map last : KV}
    {lines texts : List Bytes}
    (sequential : Sequential true map lines texts last) :
    List.Forall₂ PartOf
        (SequentialMap.run map (lines.map (·.splitOn 32))).1 texts ∧
      last = (SequentialMap.run map (lines.map (·.splitOn 32))).2 := by
  generalize isQuick : true = quick at sequential
  induction sequential with
  | nil => exact ⟨.nil, rfl⟩
  | served isPart _ inductionHypothesis =>
      obtain ⟨texts, isLast⟩ := inductionHypothesis
      exact ⟨.cons isPart texts, isLast⟩
  | refused slow =>
      rw [slow] at isQuick
      cases isQuick

/-- `Working` serves the words of a line like the sequential map. -/
theorem serve_of_aligned
    {kvdb : KV}
    {s after : Sys}
    {task : List Bytes}
    {reply : Bytes}
    (aligned : Aligned kvdb s)
    (within : SequentialMap.Within (2 ^ 30) kvdb)
    (short : (getRESPArry task).length < 2 ^ 30)
    (below : SequentialMap.isStore task = true → s.co.txid < 2 ^ 63)
    (served : serve task s = some (reply, after)) :
    reply = (SequentialMap.step kvdb task).1 ∧
      Aligned (SequentialMap.step kvdb task).2 after ∧
      after.co.txid =
        if SequentialMap.isStore task then s.co.txid + 1 else s.co.txid := by
  obtain ⟨reply', after', worked, _, outcome⟩ :=
    aligned.working within short fun _ _ => none
  have received := recvCommand_getRESPArry (fun _ _ => none)
    (show (getRESPArry task).length < 2 ^ 31 by omega) []
  rw [List.append_nil] at received
  rw [working_eq_serve, received, Option.bind_some] at worked
  dsimp only at worked
  rw [served] at worked
  cases worked
  have small : ¬ (SequentialMap.isStore task = true ∧ 2 ^ 63 ≤ s.co.txid) :=
    fun both => Nat.not_le_of_lt (below both.1) both.2
  rwa [if_neg small] at outcome

/-- What a session prints, whatever its system calls answer: the answers of the
sequential map, or for some lines of a client that is not quick a refusal, and
these lines have no effect.  Afterwards each participant at work has the map.
There are no more lines than sockets. -/
theorem typed_sequential
    {opened : Nat}
    {kvdb : KV}
    {s last : Sys}
    {lines texts : List Bytes}
    (aligned : Aligned kvdb s)
    (within : SequentialMap.Within (2 ^ 30) kvdb)
    (short : ∀ line ∈ lines, line.length < 2 ^ 25)
    (below : s.co.txid +
      (lines.map (·.splitOn 32)).countP SequentialMap.isStore ≤ 2 ^ 63)
    (typed : Typed quick opened s lines texts last) :
    lines.length ≤ maxSockets - opened ∧
      ∃ map, Sequential quick kvdb lines texts map ∧
        (∀ id ∈ last.co.ids, (last.co.entry id).pstate = .working →
          (last.node id).proc.kvdb = map) ∧
        (quick = true →
          List.Forall₂ PartOf
              (SequentialMap.run kvdb (lines.map (·.splitOn 32))).1 texts ∧
            map = (SequentialMap.run kvdb (lines.map (·.splitOn 32))).2) := by
  have reached : ∃ map, Sequential quick kvdb lines texts map ∧
      Aligned map last := by
    induction typed generalizing kvdb with
    | nil => exact ⟨kvdb, .nil kvdb, aligned⟩
    | @cons opened before last begun s msg text lines texts turns room connected
        run printed behind rest inductionHypothesis =>
        obtain ⟨shortLine, shortLines⟩ := List.forall_mem_cons.mp short
        have shortTask := length_getRESPArry_words shortLine
        rw [List.map_cons, List.countP_cons] at below
        rcases conversation_answered connected run with
          ⟨_, silent⟩ | ⟨reply, answered, prints⟩
        · exact absurd printed (silent text)
        have isPart : PartOf reply text := prints text printed
        rcases answered with served | ⟨slow, rfl, unchanged⟩
        · obtain ⟨rfl, kept, number⟩ :=
            serve_of_aligned aligned within shortTask (fun isStore => by
              rw [if_pos isStore] at below
              omega) served
          have below : s.sys.co.txid +
              (lines.map (·.splitOn 32)).countP SequentialMap.isStore ≤
                2 ^ 63 := by
            rw [number]
            split
            case isTrue isStore =>
              rw [if_pos isStore] at below
              omega
            case isFalse noStore =>
              rw [if_neg noStore] at below
              omega
          have within := within.step fun word inside =>
            element_length_lt_of_getRESPArry_lt shortTask inside
          obtain ⟨map, sequential, aligned⟩ :=
            inductionHypothesis kept within shortLines below
          exact ⟨map, .served isPart sequential, aligned⟩
        · rw [unchanged] at inductionHypothesis
          obtain ⟨map, sequential, aligned⟩ :=
            inductionHypothesis aligned within shortLines (by omega)
          exact ⟨map, .refused slow isPart sequential, aligned⟩
  obtain ⟨map, sequential, aligned⟩ := reached
  refine ⟨typed.length_le, map, sequential,
    fun id inside working => (aligned.peers id inside).map working, ?_⟩
  rintro rfl
  exact sequential.run

/-- A line with its turns, when they lose nothing. -/
def executeLine
    (quick : Bool)
    (msg : Bytes)
    (turns : List Turn)
    (before : Sys) : Option State := do
  let begun ← connect msg before
  turns.foldlM
    (fun s turn =>
      if losesNothing quick s turn then step s turn else none) begun

/-- A session from the turns of its lines. -/
def execute (quick : Bool) :
    Nat → Sys → List (Bytes × List Turn) → Option (List Bytes × Sys)
  | _, s, [] => some ([], s)
  | opened, before, (msg, turns) :: lines => do
      let s ← executeLine quick msg turns before
      let (texts, last) ← execute quick (opened + 1) s.sys lines
      match s.client with
      | .printed text =>
          if opened < maxSockets ∧ (lines ≠ [] → s.server = .closed) then
            some (text :: texts, last)
          else none
      | _ => none

theorem Typed.of_execute
    {opened : Nat}
    {s last : Sys}
    {lines : List (Bytes × List Turn)}
    {texts : List Bytes}
    (executed : execute quick opened s lines = some (texts, last)) :
    Typed quick opened s (lines.map Prod.fst) texts last := by
  induction lines generalizing opened s texts with
  | nil =>
      cases executed
      exact .nil _ _
  | cons line lines inductionHypothesis =>
      obtain ⟨msg, turns⟩ := line
      obtain ⟨talked, ran, executed⟩ := Option.bind_eq_some_iff.mp executed
      obtain ⟨⟨others, last⟩, rest, executed⟩ :=
        Option.bind_eq_some_iff.mp executed
      obtain ⟨begun, connected, ran⟩ := Option.bind_eq_some_iff.mp ran
      dsimp only at executed
      split at executed
      case h_1 text printed =>
        split at executed
        case isTrue possible =>
          cases executed
          refine .cons possible.1 connected
            (Run.of_checked (fun _ _ kept => kept) ran) printed ?_
            (inductionHypothesis rest)
          intro more
          apply possible.2
          rintro rfl
          exact more rfl
        case isFalse => cases executed
      case h_2 => cases executed

/-- `recvNF` receives so many bytes, one at a time. -/
def hears (count : Nat) : List Turn :=
  (List.replicate count [Turn.server .ready, .server (.amount 1)]).flatten

/-- The command is sent in two parts and an interrupt strikes in a string.  The
client prints the part of the answer that has arrived. -/
def setTurns : List Turn :=
  List.flatten
    [[.client .ready, .client (.amount 7)], hears 7,
      [.client (.amount 20)], hears 1,
      [.server .ready, .server (.amount 1), .server (.failed .eintr),
        .server (.amount 2)],
      hears 6, [.server .ready, .server (.amount 1)], [.server .timeout],
      hears 6, [.server .ready, .server (.amount 1), .work, .client .timeout,
        .server .ready, .server (.amount 3), .client .ready,
        .client (.amount 3), .server (.amount 3)]]

def getTurns : List Turn :=
  List.flatten
    [[.client .ready, .client (.amount 20)], hears 8,
      [.server .ready, .server (.amount 3)], hears 6,
      [.server .ready, .server (.amount 1), .work, .server .ready,
        .server (.amount 12), .client .ready, .client (.amount 12)]]

def twoLines : List (Bytes × List Turn) :=
  [(str "SET k v", setTurns), (str "GET k", getTurns)]

theorem typed_sequential_twoLines :
    ∃ last, Typed true 0 (afterDeletes 2 5) [str "SET k v", str "GET k"]
        [str "+OK", str "*1\r\n$1\r\nv\r\n\x00"] last ∧
      ∃ map, (∀ id ∈ last.co.ids, (last.co.entry id).pstate = .working →
          (last.node id).proc.kvdb = map) ∧
        List.Forall₂ PartOf [str "+OK\r\n", str "*1\r\n$1\r\nv\r\n"]
          [str "+OK", str "*1\r\n$1\r\nv\r\n\x00"] := by
  obtain ⟨⟨texts, last⟩, executed, seen⟩ := (Option.any_eq_true
    (fun (texts, _) =>
      texts = [str "+OK", str "*1\r\n$1\r\nv\r\n\x00"])
    (execute true 0 (afterDeletes 2 5) twoLines)).mp (by decide +kernel)
  obtain rfl := of_decide_eq_true seen
  have typed := Typed.of_execute executed
  obtain ⟨_, map, _, kept, prints⟩ := typed_sequential
    (afterDeletes_aligned (show 0 < 2 by decide)
      (show txidStart ≤ 5 by decide) (by decide))
    (SequentialMap.within_empty _)
    (show ∀ line ∈ twoLines.map Prod.fst, line.length < 2 ^ 25 by decide)
    (show 5 + ((twoLines.map Prod.fst).map (·.splitOn 32)).countP
      SequentialMap.isStore ≤ 2 ^ 63 by decide)
    typed
  have replies : (SequentialMap.run KV.empty
      ((twoLines.map Prod.fst).map (·.splitOn 32))).1 =
        [str "+OK\r\n", str "*1\r\n$1\r\nv\r\n"] := by
    decide
  rw [replies] at prints
  exact ⟨last, typed, map, kept, (prints rfl).1⟩

end Conversation
end Lab3
end CloudComputing
