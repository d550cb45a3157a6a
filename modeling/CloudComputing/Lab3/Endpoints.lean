import CloudComputing.Lab3.OssSocket
import CloudComputing.Lib.Runs

/-!
# Both ends of a connection

The coordinator in `Network::sendAndRecv` and the participant in the loop of
`Participant::Working`, each of them a system call at a time, in any order and
with any answers.  The bytes between them are two streams.

A message of `2 ^ 31` bytes or more, whose length no `int` holds, has no step.
-/

namespace CloudComputing
namespace Lab3
namespace Endpoints

open CloudComputing.Lab3.Parser Network OssSocket

/-- Where the coordinator is: in front of an exchange, in `isConnected`, in
`send`, in the header loop and in the content loop of `sendAndRecv`, and behind
an exchange that has failed. -/
inductive Caller
  | idle
  | probing (smsg : Bytes)
  | sending (smsg : Bytes) (call : Call)
  | header (smsg header : Bytes) (call : Call)
  | content (smsg : Bytes) (contentLen : Nat) (rmsg : Bytes) (call : Call)
  | failed
  deriving DecidableEq, Repr

/-- Where the participant is: in the header loop and in the content loop of
`recv`, in front of `pWorker`, in `send`, and without the connection. -/
inductive Callee
  | header (header : Bytes) (call : Call)
  | content (contentLen : Nat) (content : Bytes) (call : Call)
  | worker (content : Bytes)
  | sending (call : Call)
  | left
  deriving DecidableEq, Repr

/-- The two ends, the bytes on their way to the participant and back, and the
participant's variables.  `dead` says that its process has ended; `returned`
has the exchanges that have returned, with `smsg`, the return code and
`rmsg`. -/
structure State where
  caller : Caller
  callee : Callee
  up : Bytes
  down : Bytes
  proc : Participant
  dead : Bool
  returned : List (Bytes × Int × Bytes)

/-- A new connection to a participant. -/
def init (proc : Participant) : State where
  caller := .idle
  callee := .header [] (.recvNFSelect headerLen)
  up := []
  down := []
  proc := proc
  dead := false
  returned := []

/-- What a header loop keeps of a chunk. -/
def extend (header chunk : Bytes) : Bytes :=
  if header = [] then
    if 126 ∈ chunk then fromMarker chunk else []
  else header ++ chunk

namespace State

/-- `sendAndRecv` returns. -/
def finish (s : State) (smsg : Bytes) (rc : Int) (rmsg : Bytes) : State :=
  { s with
    caller := if rc = kvOk then .idle else .failed
    returned := s.returned ++ [(smsg, rc, rmsg)] }

/-- The process of the participant ends, and a new one starts elsewhere. -/
def die (s : State) : State :=
  { s with callee := .left, proc := .init, dead := true }

/-- The header loop of `sendAndRecv` has another chunk. -/
def callerHeader (s : State) (smsg header : Bytes) : Option State :=
  if header.length = headerLen then
    let contentLen := btonum header 1
    if contentLen = 0 then some (s.finish smsg kvOk [])
    else if contentLen < 2 ^ 31 then
      some { s with
        caller := .content smsg contentLen [] (.recvNFSelect contentLen) }
    else none
  else
    some { s with
      caller := .header smsg header
        (.recvSelect (headerLen - header.length)) }

/-- The content loop of `sendAndRecv` has another chunk. -/
def callerContent
    (s : State)
    (smsg : Bytes)
    (contentLen : Nat)
    (rmsg : Bytes) : State :=
  if rmsg.length = contentLen then s.finish smsg kvOk rmsg
  else
    { s with
      caller := .content smsg contentLen rmsg
        (.recvNFSelect (contentLen - rmsg.length)) }

/-- A system call of the coordinator. -/
def callerStep (s : State) (answer : Answer) : Option State :=
  match s.caller with
  | .idle => none
  | .failed => none
  | .probing smsg =>
      match answer with
      | .amount 0 =>
          if (pack smsg).length < 2 ^ 31 then
            some { s with caller := .sending smsg (.sendSelect (pack smsg)) }
          else none
      | .failed _ => some (s.finish smsg kvNetwork [])
      | _ => none
  | .sending smsg call => do
      let (progress, written, _) ← call.step s.down answer
      let s := { s with up := s.up ++ written }
      match progress with
      | .goesOn call => some { s with caller := .sending smsg call }
      | .returns _ =>
          some { s with caller := .header smsg [] (.recvSelect headerLen) }
      | .fails error => some (s.finish smsg error.code [])
  | .header smsg header call => do
      let (progress, _, left) ← call.step s.down answer
      let s := { s with down := left }
      match progress with
      | .goesOn call => some { s with caller := .header smsg header call }
      | .returns chunk => s.callerHeader smsg (extend header chunk)
      | .fails error => some (s.finish smsg error.code [])
  | .content smsg contentLen rmsg call => do
      let (progress, _, left) ← call.step s.down answer
      let s := { s with down := left }
      match progress with
      | .goesOn call =>
          some { s with caller := .content smsg contentLen rmsg call }
      | .returns chunk => some (s.callerContent smsg contentLen (rmsg ++ chunk))
      | .fails error => some (s.finish smsg error.code rmsg)

/-- The header loop of `recv` asks for more, or is complete. -/
def calleeHeader (s : State) (header : Bytes) : Option State :=
  if header.length = headerLen then
    let contentLen := btonum header 1
    if contentLen = 0 then some { s with callee := .worker [] }
    else if contentLen < 2 ^ 31 then
      some { s with callee := .content contentLen [] (.recvSelect contentLen) }
    else none
  else
    some { s with
      callee := .header header (.recvNFSelect (headerLen - header.length)) }

/-- The content loop of `recv` asks for more, or is complete. -/
def calleeContent (s : State) (contentLen : Nat) (content : Bytes) : State :=
  if content.length = contentLen then { s with callee := .worker content }
  else
    { s with
      callee := .content contentLen content
        (.recvSelect (contentLen - content.length)) }

/-- A system call of the participant.  `recv` goes on after every error but a
closed connection, and `Working` does not look at what `send` returns. -/
def calleeStep (s : State) (answer : Answer) : Option State :=
  match s.callee with
  | .left => none
  | .worker _ => none
  | .header header call => do
      let (progress, _, left) ← call.step s.up answer
      let s := { s with up := left }
      match progress with
      | .goesOn call => some { s with callee := .header header call }
      | .returns chunk => s.calleeHeader (extend header chunk)
      | .fails .networkClose => some { s with callee := .left }
      | .fails _ => s.calleeHeader header
  | .content contentLen content call => do
      let (progress, _, left) ← call.step s.up answer
      let s := { s with up := left }
      match progress with
      | .goesOn call => some { s with callee := .content contentLen content call }
      | .returns chunk => some (s.calleeContent contentLen (content ++ chunk))
      | .fails .networkClose => some { s with callee := .left }
      | .fails _ => some (s.calleeContent contentLen content)
  | .sending call => do
      let (progress, written, _) ← call.step s.up answer
      let s := { s with down := s.down ++ written }
      match progress with
      | .goesOn call => some { s with callee := .sending call }
      | _ => some { s with callee := .header [] (.recvNFSelect headerLen) }

/-- `pWorker`, and the beginning of `send`. -/
def work (s : State) : Option State :=
  match s.callee with
  | .worker content =>
      match s.proc.pWorker content with
      | none => some s.die
      | some (reply, next) =>
          if (pack reply).length < 2 ^ 31 then
            some { s with
              proc := next, callee := .sending (.sendSelect (pack reply)) }
          else none
  | _ => none

end State

/-- A call of `sendAndRecv`, a system call of one end with its answer, the
computation of the participant, and the end of its process. -/
inductive Event
  | request (smsg : Bytes)
  | caller (answer : Answer)
  | callee (answer : Answer)
  | work
  | die
  deriving DecidableEq, Repr

/-- A step of the connection. -/
def step (s : State) : Event → Option State
  | .request smsg =>
      if s.caller = .idle then some { s with caller := .probing smsg } else none
  | .caller answer => s.callerStep answer
  | .callee answer => s.calleeStep answer
  | .work => s.work
  | .die => some s.die

variable {s next : State} {answer : Answer} {call : Call}
variable {smsg reply rest header chunk up down taken : Bytes}

/-! ## Headers -/

/-- The marker is the first byte of a packet. -/
theorem pack_eq_cons (msg : Bytes) :
    pack msg = 126 :: (numtob msg.length ++ msg) := by
  rfl

theorem pack_eq_headerOf (msg : Bytes) :
    pack msg = headerOf msg ++ msg := by
  rfl

theorem length_headerOf (msg : Bytes) : (headerOf msg).length = headerLen := by
  rw [List.length_append, length_numtob]
  rfl

/-- The header loops keep the bytes of a packet. -/
theorem extend_eq
    (split : pack smsg = header ++ chunk ++ rest)
    (some : chunk ≠ []) :
    extend header chunk = header ++ chunk := by
  unfold extend
  by_cases first : header = []
  · obtain ⟨byte, chunk, rfl⟩ := List.exists_cons_of_ne_nil some
    subst first
    rw [pack_eq_cons, List.nil_append, List.cons_append,
      List.cons.injEq] at split
    rw [if_pos rfl, ← split.1, if_pos List.mem_cons_self, List.nil_append]
    exact List.dropWhile_cons_of_neg (by decide)
  · rw [if_neg first]

/-- Nine bytes of a packet are its header. -/
theorem header_eq
    (split : pack smsg = header ++ rest)
    (complete : header.length = headerLen) :
    header = headerOf smsg ∧ rest = smsg := by
  rw [pack_eq_headerOf] at split
  have same := (length_headerOf smsg).trans complete.symm
  obtain ⟨isHeader, isRest⟩ := List.append_inj split same
  exact ⟨isHeader.symm, isRest.symm⟩

/-- The length in a header is read back. -/
theorem btonum_headerOf (sendable : Sendable smsg) :
    btonum (headerOf smsg) 1 = smsg.length := by
  apply btonum_header
  unfold Sendable at sendable
  omega

theorem sendable_iff : (pack smsg).length < 2 ^ 31 ↔ Sendable smsg := by
  rw [length_pack]
  rfl

/-! ## The participant's end -/

/-- In front of a message, or without the connection. -/
inductive Waiting : Callee → Prop
  | header (call : Call) (takes : Takes headerLen call) :
      Waiting (.header [] call)
  | left : Waiting .left

/-- The participant has these bytes in front of it, and the coordinator still
sends the rest of the request.  A part of the content is lost when `recv` fails
in the middle of it; then the bytes do not suffice. -/
inductive Travels (smsg rest : Bytes) : Callee → Bytes → Prop
  | header
      (header up : Bytes)
      (call : Call)
      (takes : Takes (headerLen - header.length) call)
      (short : header.length < headerLen)
      (split : pack smsg = header ++ up ++ rest) :
      Travels smsg rest (.header header call) up
  | content
      (got up : Bytes)
      (call : Call)
      (nonempty : smsg ≠ [])
      (collects : Collects smsg.length got call)
      (split : smsg = got ++ up ++ rest ∨
        (got ++ up ++ rest).length < smsg.length) :
      Travels smsg rest (.content smsg.length [] call) up
  | worker (all : rest = []) : Travels smsg rest (.worker smsg) []
  | left (up : Bytes) : Travels smsg rest .left up

/-- The coordinator has taken a part of the answer, and another part is in
front of it. -/
inductive Replies (reply taken down : Bytes) : Callee → Prop
  | sending
      (rest : Bytes)
      (call : Call)
      (sends : Sends rest call)
      (split : pack reply = taken ++ down ++ rest) :
      Replies reply taken down (.sending call)
  | sent
      (rest : Bytes)
      (callee : Callee)
      (waiting : Waiting callee)
      (split : pack reply = taken ++ down ++ rest) :
      Replies reply taken down callee

theorem Replies.split
    {callee : Callee}
    (replies : Replies reply taken down callee) :
    ∃ rest, pack reply = taken ++ down ++ rest := by
  cases replies with
  | sending rest call sends split => exact ⟨rest, split⟩
  | sent rest callee waiting split => exact ⟨rest, split⟩

theorem calleeHeader_frame (went : s.calleeHeader header = some next) :
    ∃ callee, next = { s with callee := callee } := by
  unfold State.calleeHeader at went
  split at went
  · dsimp only at went
    split at went
    · cases went
      exact ⟨_, rfl⟩
    · split at went
      · cases went
        exact ⟨_, rfl⟩
      · cases went
  · cases went
    exact ⟨_, rfl⟩

theorem calleeContent_frame (s : State) (contentLen : Nat) (content : Bytes) :
    ∃ callee, s.calleeContent contentLen content =
      { s with callee := callee } := by
  unfold State.calleeContent
  split
  · exact ⟨_, rfl⟩
  · exact ⟨_, rfl⟩

/-- A system call of the participant is about its end and the bytes. -/
theorem calleeStep_frame (stepped : s.calleeStep answer = some next) :
    ∃ callee up down,
      next = { s with callee := callee, up := up, down := down } := by
  unfold State.calleeStep at stepped
  split at stepped
  · cases stepped
  · cases stepped
  · obtain ⟨⟨progress, _, left⟩, _, went⟩ := Option.bind_eq_some_iff.mp stepped
    dsimp only at went
    split at went
    · cases went
      exact ⟨_, _, _, rfl⟩
    · obtain ⟨callee, rfl⟩ := calleeHeader_frame went
      exact ⟨_, _, _, rfl⟩
    · cases went
      exact ⟨_, _, _, rfl⟩
    · obtain ⟨callee, rfl⟩ := calleeHeader_frame went
      exact ⟨_, _, _, rfl⟩
  · obtain ⟨⟨progress, _, left⟩, _, went⟩ := Option.bind_eq_some_iff.mp stepped
    dsimp only at went
    split at went
    · cases went
      exact ⟨_, _, _, rfl⟩
    · cases went
      obtain ⟨callee, same⟩ := calleeContent_frame _ _ _
      exact ⟨_, _, _, same⟩
    · cases went
      exact ⟨_, _, _, rfl⟩
    · cases went
      obtain ⟨callee, same⟩ := calleeContent_frame _ _ _
      exact ⟨_, _, _, same⟩
  · obtain ⟨⟨progress, written, _⟩, _, went⟩ :=
      Option.bind_eq_some_iff.mp stepped
    dsimp only at went
    split at went
    · cases went
      exact ⟨_, _, _, rfl⟩
    · cases went
      exact ⟨_, _, _, rfl⟩

/-- The header loop of `recv` keeps a part of the header. -/
theorem Travels.calleeHeader
    (went : s.calleeHeader header = some next)
    (sendable : Sendable smsg)
    (split : pack smsg = header ++ s.up ++ rest)
    (short : header.length ≤ headerLen) :
    Travels smsg rest next.callee next.up ∧ next.down = s.down := by
  unfold State.calleeHeader at went
  by_cases complete : header.length = headerLen
  · rw [List.append_assoc] at split
    obtain ⟨isHeader, isRest⟩ := header_eq split complete
    rw [if_pos complete, isHeader, btonum_headerOf sendable] at went
    dsimp only at went
    by_cases empty : smsg.length = 0
    · rw [if_pos empty] at went
      cases went
      rw [List.length_eq_zero_iff.mp empty] at isRest ⊢
      obtain ⟨noUp, noRest⟩ := List.append_eq_nil_iff.mp isRest
      refine ⟨?_, rfl⟩
      rw [show ({ s with callee := .worker [] } : State).up = [] from noUp]
      exact .worker noRest
    · rw [if_neg empty] at went
      split at went
      · cases went
        refine ⟨.content [] s.up _ ?_ (.select rfl) (.inl ?_), rfl⟩
        · exact fun none => empty (List.length_eq_zero_iff.mpr none)
        · rw [List.nil_append, isRest]
      · cases went
  · rw [if_neg complete] at went
    cases went
    exact ⟨.header header s.up _ .select (by omega) split, rfl⟩

/-- The content loop of `recv` has the whole content, or begins again. -/
theorem Travels.calleeContent
    {content : Bytes}
    (nonempty : smsg ≠ [])
    (split : content = smsg ∧ s.up = [] ∧ rest = [] ∨
      content = [] ∧ (smsg = s.up ++ rest ∨
        (s.up ++ rest).length < smsg.length)) :
    Travels smsg rest (s.calleeContent smsg.length content).callee
        (s.calleeContent smsg.length content).up ∧
      (s.calleeContent smsg.length content).down = s.down := by
  unfold State.calleeContent
  rcases split with ⟨rfl, noUp, noRest⟩ | ⟨rfl, split⟩
  · rw [if_pos rfl]
    refine ⟨?_, rfl⟩
    rw [show ({ s with callee := .worker content } : State).up = [] from noUp]
    exact .worker noRest
  · have missing : ¬ ([] : Bytes).length = smsg.length := by
      rw [List.length_nil]
      exact fun none => nonempty (List.length_eq_zero_iff.mp none.symm)
    rw [if_neg missing]
    exact ⟨.content [] s.up _ nonempty (.select rfl) split, rfl⟩

/-- The participant receives a part of the request. -/
theorem Travels.calleeStep
    (sendable : Sendable smsg)
    (travels : Travels smsg rest s.callee s.up)
    (stepped : s.calleeStep answer = some next) :
    Travels smsg rest next.callee next.up ∧ next.down = s.down := by
  unfold State.calleeStep at stepped
  generalize isCallee : s.callee = callee at travels stepped
  generalize isUp : s.up = up at travels stepped
  cases travels with
  | header header up call takes short split =>
      obtain ⟨⟨progress, _, left⟩, called, went⟩ :=
        Option.bind_eq_some_iff.mp stepped
      obtain ⟨step, _⟩ := takes.step called
      cases step with
      | goesOn call takes =>
          cases went
          exact ⟨.header header _ call takes short split, rfl⟩
      | returns chunk left isChunk some fits =>
          rw [isChunk, ← List.append_assoc] at split
          dsimp only at went
          rw [extend_eq (split.trans (List.append_assoc _ _ _)) some] at went
          have longer : (header ++ chunk).length ≤ headerLen := by
            rw [List.length_append]
            omega
          have reached := Travels.calleeHeader went sendable split longer
          exact reached
      | fails error =>
          cases error with
          | networkClose =>
              cases went
              exact ⟨.left _, rfl⟩
          | timeout | network =>
              dsimp only at went
              have reached := Travels.calleeHeader went sendable split short.le
              exact reached
  | content got up call nonempty collects split =>
      obtain ⟨⟨progress, _, left⟩, called, went⟩ :=
        Option.bind_eq_some_iff.mp stepped
      obtain ⟨step, _⟩ :=
        collects.step (List.length_pos_iff.mpr nonempty) called
      cases step with
      | goesOn call part left isPart collects =>
          cases went
          refine ⟨.content (got ++ part) left call nonempty collects ?_, rfl⟩
          rw [isPart, ← List.append_assoc] at split
          exact split
      | returns part left isPart all =>
          cases went
          apply Travels.calleeContent nonempty
          left
          rw [isPart, ← List.append_assoc] at split
          rcases split with exactly | short
          · rw [List.append_assoc] at exactly
            have none : (left ++ rest).length = 0 := by
              have size := congrArg List.length exactly
              rw [List.length_append] at size
              omega
            have none := List.length_eq_zero_iff.mp none
            rw [none, List.append_nil] at exactly
            obtain ⟨noUp, noRest⟩ := List.append_eq_nil_iff.mp none
            exact ⟨exactly.symm, noUp, noRest⟩
          · rw [List.append_assoc, List.length_append] at short
            omega
      | fails error =>
          have still : ([] : Bytes) = [] ∧ (smsg = up ++ rest ∨
              (up ++ rest).length < smsg.length) := by
            refine ⟨rfl, ?_⟩
            rcases split with exactly | short
            · by_cases first : got = []
              · rw [first] at exactly
                exact .inl exactly
              · right
                have positive := List.length_pos_iff.mpr first
                have size := congrArg List.length exactly
                rw [List.append_assoc, List.length_append] at size
                omega
            · right
              rw [List.append_assoc, List.length_append] at short
              omega
          cases error with
          | networkClose =>
              cases went
              exact ⟨.left _, rfl⟩
          | timeout | network =>
              cases went
              exact Travels.calleeContent nonempty (.inr still)
  | worker all => cases stepped
  | left up => cases stepped

/-- Without a byte in front of it the participant goes on waiting. -/
theorem Waiting.calleeStep
    (waiting : Waiting s.callee)
    (noUp : s.up = [])
    (stepped : s.calleeStep answer = some next) :
    Waiting next.callee ∧ next.up = [] ∧ next.down = s.down := by
  unfold State.calleeStep at stepped
  generalize isCallee : s.callee = callee at waiting stepped
  cases waiting with
  | header call takes =>
      obtain ⟨⟨progress, _, left⟩, called, went⟩ :=
        Option.bind_eq_some_iff.mp stepped
      rw [noUp] at called
      obtain ⟨step, _⟩ := takes.step called
      cases step with
      | goesOn call takes =>
          cases went
          exact ⟨.header call takes, rfl, rfl⟩
      | returns chunk left isChunk some fits =>
          exact absurd (List.append_eq_nil_iff.mp isChunk.symm).1 some
      | fails error =>
          cases error with
          | networkClose =>
              cases went
              exact ⟨.left, rfl, rfl⟩
          | timeout | network =>
              cases went
              exact ⟨.header _ .select, rfl, rfl⟩
  | left => cases stepped

/-- The participant sends a part of the answer, or gives up. -/
theorem Replies.calleeStep
    (replies : Replies reply taken s.down s.callee)
    (noUp : s.up = [])
    (stepped : s.calleeStep answer = some next) :
    Replies reply taken next.down next.callee ∧ next.up = [] := by
  generalize isCallee : s.callee = callee at replies
  cases replies with
  | sent rest callee waiting split =>
      rw [← isCallee] at waiting
      obtain ⟨waiting, noUp, same⟩ := waiting.calleeStep noUp stepped
      rw [same]
      exact ⟨.sent rest _ waiting split, noUp⟩
  | sending rest call sends split =>
      unfold State.calleeStep at stepped
      rw [isCallee] at stepped
      obtain ⟨⟨progress, written, _⟩, called, went⟩ :=
        Option.bind_eq_some_iff.mp stepped
      obtain ⟨step, _⟩ := sends.step called
      cases step with
      | goesOn call written later isRest sends =>
          cases went
          refine ⟨.sending later call sends ?_, noUp⟩
          rw [split, isRest, List.append_assoc, List.append_assoc,
            List.append_assoc]
      | returns data =>
          cases went
          refine ⟨.sent [] _ (.header _ .select) ?_, noUp⟩
          rw [split, List.append_nil, List.append_assoc]
      | fails error =>
          cases went
          refine ⟨.sent rest _ (.header _ .select) ?_, noUp⟩
          rw [List.append_nil]
          exact split

/-! ## What has happened to the exchanges -/

/-- The participant has answered these exchanges, one after the other. -/
inductive Served (proc : Participant) :
    List (Bytes × Int × Bytes) → Participant → Prop
  | nil : Served proc [] proc
  | snoc
      (returned : List (Bytes × Int × Bytes))
      (before after : Participant)
      (smsg reply : Bytes)
      (served : Served proc returned before)
      (sendable : Sendable smsg)
      (sendableReply : Sendable reply)
      (computed : before.pWorker smsg = some (reply, after)) :
      Served proc (returned ++ [(smsg, kvOk, reply)]) after

/-- Nothing is on its way, and the participant's variables are these. -/
structure Quiet (current : Participant) (s : State) : Prop where
  up : s.up = []
  down : s.down = []
  waiting : Waiting s.callee
  proc : s.dead = false → s.proc = current

/-- The request is on its way to the participant. -/
structure Asked
    (current : Participant)
    (smsg rest : Bytes)
    (s : State) : Prop where
  sendable : Sendable smsg
  down : s.down = []
  travels : Travels smsg rest s.callee s.up
  proc : s.dead = false → s.proc = current

/-- The answer is on its way to the coordinator, which has taken a part of
it. -/
structure Answered
    (current : Participant)
    (smsg reply taken : Bytes)
    (after : Participant)
    (s : State) : Prop where
  sendable : Sendable smsg
  sendableReply : Sendable reply
  computed : current.pWorker smsg = some (reply, after)
  up : s.up = []
  replies : Replies reply taken s.down s.callee
  proc : s.dead = false → s.proc = after

variable {current after : Participant}

theorem Quiet.calleeStep
    (quiet : Quiet current s)
    (stepped : s.calleeStep answer = some next) :
    Quiet current next := by
  obtain ⟨waiting, up, down⟩ := quiet.waiting.calleeStep quiet.up stepped
  obtain ⟨_, _, _, rfl⟩ := calleeStep_frame stepped
  exact ⟨up, down.trans quiet.down, waiting, quiet.proc⟩

theorem Asked.calleeStep
    (asked : Asked current smsg rest s)
    (stepped : s.calleeStep answer = some next) :
    Asked current smsg rest next := by
  obtain ⟨travels, down⟩ := asked.travels.calleeStep asked.sendable stepped
  obtain ⟨_, _, _, rfl⟩ := calleeStep_frame stepped
  exact ⟨asked.sendable, down.trans asked.down, travels, asked.proc⟩

theorem Answered.calleeStep
    (answered : Answered current smsg reply taken after s)
    (stepped : s.calleeStep answer = some next) :
    Answered current smsg reply taken after next := by
  obtain ⟨replies, up⟩ := answered.replies.calleeStep answered.up stepped
  obtain ⟨_, _, _, rfl⟩ := calleeStep_frame stepped
  exact ⟨answered.sendable, answered.sendableReply, answered.computed, up,
    replies, answered.proc⟩

theorem Quiet.die (quiet : Quiet current s) : Quiet current s.die :=
  ⟨quiet.up, quiet.down, .left, fun alive => nomatch alive⟩

theorem Asked.die (asked : Asked current smsg rest s) :
    Asked current smsg rest s.die :=
  ⟨asked.sendable, asked.down, .left _, fun alive => nomatch alive⟩

theorem Answered.die (answered : Answered current smsg reply taken after s) :
    Answered current smsg reply taken after s.die := by
  obtain ⟨rest, split⟩ := answered.replies.split
  exact ⟨answered.sendable, answered.sendableReply, answered.computed,
    answered.up, .sent rest _ .left split, fun alive => nomatch alive⟩

/-- A participant that waits has nothing to compute. -/
theorem Waiting.work_eq_none (waiting : Waiting s.callee) :
    s.work = none := by
  unfold State.work
  generalize s.callee = callee at waiting
  cases waiting with
  | header call takes => rfl
  | left => rfl

theorem Answered.work_eq_none
    (answered : Answered current smsg reply taken after s) :
    s.work = none := by
  have replies := answered.replies
  generalize isCallee : s.callee = callee at replies
  cases replies with
  | sending rest call sends split =>
      unfold State.work
      rw [isCallee]
  | sent rest callee waiting split =>
      rw [← isCallee] at waiting
      exact waiting.work_eq_none

/-- The participant computes the answer to a request that has arrived. -/
theorem Asked.work
    (asked : Asked current smsg rest s)
    (gone : s.dead = true → s.callee = .left)
    (worked : s.work = some next) :
    Asked current smsg rest next ∨
      rest = [] ∧ ∃ reply after, Answered current smsg reply [] after next := by
  have travels := asked.travels
  unfold State.work at worked
  generalize isCallee : s.callee = callee at travels worked
  generalize isUp : s.up = up at travels
  cases travels with
  | header header up call takes short split => cases worked
  | content got up call nonempty collects split => cases worked
  | left up => cases worked
  | worker all =>
      dsimp only at worked
      split at worked
      · cases worked
        exact .inl asked.die
      · rename_i reply after computed
        split at worked
        · rename_i short
          cases worked
          have alive : s.dead = false := by
            by_contra dead
            rw [gone (Bool.eq_true_of_not_eq_false dead)] at isCallee
            cases isCallee
          rw [asked.proc alive] at computed
          have some : pack reply ≠ [] := List.cons_ne_nil _ _
          refine .inr ⟨all, reply, after, asked.sendable,
            sendable_iff.mp short, computed, isUp,
            .sending (pack reply) _ (.select some) ?_, fun _ => rfl⟩
          rw [show ({ s with
            proc := after,
            callee := .sending (.sendSelect (pack reply)) } : State).down = []
              from asked.down]
          rfl
        · cases worked

/-! ## The invariant -/

/-- Where an exchange is.  After a failed one the participant may still receive
the request, or send the answer. -/
inductive Stage (proc : Participant) (s : State) : Prop
  | quiet
      (current : Participant)
      (caller : s.caller = .idle ∨ ∃ smsg, s.caller = .probing smsg)
      (served : Served proc s.returned current)
      (quiet : Quiet current s)
  | asking
      (current : Participant)
      (smsg rest : Bytes)
      (call : Call)
      (caller : s.caller = .sending smsg call)
      (sends : Sends rest call)
      (served : Served proc s.returned current)
      (asked : Asked current smsg rest s)
  | waiting
      (current : Participant)
      (smsg : Bytes)
      (call : Call)
      (caller : s.caller = .header smsg [] call)
      (collects : Collects headerLen [] call)
      (served : Served proc s.returned current)
      (asked : Asked current smsg [] s)
  | header
      (current after : Participant)
      (smsg reply got : Bytes)
      (call : Call)
      (caller : s.caller = .header smsg [] call)
      (collects : Collects headerLen got call)
      (served : Served proc s.returned current)
      (answered : Answered current smsg reply got after s)
  | content
      (current after : Participant)
      (smsg reply rmsg : Bytes)
      (call : Call)
      (caller : s.caller = .content smsg reply.length rmsg call)
      (takes : Takes (reply.length - rmsg.length) call)
      (short : rmsg.length < reply.length)
      (served : Served proc s.returned current)
      (answered : Answered current smsg reply (headerOf reply ++ rmsg) after s)
  | failed
      (current : Participant)
      (returned : List (Bytes × Int × Bytes))
      (smsg part : Bytes)
      (error : NetError)
      (caller : s.caller = .failed)
      (isReturned : s.returned = returned ++ [(smsg, error.code, part)])
      (served : Served proc returned current)
      (stage : Quiet current s ∨ (∃ rest, Asked current smsg rest s) ∨
        ∃ reply taken after, Answered current smsg reply taken after s)

/-- A participant whose process has ended has left the connection. -/
def Gone (s : State) : Prop :=
  s.dead = true → s.callee = .left

variable {proc : Participant}

/-- A step of the participant, which may answer a request that is complete. -/
theorem Stage.transfer
    (stage : Stage proc s)
    (caller : next.caller = s.caller)
    (returned : next.returned = s.returned)
    (quiets : ∀ current, Quiet current s → Quiet current next)
    (asks : ∀ current smsg rest, Asked current smsg rest s →
      Asked current smsg rest next ∨ rest = [] ∧
        ∃ reply after, Answered current smsg reply [] after next)
    (answers : ∀ current smsg reply taken after,
      Answered current smsg reply taken after s →
        Answered current smsg reply taken after next) :
    Stage proc next := by
  cases stage with
  | quiet current isCaller served quiet =>
      rw [← caller] at isCaller
      rw [← returned] at served
      exact .quiet current isCaller served (quiets _ quiet)
  | asking current smsg rest call isCaller sends served asked =>
      rw [← caller] at isCaller
      rw [← returned] at served
      rcases asks _ _ _ asked with asked | ⟨all, _⟩
      · exact .asking current smsg rest call isCaller sends served asked
      · cases sends with
        | select some => exact absurd all some
        | sending some => exact absurd all some
  | waiting current smsg call isCaller collects served asked =>
      rw [← caller] at isCaller
      rw [← returned] at served
      rcases asks _ _ _ asked with asked | ⟨_, reply, after, answered⟩
      · exact .waiting current smsg call isCaller collects served asked
      · exact .header current after smsg reply [] call isCaller collects served
          answered
  | header current after smsg reply got call isCaller collects served answered =>
      rw [← caller] at isCaller
      rw [← returned] at served
      exact .header current after smsg reply got call isCaller collects served
        (answers _ _ _ _ _ answered)
  | content current after smsg reply rmsg call isCaller takes short served
      answered =>
      rw [← caller] at isCaller
      rw [← returned] at served
      exact .content current after smsg reply rmsg call isCaller takes short
        served (answers _ _ _ _ _ answered)
  | failed current returned' smsg part error isCaller isReturned served stage =>
      rw [← caller] at isCaller
      rw [← returned] at isReturned
      refine .failed current returned' smsg part error isCaller isReturned
        served ?_
      rcases stage with quiet | ⟨rest, asked⟩ | ⟨reply, taken, after, answered⟩
      · exact .inl (quiets _ quiet)
      · rcases asks _ _ _ asked with asked | ⟨_, reply, after, answered⟩
        · exact .inr (.inl ⟨rest, asked⟩)
        · exact .inr (.inr ⟨reply, [], after, answered⟩)
      · exact .inr (.inr ⟨reply, taken, after, answers _ _ _ _ _ answered⟩)

theorem Stage.calleeStep
    (stage : Stage proc s)
    (stepped : s.calleeStep answer = some next) :
    Stage proc next := by
  obtain ⟨callee, up, down, isNext⟩ := calleeStep_frame stepped
  apply stage.transfer
  · rw [isNext]
  · rw [isNext]
  · exact fun _ quiet => quiet.calleeStep stepped
  · exact fun _ _ _ asked => .inl (asked.calleeStep stepped)
  · exact fun _ _ _ _ _ answered => answered.calleeStep stepped

theorem Stage.die (stage : Stage proc s) : Stage proc s.die := by
  apply stage.transfer
  · rfl
  · rfl
  · exact fun _ quiet => quiet.die
  · exact fun _ _ _ asked => .inl asked.die
  · exact fun _ _ _ _ _ answered => answered.die

/-- `pWorker` is about the participant only. -/
theorem work_frame (worked : s.work = some next) :
    next.caller = s.caller ∧ next.returned = s.returned := by
  unfold State.work at worked
  split at worked
  · split at worked
    · cases worked
      exact ⟨rfl, rfl⟩
    · split at worked
      · cases worked
        exact ⟨rfl, rfl⟩
      · cases worked
  · cases worked

theorem Stage.work
    (stage : Stage proc s)
    (gone : Gone s)
    (worked : s.work = some next) :
    Stage proc next := by
  obtain ⟨caller, returned⟩ := work_frame worked
  apply stage.transfer caller returned
  · intro current quiet
    rw [quiet.waiting.work_eq_none] at worked
    cases worked
  · exact fun _ _ _ asked => asked.work gone worked
  · intro current smsg reply taken after answered
    rw [answered.work_eq_none] at worked
    cases worked

/-! ## The coordinator's end -/

/-- The coordinator sends a part of the request. -/
theorem Travels.write
    {written later : Bytes}
    {callee : Callee}
    (travels : Travels smsg (written ++ later) callee up)
    (some : written ++ later ≠ []) :
    Travels smsg later callee (up ++ written) := by
  cases travels with
  | header header up call takes short split =>
      refine .header header _ call takes short ?_
      rw [split]
      simp only [List.append_assoc]
  | content got up call nonempty collects split =>
      refine .content got _ call nonempty collects ?_
      simp only [List.append_assoc] at split ⊢
      exact split
  | worker all => exact absurd all some
  | left up => exact .left _

/-- An exchange fails. -/
theorem Stage.fail
    {smsg part : Bytes}
    {error : NetError}
    (served : Served proc s.returned current)
    (stage : Quiet current s ∨ (∃ rest, Asked current smsg rest s) ∨
      ∃ reply taken after, Answered current smsg reply taken after s) :
    Stage proc (s.finish smsg error.code part) := by
  refine .failed current s.returned smsg part error ?_ rfl served ?_
  · exact if_neg error.code_ne_kvOk
  · rcases stage with quiet | ⟨rest, asked⟩ | ⟨reply, taken, after, answered⟩
    · exact .inl ⟨quiet.up, quiet.down, quiet.waiting, quiet.proc⟩
    · exact .inr (.inl ⟨rest, asked.sendable, asked.down, asked.travels,
        asked.proc⟩)
    · exact .inr (.inr ⟨reply, taken, after, answered.sendable,
        answered.sendableReply, answered.computed, answered.up,
        answered.replies, answered.proc⟩)

/-- An exchange returns the whole answer. -/
theorem Stage.finish
    (served : Served proc s.returned current)
    (answered : Answered current smsg reply taken after s)
    (all : taken = pack reply) :
    Stage proc (s.finish smsg kvOk reply) := by
  have caller : (s.finish smsg kvOk reply).caller = .idle := by
    simp [State.finish]
  have quiet : s.down = [] ∧ Waiting s.callee := by
    have replies := answered.replies
    rw [all] at replies
    generalize isCallee : s.callee = callee at replies
    cases replies with
    | sending rest call sends split =>
        rw [List.append_assoc, List.self_eq_append_right,
          List.append_eq_nil_iff] at split
        cases sends with
        | select some => exact absurd split.2 some
        | sending some => exact absurd split.2 some
    | sent rest callee waiting split =>
        rw [List.append_assoc, List.self_eq_append_right,
          List.append_eq_nil_iff] at split
        exact ⟨split.1, waiting⟩
  refine .quiet after (.inl caller) (.snoc _ current after smsg reply served
    answered.sendable answered.sendableReply answered.computed) ?_
  exact ⟨answered.up, quiet.1, quiet.2, answered.proc⟩

/-- The coordinator takes the next bytes of the answer. -/
theorem Replies.take
    {callee : Callee}
    (replies : Replies reply taken (chunk ++ down) callee) :
    Replies reply (taken ++ chunk) down callee := by
  cases replies with
  | sending rest call sends split =>
      refine .sending rest call sends ?_
      simp only [split, List.append_assoc]
  | sent rest callee waiting split =>
      refine .sent rest callee waiting ?_
      simp only [split, List.append_assoc]

theorem Answered.take
    (answered : Answered current smsg reply taken after s)
    (split : s.down = chunk ++ down) :
    Answered current smsg reply (taken ++ chunk) after
      { s with down := down } := by
  have replies := answered.replies
  rw [split] at replies
  exact ⟨answered.sendable, answered.sendableReply, answered.computed,
    answered.up, replies.take, answered.proc⟩

/-- A change of the coordinator's variables only. -/
theorem Answered.setCaller
    (answered : Answered current smsg reply taken after s)
    (caller : Caller) :
    Answered current smsg reply taken after { s with caller := caller } :=
  ⟨answered.sendable, answered.sendableReply, answered.computed, answered.up,
    answered.replies, answered.proc⟩

theorem Asked.setCaller
    (asked : Asked current smsg rest s)
    (caller : Caller) :
    Asked current smsg rest { s with caller := caller } :=
  ⟨asked.sendable, asked.down, asked.travels, asked.proc⟩

/-- The coordinator begins to send a request. -/
theorem Quiet.asked
    (quiet : Quiet current s)
    (sendable : Sendable smsg) :
    Asked current smsg (pack smsg) s := by
  refine ⟨sendable, quiet.down, ?_, quiet.proc⟩
  have waiting := quiet.waiting
  rw [quiet.up]
  generalize s.callee = callee at waiting
  cases waiting with
  | header call takes =>
      exact .header [] [] call takes (by decide) rfl
  | left => exact .left []

/-- The coordinator has taken the header of the answer. -/
theorem Stage.callerHeader
    (went : s.callerHeader smsg header = some next)
    (served : Served proc s.returned current)
    (answered : Answered current smsg reply header after s)
    (complete : header.length = headerLen) :
    Stage proc next := by
  obtain ⟨rest, split⟩ := answered.replies.split
  rw [List.append_assoc] at split
  obtain ⟨isHeader, isRest⟩ := header_eq split complete
  unfold State.callerHeader at went
  rw [if_pos complete, isHeader, btonum_headerOf answered.sendableReply] at went
  dsimp only at went
  by_cases empty : reply.length = 0
  · rw [if_pos empty] at went
    cases went
    rw [List.length_eq_zero_iff] at empty
    subst empty
    exact .finish served answered (isHeader.trans (List.append_nil _).symm)
  · rw [if_neg empty] at went
    split at went
    · cases went
      refine .content current after smsg reply [] _ rfl .select
        (Nat.pos_of_ne_zero empty) served ?_
      rw [List.append_nil, ← isHeader]
      exact answered.setCaller _
    · cases went

/-- The coordinator has taken a part of the content of the answer. -/
theorem Stage.callerContent
    {rmsg : Bytes}
    (served : Served proc s.returned current)
    (answered : Answered current smsg reply (headerOf reply ++ rmsg) after s) :
    Stage proc (s.callerContent smsg reply.length rmsg) := by
  obtain ⟨rest, split⟩ := answered.replies.split
  rw [pack_eq_headerOf] at split
  generalize headerOf reply = header at split
  rw [List.append_assoc, List.append_assoc] at split
  have isReply := List.append_cancel_left split
  have size := congrArg List.length isReply
  rw [List.length_append] at size
  unfold State.callerContent
  by_cases all : rmsg.length = reply.length
  · have none : s.down ++ rest = [] :=
      List.length_eq_zero_iff.mp (by omega)
    rw [none, List.append_nil] at isReply
    rw [if_pos all]
    subst isReply
    exact .finish served answered rfl
  · rw [if_neg all]
    exact .content current after smsg reply rmsg _ rfl .select (by omega)
      served (answered.setCaller _)

/-- The coordinator looks for an early close before it sends. -/
theorem Stage.callerProbing
    (caller : s.caller = .probing smsg)
    (served : Served proc s.returned current)
    (quiet : Quiet current s)
    (stepped : s.callerStep answer = some next) :
    Stage proc next := by
  unfold State.callerStep at stepped
  rw [caller] at stepped
  dsimp only at stepped
  split at stepped
  · split at stepped
    · rename_i short
      cases stepped
      have some : pack smsg ≠ [] := List.cons_ne_nil _ _
      exact .asking current smsg (pack smsg) _ rfl (.select some) served
        ((quiet.asked (sendable_iff.mp short)).setCaller _)
    · cases stepped
  · cases stepped
    have failed : Stage proc (s.finish smsg NetError.network.code []) :=
      .fail served (.inl quiet)
    exact failed
  · cases stepped

/-- The coordinator sends its request. -/
theorem Stage.callerAsking
    {rest : Bytes}
    {call : Call}
    (caller : s.caller = .sending smsg call)
    (sends : Sends rest call)
    (served : Served proc s.returned current)
    (asked : Asked current smsg rest s)
    (stepped : s.callerStep answer = some next) :
    Stage proc next := by
  unfold State.callerStep at stepped
  rw [caller] at stepped
  obtain ⟨⟨progress, written, _⟩, called, went⟩ :=
    Option.bind_eq_some_iff.mp stepped
  obtain ⟨step, _⟩ := sends.step called
  have nonempty : rest ≠ [] := by
    cases sends with
    | select some => exact some
    | sending some => exact some
  cases step with
  | goesOn call written later split more =>
      cases went
      subst split
      exact .asking current smsg later call rfl more served
        ⟨asked.sendable, asked.down, asked.travels.write nonempty,
          asked.proc⟩
  | returns data =>
      cases went
      rw [← List.append_nil rest] at asked nonempty
      exact .waiting current smsg _ rfl (.select rfl) served
        ⟨asked.sendable, asked.down, asked.travels.write nonempty,
          asked.proc⟩
  | fails error =>
      cases went
      have travels := asked.travels
      rw [← List.append_nil s.up] at travels
      exact .fail served (.inr (.inl
        ⟨rest, asked.sendable, asked.down, travels, asked.proc⟩))

/-- The coordinator waits for an answer that is not there yet. -/
theorem Stage.callerWaiting
    {call : Call}
    (caller : s.caller = .header smsg [] call)
    (collects : Collects headerLen [] call)
    (served : Served proc s.returned current)
    (asked : Asked current smsg [] s)
    (stepped : s.callerStep answer = some next) :
    Stage proc next := by
  unfold State.callerStep at stepped
  rw [caller] at stepped
  obtain ⟨⟨progress, _, left⟩, called, went⟩ :=
    Option.bind_eq_some_iff.mp stepped
  rw [asked.down] at called
  obtain ⟨step, _⟩ := collects.step (by decide) called
  cases step with
  | goesOn call part left split more =>
      cases went
      obtain ⟨rfl, rfl⟩ := List.append_eq_nil_iff.mp split.symm
      exact .waiting current smsg call rfl more served
        ⟨asked.sendable, rfl, asked.travels, asked.proc⟩
  | returns part left split all =>
      obtain ⟨rfl, rfl⟩ := List.append_eq_nil_iff.mp split.symm
      cases all
  | fails error =>
      cases went
      exact .fail served (.inr (.inl
        ⟨[], asked.sendable, rfl, asked.travels, asked.proc⟩))

/-- The coordinator receives the header of the answer. -/
theorem Stage.callerAnswered
    {got : Bytes}
    {call : Call}
    (caller : s.caller = .header smsg [] call)
    (collects : Collects headerLen got call)
    (served : Served proc s.returned current)
    (answered : Answered current smsg reply got after s)
    (stepped : s.callerStep answer = some next) :
    Stage proc next := by
  unfold State.callerStep at stepped
  rw [caller] at stepped
  obtain ⟨⟨progress, _, left⟩, called, went⟩ :=
    Option.bind_eq_some_iff.mp stepped
  obtain ⟨step, _⟩ := collects.step (by decide) called
  cases step with
  | goesOn call part left split more =>
      cases went
      exact .header current after smsg reply (got ++ part) call rfl more
        served ((answered.take split).setCaller _)
  | returns part left split all =>
      have taken := answered.take split
      obtain ⟨rest, isReply⟩ := taken.replies.split
      rw [List.append_assoc] at isReply
      have some : got ++ part ≠ [] := by
        intro none
        rw [none] at all
        cases all
      have kept : extend [] (got ++ part) = got ++ part :=
        extend_eq (isReply.trans (by rw [List.nil_append])) some
      dsimp only at went
      rw [kept] at went
      have reached := Stage.callerHeader went served (taken.setCaller _) all
      exact reached
  | fails error =>
      cases went
      have taken := answered.setCaller (.header smsg [] call)
      exact .fail served (.inr (.inr ⟨reply, got, after, taken⟩))

/-- The coordinator receives the content of the answer. -/
theorem Stage.callerReceives
    {rmsg : Bytes}
    {call : Call}
    (caller : s.caller = .content smsg reply.length rmsg call)
    (takes : Takes (reply.length - rmsg.length) call)
    (short : rmsg.length < reply.length)
    (served : Served proc s.returned current)
    (answered : Answered current smsg reply (headerOf reply ++ rmsg) after s)
    (stepped : s.callerStep answer = some next) :
    Stage proc next := by
  unfold State.callerStep at stepped
  rw [caller] at stepped
  obtain ⟨⟨progress, _, left⟩, called, went⟩ :=
    Option.bind_eq_some_iff.mp stepped
  obtain ⟨step, _⟩ := takes.step called
  cases step with
  | goesOn call more =>
      cases went
      exact .content current after smsg reply rmsg call rfl more short
        served (answered.setCaller _)
  | returns chunk left split some fits =>
      cases went
      have taken := (answered.take split).setCaller
        (.content smsg reply.length rmsg call)
      rw [List.append_assoc] at taken
      exact .callerContent served taken
  | fails error =>
      cases went
      have taken := answered.setCaller
        (.content smsg reply.length rmsg call)
      exact .fail served (.inr (.inr ⟨reply, _, after, taken⟩))

/-- A system call of the coordinator. -/
theorem Stage.callerStep
    (stage : Stage proc s)
    (stepped : s.callerStep answer = some next) :
    Stage proc next := by
  cases stage with
  | quiet current caller served quiet =>
      rcases caller with caller | ⟨smsg, caller⟩
      · rw [State.callerStep, caller] at stepped
        cases stepped
      · exact .callerProbing caller served quiet stepped
  | asking current smsg rest call caller sends served asked =>
      exact .callerAsking caller sends served asked stepped
  | waiting current smsg call caller collects served asked =>
      exact .callerWaiting caller collects served asked stepped
  | header current after smsg reply got call caller collects served answered =>
      exact .callerAnswered caller collects served answered stepped
  | content current after smsg reply rmsg call caller takes short served
      answered =>
      exact .callerReceives caller takes short served answered stepped
  | failed current returned smsg part error caller isReturned served stage =>
      rw [State.callerStep, caller] at stepped
      cases stepped

/-! ## Runs -/

theorem Stage.init (proc : Participant) : Stage proc (init proc) :=
  .quiet proc (.inl rfl) .nil
    ⟨rfl, rfl, .header _ .select, fun _ => rfl⟩

theorem callerHeader_frame (went : s.callerHeader smsg header = some next) :
    next.callee = s.callee ∧ next.dead = s.dead := by
  unfold State.callerHeader at went
  split at went
  · dsimp only at went
    split at went
    · cases went
      exact ⟨rfl, rfl⟩
    · split at went
      · cases went
        exact ⟨rfl, rfl⟩
      · cases went
  · cases went
    exact ⟨rfl, rfl⟩

theorem callerContent_frame
    (s : State)
    (smsg : Bytes)
    (contentLen : Nat)
    (rmsg : Bytes) :
    (s.callerContent smsg contentLen rmsg).callee = s.callee ∧
      (s.callerContent smsg contentLen rmsg).dead = s.dead := by
  unfold State.callerContent
  split
  · exact ⟨rfl, rfl⟩
  · exact ⟨rfl, rfl⟩

/-- A system call of the coordinator is about its end and the bytes. -/
theorem callerStep_frame (stepped : s.callerStep answer = some next) :
    next.callee = s.callee ∧ next.dead = s.dead := by
  unfold State.callerStep at stepped
  split at stepped
  · cases stepped
  · cases stepped
  · split at stepped
    · split at stepped
      · cases stepped
        exact ⟨rfl, rfl⟩
      · cases stepped
    · cases stepped
      exact ⟨rfl, rfl⟩
    · cases stepped
  · obtain ⟨⟨progress, written, _⟩, _, went⟩ :=
      Option.bind_eq_some_iff.mp stepped
    cases progress with
    | goesOn | returns | fails =>
        cases went
        exact ⟨rfl, rfl⟩
  · obtain ⟨⟨progress, _, left⟩, _, went⟩ :=
      Option.bind_eq_some_iff.mp stepped
    cases progress with
    | goesOn | fails =>
        cases went
        exact ⟨rfl, rfl⟩
    | returns chunk =>
        have frame := callerHeader_frame went
        exact frame
  · obtain ⟨⟨progress, _, left⟩, _, went⟩ :=
      Option.bind_eq_some_iff.mp stepped
    cases progress with
    | goesOn | fails =>
        cases went
        exact ⟨rfl, rfl⟩
    | returns chunk =>
        cases went
        have frame := callerContent_frame
        exact frame _ _ _ _

theorem Gone.step
    {event : Event}
    (gone : Gone s)
    (taken : step s event = some next) :
    Gone next := by
  intro dead
  cases event with
  | request smsg =>
      simp only [Endpoints.step] at taken
      split at taken
      · cases taken
        exact gone dead
      · cases taken
  | caller answer =>
      obtain ⟨callee, same⟩ := callerStep_frame taken
      rw [callee]
      exact gone (same.symm.trans dead)
  | callee answer =>
      obtain ⟨_, _, _, rfl⟩ := calleeStep_frame taken
      change s.calleeStep answer = _ at taken
      rw [State.calleeStep, gone dead] at taken
      cases taken
  | work =>
      change s.work = _ at taken
      unfold State.work at taken
      split at taken
      · rename_i content isWorker
        split at taken
        · cases taken
          rfl
        · split at taken
          · cases taken
            rw [gone dead] at isWorker
            cases isWorker
          · cases taken
      · cases taken
  | die =>
      cases taken
      rfl

theorem Stage.step
    {event : Event}
    (stage : Stage proc s)
    (gone : Gone s)
    (taken : step s event = some next) :
    Stage proc next := by
  cases event with
  | request smsg =>
      simp only [Endpoints.step] at taken
      split at taken
      · rename_i idle
        cases taken
        cases stage with
        | quiet current caller served quiet =>
            exact .quiet current (.inr ⟨smsg, rfl⟩) served
              ⟨quiet.up, quiet.down, quiet.waiting, quiet.proc⟩
        | asking _ _ _ _ caller | waiting _ _ _ caller
        | header _ _ _ _ _ _ caller | content _ _ _ _ _ _ caller
        | failed _ _ _ _ _ caller =>
            rw [idle] at caller
            cases caller
      · cases taken
  | caller answer => exact stage.callerStep taken
  | callee answer => exact stage.calleeStep taken
  | work => exact stage.work gone taken
  | die =>
      cases taken
      exact stage.die

/-! ## The exchanges of the model -/

/-- A participant at the other end of a new connection. -/
def connected (proc : Participant) (fates : List Fate) : Node where
  proc := proc
  link := true
  late := none
  restarted := false
  received := []
  fates := fates

/-- One more exchange: what has been returned, and the participant. -/
def exchange
    (so : List (Bytes × Int × Bytes) × Node)
    (smsg : Bytes) : List (Bytes × Int × Bytes) × Node :=
  let (rc, rmsg, node) := so.2.sendAndRecv smsg
  (so.1 ++ [(smsg, rc, rmsg)], node)

/-- Exchanges with a participant, one after the other. -/
def exchanges (requests : List Bytes) (node : Node) :
    List (Bytes × Int × Bytes) × Node :=
  requests.foldl exchange ([], node)

theorem exchanges_concat
    {requests : List Bytes}
    {start node last : Node}
    {returned : List (Bytes × Int × Bytes)}
    {rc : Int}
    {rmsg : Bytes}
    (same : exchanges requests start = (returned, node))
    (returns : node.sendAndRecv smsg = (rc, rmsg, last)) :
    exchanges (requests ++ [smsg]) start =
      (returned ++ [(smsg, rc, rmsg)], last) := by
  unfold exchanges at same ⊢
  rw [List.foldl_append, same]
  change exchange (returned, node) smsg = _
  unfold exchange
  rw [returns]

/-- An exchange that is answered. -/
theorem sendAndRecv_answered
    {node : Node}
    {fates : List Fate}
    (link : node.link = true)
    (fate : node.fates = .answered [] [] :: fates)
    (sendable : Sendable smsg)
    (sendableReply : Sendable reply)
    (computed : node.proc.pWorker smsg = some (reply, after)) :
    node.sendAndRecv smsg = (kvOk, reply,
      { node with
        proc := after
        restarted := false
        received := node.received ++ [smsg]
        fates := fates }) := by
  obtain ⟨_, isReceived⟩ := recv_wire_of_sendable [] sendable
  obtain ⟨_, isReply⟩ := recvReply_wire_of_sendable [] sendableReply
  unfold Node.sendAndRecv
  simp only [fate, link, List.headD_cons, List.tail_cons, Node.handle,
    isReceived, computed, isReply]

/-- An exchange that fails before the request arrives. -/
theorem sendAndRecv_never
    {node : Node}
    {error : NetError}
    {part : Bytes}
    (link : node.link = true)
    (fate : node.fates = [.failed .never error part]) :
    node.sendAndRecv smsg = (error.code, part,
      { node with link := false, fates := [] }) := by
  unfold Node.sendAndRecv
  simp only [fate, link, List.headD_cons, List.tail_cons]

/-- An exchange that fails although the request has been executed. -/
theorem sendAndRecv_executed
    {node : Node}
    {error : NetError}
    {part : Bytes}
    (link : node.link = true)
    (fate : node.fates = [.failed .executed error part])
    (sendable : Sendable smsg)
    (computed : node.proc.pWorker smsg = some (reply, after)) :
    node.sendAndRecv smsg = (error.code, part,
      { node with
        proc := after
        link := false
        received := node.received ++ [smsg]
        fates := [] }) := by
  obtain ⟨_, isReceived⟩ := recv_wire_of_sendable [] sendable
  unfold Node.sendAndRecv
  simp only [fate, link, List.headD_cons, List.tail_cons, Node.runUnanswered,
    Node.handle, isReceived, computed]

/-- Exchanges that have returned are answered exchanges of the model. -/
theorem Served.exchanges
    {returned : List (Bytes × Int × Bytes)}
    (served : Served proc returned current)
    (fates : List Fate) :
    ∃ node, exchanges (returned.map Prod.fst) (connected proc
        (List.replicate returned.length (.answered [] []) ++ fates)) =
          (returned, node) ∧
      node.proc = current ∧ node.link = true ∧ node.fates = fates := by
  induction served generalizing fates with
  | nil => exact ⟨_, rfl, rfl, rfl, rfl⟩
  | snoc returned before after smsg reply served sendable sendableReply computed
      inductionHypothesis =>
      obtain ⟨node, same, isProc, link, isFates⟩ :=
        inductionHypothesis (.answered [] [] :: fates)
      rw [← isProc] at computed
      have answered := sendAndRecv_answered link isFates sendable sendableReply
        computed
      refine ⟨{ node with
        proc := after
        restarted := false
        received := node.received ++ [smsg]
        fates := fates }, ?_, rfl, link, rfl⟩
      rw [List.length_append, List.length_singleton, List.replicate_succ',
        List.append_assoc, List.singleton_append, List.map_append]
      exact exchanges_concat same answered

/-- With these fates the exchanges of the model return what `sendAndRecv` has
returned, and between two exchanges, or after a failed one, the participant is
the one of the model. -/
structure Explains
    (proc : Participant)
    (fates : List Fate)
    (s : State) : Prop where
  returned : (exchanges (s.returned.map Prod.fst) (connected proc fates)).1 =
    s.returned
  participant : s.caller = .idle ∨ s.caller = .failed → s.dead = false →
    (exchanges (s.returned.map Prod.fst) (connected proc fates)).2.proc = s.proc

theorem Explains.of_exchanges
    {fates : List Fate}
    {node : Node}
    (same : exchanges (s.returned.map Prod.fst) (connected proc fates) =
      (s.returned, node))
    (isProc : s.caller = .idle ∨ s.caller = .failed → s.dead = false →
      node.proc = s.proc) :
    Explains proc fates s := by
  refine ⟨congrArg Prod.fst same, ?_⟩
  rw [same]
  exact isProc

/-- After a failed exchange the request has been executed, or it has not. -/
theorem explains_failed
    {returned : List (Bytes × Int × Bytes)}
    {error : NetError}
    {part : Bytes}
    (isReturned : s.returned = returned ++ [(smsg, error.code, part)])
    (served : Served proc returned current)
    (stage : Quiet current s ∨ (∃ rest, Asked current smsg rest s) ∨
      ∃ reply taken after, Answered current smsg reply taken after s) :
    ∃ fates, Explains proc fates s := by
  have requests : s.returned.map Prod.fst =
      returned.map Prod.fst ++ [smsg] := by
    rw [isReturned, List.map_append]
    rfl
  have never : (s.dead = false → s.proc = current) →
      ∃ fates, Explains proc fates s := by
    intro isCurrent
    obtain ⟨node, same, isProc, link, isFates⟩ :=
      served.exchanges [.failed .never error part]
    have fails : node.sendAndRecv smsg = _ := sendAndRecv_never link isFates
    have all := exchanges_concat same fails
    rw [← requests, ← isReturned] at all
    exact ⟨_, .of_exchanges all
      fun _ alive => isProc.trans (isCurrent alive).symm⟩
  rcases stage with quiet | ⟨rest, asked⟩ | ⟨reply, taken, after, answered⟩
  · exact never quiet.proc
  · exact never asked.proc
  · obtain ⟨node, same, isProc, link, isFates⟩ :=
      served.exchanges [.failed .executed error part]
    have computed := answered.computed
    rw [← isProc] at computed
    have fails := sendAndRecv_executed link isFates answered.sendable computed
    have all := exchanges_concat same fails
    rw [← requests, ← isReturned] at all
    exact ⟨_, .of_exchanges all fun _ alive => (answered.proc alive).symm⟩

/-- Whatever the system calls answer, and in whatever order the two ends go on,
their exchanges are exchanges of the model. -/
theorem exchanges_explained
    {events : List Event}
    (run : Run step Run.free (init proc) events s) :
    ∃ fates, Explains proc fates s := by
  have kept : Stage proc s ∧ Gone s := by
    have gone : Gone (init proc) := fun dead => nomatch dead
    apply run.preserves _ (And.intro (Stage.init proc) gone)
    rintro state event next ⟨stage, gone⟩ _ taken
    exact ⟨stage.step gone taken, gone.step taken⟩
  have running : ∀ current, Served proc s.returned current →
      ¬(s.caller = .idle ∨ s.caller = .failed) →
        ∃ fates, Explains proc fates s := by
    intro current served busy
    obtain ⟨node, same, _⟩ := served.exchanges []
    exact ⟨_, .of_exchanges same fun atRest => absurd atRest busy⟩
  cases kept.1 with
  | quiet current caller served quiet =>
      obtain ⟨node, same, isProc, _⟩ := served.exchanges []
      exact ⟨_, .of_exchanges same
        fun _ alive => isProc.trans (quiet.proc alive).symm⟩
  | asking current smsg rest call caller sends served asked =>
      exact running current served (by simp [caller])
  | waiting current smsg call caller collects served asked =>
      exact running current served (by simp [caller])
  | header current after smsg reply got call caller collects served answered =>
      exact running current served (by simp [caller])
  | content current after smsg reply rmsg call caller takes short served
      answered =>
      exact running current served (by simp [caller])
  | failed current returned smsg part error caller isReturned served stage =>
      exact explains_failed isReturned served stage

/-- A vote is answered, in parts and with interrupts; the next one arrives, and
the coordinator gives up. -/
def votes : List Event :=
  [.request (voteReq txidStart), .caller (.amount 0), .caller (.failed .eintr),
    .caller .ready, .caller (.amount 5), .callee .timeout, .callee .ready,
    .callee (.amount 2), .caller (.amount 21), .callee .ready,
    .callee (.amount 3), .callee .ready, .callee (.amount 4), .callee .ready,
    .callee (.failed .eintr), .callee (.amount 17), .work, .callee .ready,
    .callee (.amount 12), .caller .ready, .caller (.amount 9), .caller .ready,
    .caller (.amount 2), .caller .ready, .caller (.amount 1),
    .request (voteReq txidStart), .caller (.amount 0), .caller .ready,
    .caller (.amount 26), .callee .ready, .callee (.amount 9), .caller .timeout,
    .callee .ready, .callee (.amount 17), .work]

theorem exchanges_explained_votes :
    ∃ s fates, s.returned = [(voteReq txidStart, kvOk, str "PRE"),
        (voteReq txidStart, kvTimeout, [])] ∧
      Explains .init fates s := by
  have executed : (votes.foldlM step (init .init)).map State.returned =
      some [(voteReq txidStart, kvOk, str "PRE"),
        (voteReq txidStart, kvTimeout, [])] := by
    decide +kernel
  obtain ⟨s, executed, returned⟩ := Option.map_eq_some_iff.mp executed
  obtain ⟨fates, explains⟩ := exchanges_explained (Run.of_executed executed)
  exact ⟨s, fates, returned, explains⟩

end Endpoints
end Lab3
end CloudComputing
