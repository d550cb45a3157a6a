import CloudComputing.Lab3.Exchange

/-!
# Calls of `ossSocket`

`send`, `recv` and `recvNF` as they run: each waits in `select` and goes on to
`::send` or `::recv`, which transfer a part of what they are asked for.  What a
system call answers is an input; the bytes on their way to the caller are read
in order.
-/

namespace CloudComputing
namespace Lab3
namespace OssSocket

/-- The values of `errno` that the calls look at. -/
inductive Errno
  | eintr
  | eagain
  | other
  deriving DecidableEq, Repr

/-- What a system call answers: `select` that the socket is ready, that it is
not in the set, or nothing in time; `::send` and `::recv` how many bytes they
have transferred, `::recv` that the other end has closed; each of them -1. -/
inductive Answer
  | ready
  | unset
  | timeout
  | amount (count : Nat)
  | closed
  | failed (errno : Errno)
  deriving DecidableEq, Repr

/-- A call that has not returned, in `select` or in the loop behind it, with
the bytes that are left to send, or the length that is left to receive. -/
inductive Call
  | sendSelect (rest : Bytes)
  | sending (rest : Bytes)
  | recvSelect (len : Nat)
  | receiving (len : Nat) (got : Bytes) (retries : Nat)
  | recvNFSelect (len : Nat)
  | receivingNF (len : Nat)
  deriving DecidableEq, Repr

/-- `MAX_RECV_RETRIES` -/
def maxRecvRetries : Nat := 5

/-- What an answer makes of a call. -/
inductive Progress
  | goesOn (call : Call)
  | returns (data : Bytes)
  | fails (error : NetError)
  deriving DecidableEq, Repr

/-- The loop around `select`. -/
def select (call ready : Call) : Answer → Option Progress
  | .ready => some (.goesOn ready)
  | .unset => some (.goesOn call)
  | .timeout => some (.fails .timeout)
  | .failed .eintr => some (.goesOn call)
  | .failed _ => some (.fails .network)
  | _ => none

/-- What `::send` makes of `ossSocket::send`, and the bytes it writes. -/
def sent (rest : Bytes) : Answer → Option (Progress × Bytes)
  | .amount count =>
      if 0 < count ∧ count ≤ rest.length then
        some
          (if count = rest.length then .returns []
            else .goesOn (.sending (rest.drop count)),
          rest.take count)
      else none
  | .failed _ => some (.fails .network, [])
  | _ => none

/-- What `::recv` makes of `ossSocket::recv`, and the bytes it leaves.  The
socket has no timeout of its own, so `EAGAIN` is an error like the others. -/
def received
    (len : Nat)
    (got : Bytes)
    (retries : Nat)
    (incoming : Bytes) : Answer → Option (Progress × Bytes)
  | .amount count =>
      if 0 < count ∧ count ≤ len ∧ count ≤ incoming.length then
        some
          (if count = len then .returns (got ++ incoming.take count)
            else .goesOn
              (.receiving (len - count) (got ++ incoming.take count) retries),
          incoming.drop count)
      else none
  | .closed => some (.fails .networkClose, incoming)
  | .failed errno =>
      some
        (if errno = .eintr ∧ retries < maxRecvRetries then
          .goesOn (.receiving len got (retries + 1))
        else .fails .network,
        incoming)
  | _ => none

/-- What `::recv` makes of `ossSocket::recvNF`.  After an interrupt the call
counts a retry and fails all the same. -/
def receivedNF (len : Nat) (incoming : Bytes) :
    Answer → Option (Progress × Bytes)
  | .amount count =>
      if 0 < count ∧ count ≤ len ∧ count ≤ incoming.length then
        some (.returns (incoming.take count), incoming.drop count)
      else none
  | .closed => some (.fails .networkClose, incoming)
  | .failed _ => some (.fails .network, incoming)
  | _ => none

/-- One system call of a call: what becomes of it, the bytes that it writes,
and what it leaves of the bytes on their way. -/
def Call.step (incoming : Bytes) (answer : Answer) :
    Call → Option (Progress × Bytes × Bytes)
  | .sendSelect rest =>
      (select (.sendSelect rest) (.sending rest) answer).map
        fun progress => (progress, [], incoming)
  | .sending rest =>
      (sent rest answer).map
        fun (progress, written) => (progress, written, incoming)
  | .recvSelect len =>
      (select (.recvSelect len) (.receiving len [] 0) answer).map
        fun progress => (progress, [], incoming)
  | .receiving len got retries =>
      (received len got retries incoming answer).map
        fun (progress, left) => (progress, [], left)
  | .recvNFSelect len =>
      (select (.recvNFSelect len) (.receivingNF len) answer).map
        fun progress => (progress, [], incoming)
  | .receivingNF len =>
      (receivedNF len incoming answer).map
        fun (progress, left) => (progress, [], left)

/-! ## What a call does -/

/-- A call of `send` with these bytes left. -/
inductive Sends (rest : Bytes) : Call → Prop
  | select (some : rest ≠ []) : Sends rest (.sendSelect rest)
  | sending (some : rest ≠ []) : Sends rest (.sending rest)

/-- A call of `recv` for so many bytes that has got these. -/
inductive Collects (len : Nat) (got : Bytes) : Call → Prop
  | select (none : got = []) : Collects len got (.recvSelect len)
  | receiving
      (missing retries : Nat)
      (positive : 0 < missing)
      (sum : got.length + missing = len) :
      Collects len got (.receiving missing got retries)

/-- A call of `recvNF` for at most so many bytes. -/
inductive Takes (len : Nat) : Call → Prop
  | select : Takes len (.recvNFSelect len)
  | receiving : Takes len (.receivingNF len)

variable {incoming left written rest got : Bytes} {len : Nat} {call : Call}
variable {answer : Answer} {progress : Progress}

theorem select_cases
    {ready : Call}
    (selected : select call ready answer = some progress) :
    progress = .goesOn ready ∨ progress = .goesOn call ∨
      ∃ error, progress = .fails error := by
  unfold select at selected
  split at selected
  · cases selected
    exact .inl rfl
  · cases selected
    exact .inr (.inl rfl)
  · cases selected
    exact .inr (.inr ⟨_, rfl⟩)
  · cases selected
    exact .inr (.inl rfl)
  · cases selected
    exact .inr (.inr ⟨_, rfl⟩)
  · cases selected

/-- What a step of `send` makes of the bytes it has left. -/
inductive SendStep (rest : Bytes) : Progress → Bytes → Prop
  | goesOn
      (call : Call)
      (written later : Bytes)
      (split : rest = written ++ later)
      (sends : Sends later call) :
      SendStep rest (.goesOn call) written
  | returns (data : Bytes) : SendStep rest (.returns data) rest
  | fails (error : NetError) : SendStep rest (.fails error) []

/-- A step of `send` writes the next bytes and reads none. -/
theorem Sends.step
    (sends : Sends rest call)
    (taken : call.step incoming answer = some (progress, written, left)) :
    SendStep rest progress written ∧ left = incoming := by
  cases sends with
  | select nonempty =>
      obtain ⟨progress, selected, same⟩ := Option.map_eq_some_iff.mp taken
      cases same
      rcases select_cases selected with rfl | rfl | ⟨error, rfl⟩
      · exact ⟨.goesOn _ [] rest rfl (.sending nonempty), rfl⟩
      · exact ⟨.goesOn _ [] rest rfl (.select nonempty), rfl⟩
      · exact ⟨.fails error, rfl⟩
  | sending nonempty =>
      obtain ⟨⟨progress, written⟩, isSent, same⟩ :=
        Option.map_eq_some_iff.mp taken
      cases same
      unfold sent at isSent
      split at isSent
      case h_1 count =>
        split at isSent
        case isTrue bounds =>
          cases isSent
          by_cases all : count = rest.length
          · rw [if_pos all, all, List.take_length]
            exact ⟨.returns [], rfl⟩
          · rw [if_neg all]
            refine ⟨.goesOn _ _ _ (List.take_append_drop count rest).symm
              (.sending ?_), rfl⟩
            rw [ne_eq, List.drop_eq_nil_iff]
            omega
        case isFalse => cases isSent
      case h_2 =>
        cases isSent
        exact ⟨.fails _, rfl⟩
      case h_3 => cases isSent

/-- What a step of `recv` makes of the bytes that are on their way. -/
inductive CollectStep (len : Nat) (got incoming : Bytes) :
    Progress → Bytes → Prop
  | goesOn
      (call : Call)
      (taken left : Bytes)
      (split : incoming = taken ++ left)
      (collects : Collects len (got ++ taken) call) :
      CollectStep len got incoming (.goesOn call) left
  | returns
      (taken left : Bytes)
      (split : incoming = taken ++ left)
      (all : (got ++ taken).length = len) :
      CollectStep len got incoming (.returns (got ++ taken)) left
  | fails (error : NetError) :
      CollectStep len got incoming (.fails error) incoming

/-- A step of `recv` takes the next bytes and writes none. -/
theorem Collects.step
    (collects : Collects len got call)
    (positive : 0 < len)
    (taken : call.step incoming answer = some (progress, written, left)) :
    CollectStep len got incoming progress left ∧ written = [] := by
  cases collects with
  | select none =>
      obtain ⟨progress, selected, same⟩ := Option.map_eq_some_iff.mp taken
      cases same
      subst none
      rcases select_cases selected with rfl | rfl | ⟨error, rfl⟩
      · refine ⟨.goesOn _ [] incoming rfl (.receiving len 0 positive ?_), rfl⟩
        exact Nat.zero_add len
      · exact ⟨.goesOn _ [] incoming rfl (.select rfl), rfl⟩
      · exact ⟨.fails error, rfl⟩
  | receiving missing retries positive sum =>
      obtain ⟨⟨progress, left⟩, isReceived, same⟩ :=
        Option.map_eq_some_iff.mp taken
      cases same
      unfold received at isReceived
      split at isReceived
      case h_1 count =>
        split at isReceived
        case isTrue bounds =>
          cases isReceived
          have size : (incoming.take count).length = count :=
            List.length_take_of_le bounds.2.2
          have split := (List.take_append_drop count incoming).symm
          by_cases all : count = missing
          · rw [if_pos all]
            refine ⟨.returns _ _ split ?_, rfl⟩
            rw [List.length_append, size]
            omega
          · rw [if_neg all]
            refine ⟨.goesOn _ _ _ split (.receiving _ retries ?_ ?_), rfl⟩
            · omega
            · rw [List.length_append, size]
              omega
        case isFalse => cases isReceived
      case h_2 =>
        cases isReceived
        exact ⟨.fails _, rfl⟩
      case h_3 errno =>
        cases isReceived
        split
        · refine ⟨.goesOn _ [] incoming rfl ?_, rfl⟩
          rw [List.append_nil]
          exact .receiving missing _ positive sum
        · exact ⟨.fails _, rfl⟩
      case h_4 => cases isReceived

/-- What a step of `recvNF` makes of the bytes that are on their way. -/
inductive TakeStep (len : Nat) (incoming : Bytes) : Progress → Bytes → Prop
  | goesOn
      (call : Call)
      (takes : Takes len call) :
      TakeStep len incoming (.goesOn call) incoming
  | returns
      (chunk left : Bytes)
      (split : incoming = chunk ++ left)
      (some : chunk ≠ [])
      (short : chunk.length ≤ len) :
      TakeStep len incoming (.returns chunk) left
  | fails (error : NetError) : TakeStep len incoming (.fails error) incoming

/-- A step of `recvNF` takes the next bytes and writes none. -/
theorem Takes.step
    (takes : Takes len call)
    (taken : call.step incoming answer = some (progress, written, left)) :
    TakeStep len incoming progress left ∧ written = [] := by
  cases takes with
  | select =>
      obtain ⟨progress, selected, same⟩ := Option.map_eq_some_iff.mp taken
      cases same
      rcases select_cases selected with rfl | rfl | ⟨error, rfl⟩
      · exact ⟨.goesOn _ .receiving, rfl⟩
      · exact ⟨.goesOn _ .select, rfl⟩
      · exact ⟨.fails error, rfl⟩
  | receiving =>
      obtain ⟨⟨progress, left⟩, isReceived, same⟩ :=
        Option.map_eq_some_iff.mp taken
      cases same
      unfold receivedNF at isReceived
      split at isReceived
      case h_1 count =>
        split at isReceived
        case isTrue bounds =>
          cases isReceived
          have size : (incoming.take count).length = count :=
            List.length_take_of_le bounds.2.2
          refine ⟨.returns _ _ (List.take_append_drop count incoming).symm
            ?_ ?_, rfl⟩
          · rw [← List.length_pos_iff, size]
            exact bounds.1
          · rw [size]
            exact bounds.2.1
        case isFalse => cases isReceived
      case h_2 =>
        cases isReceived
        exact ⟨.fails _, rfl⟩
      case h_3 =>
        cases isReceived
        exact ⟨.fails _, rfl⟩
      case h_4 => cases isReceived

end OssSocket
end Lab3
end CloudComputing
