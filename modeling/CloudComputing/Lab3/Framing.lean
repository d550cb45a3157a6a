import CloudComputing.Lab3.Core

/-!
# Message framing between coordinator and participants

A message is sent as `~`, its length in eight bytes (in the host's byte order,
little-endian) and its bytes.  The two receivers of `network.cc` are modelled
on the bytes that are in the connection: a result `none` means that the bytes
end before a whole message has arrived, so the receiver keeps waiting until it
gives up.  The list `reads` says how many bytes each partial read (`recvNF`)
delivers.

Both receivers return exactly the framed message, for every way of splitting
the stream.
-/

namespace CloudComputing
namespace Lab3
namespace Network

/-- `NETWORK_HEADER_LEN` -/
def headerLen : Nat := 9

/-- Little-endian bytes of a number. -/
def littleEndian : Nat → Nat → Bytes
  | 0, _ => []
  | width + 1, number =>
      UInt8.ofNat (number % 256) :: littleEndian width (number / 256)

/-- Number with the given little-endian bytes. -/
def ofLittleEndian : Bytes → Nat
  | [] => 0
  | byte :: bytes => byte.toNat + 256 * ofLittleEndian bytes

/-- `numtob<uint64_t>` -/
def numtob (number : Nat) : Bytes := littleEndian 8 number

/-- `btonum<uint64_t>` -/
def btonum (bytes : Bytes) (offset : Nat) : Nat :=
  ofLittleEndian ((bytes.drop offset).take 8)

/-- The packet that `send` and `sendAndRecv` build from a message. -/
def pack (msg : Bytes) : Bytes := str "~" ++ numtob msg.length ++ msg

/-- A message whose packet has a length that fits an `int`. -/
def Sendable (msg : Bytes) : Prop := headerLen + msg.length < 2 ^ 31

instance (msg : Bytes) : Decidable (Sendable msg) :=
  inferInstanceAs (Decidable (_ < _))

/-- `ossSocket::send`.  The length parameter is an `int`: the length of a
longer packet turns negative or loses its high part, and the packet is never
written completely. -/
def wire (pac : Bytes) : Bytes :=
  if pac.length < 2 ^ 31 then pac else []

/-- `ossSocket::recvNF`: up to `asked` of the available bytes, at least one. -/
def recvNF (asked : Nat) :
    List Nat → Bytes → Option (Bytes × List Nat × Bytes)
  | _, [] => none
  | [], stream => some (stream.take asked, [], stream.drop asked)
  | size :: reads, stream =>
      let len := max 1 (min size asked)
      some (stream.take len, reads, stream.drop len)

/-- `ossSocket::recv`: exactly `asked` bytes. -/
def recvAll (asked : Nat) (stream : Bytes) : Option (Bytes × Bytes) :=
  if asked < 2 ^ 31 ∧ asked ≤ stream.length then
    some (stream.take asked, stream.drop asked)
  else none

/-- What is kept of a first header chunk: everything from its first `~`. -/
def fromMarker (chunk : Bytes) : Bytes :=
  chunk.dropWhile (· ≠ 126)

/-- The header loop of `Network::recv`. -/
def recvHeader :
    Nat → Bytes → Nat → List Nat → Bytes → Option (Bytes × List Nat × Bytes)
  | 0, _, _, _, _ => none
  | fuel + 1, header, len, reads, stream =>
      if len = headerLen then some (header, reads, stream)
      else
        match recvNF (headerLen - len) reads stream with
        | none => none
        | some (chunk, reads, stream) =>
            if len = 0 then
              if 126 ∈ chunk then
                recvHeader fuel (fromMarker chunk)
                  (len + (fromMarker chunk).length) reads stream
              else recvHeader fuel header len reads stream
            else
              recvHeader fuel (header ++ chunk) (len + chunk.length) reads
                stream

/-- `Network::recv`: the message, and what is left of the reads and bytes. -/
def recv (reads : List Nat) (stream : Bytes) :
    Option (Bytes × List Nat × Bytes) := do
  let (header, reads, stream) ← recvHeader (stream.length + 1) [] 0 reads stream
  let contentLen := btonum header 1
  let (content, stream) ← recvAll contentLen stream
  some (content, reads, stream)

/-- The header loop of `sendAndRecv`, whose next length is computed from the
header itself and which reads full chunks. -/
def replyHeader : Nat → Bytes → Nat → Bytes → Option (Bytes × Bytes)
  | 0, _, _, _ => none
  | fuel + 1, header, len, stream =>
      if len = headerLen then some (header, stream)
      else
        match recvAll (headerLen - header.length) stream with
        | none => none
        | some (chunk, stream) =>
            if header.length = 0 then
              if 126 ∈ chunk then
                replyHeader fuel (fromMarker chunk)
                  (len + (fromMarker chunk).length) stream
              else replyHeader fuel header len stream
            else
              replyHeader fuel (header ++ chunk) (len + chunk.length) stream

/-- The content loop of `sendAndRecv`. -/
def replyContent :
    Nat → Nat → Bytes → List Nat → Bytes → Option (Bytes × List Nat × Bytes)
  | 0, _, _, _, _ => none
  | fuel + 1, contentLen, rmsg, reads, stream =>
      if rmsg.length = contentLen then some (rmsg, reads, stream)
      else
        match recvNF (contentLen - rmsg.length) reads stream with
        | none => none
        | some (chunk, reads, stream) =>
            replyContent fuel contentLen (rmsg ++ chunk) reads stream

/-- The receiving half of `sendAndRecv`, with `rmsg` initially empty. -/
def recvReply (reads : List Nat) (stream : Bytes) :
    Option (Bytes × List Nat × Bytes) := do
  let (header, stream) ← replyHeader (stream.length + 1) [] 0 stream
  let contentLen := btonum header 1
  if contentLen = 0 then some ([], reads, stream)
  else replyContent (stream.length + 1) contentLen [] reads stream

/-! ## Length fields -/

@[simp] theorem length_littleEndian (width number : Nat) :
    (littleEndian width number).length = width := by
  induction width generalizing number with
  | zero => rfl
  | succ width inductionHypothesis =>
      simp [littleEndian, inductionHypothesis]

theorem ofLittleEndian_littleEndian (width number : Nat) :
    ofLittleEndian (littleEndian width number) = number % 256 ^ width := by
  induction width generalizing number with
  | zero => simp [littleEndian, ofLittleEndian, Nat.mod_one]
  | succ width inductionHypothesis =>
      have low : number % 256 < 256 := Nat.mod_lt number (by omega)
      have byteValue : (UInt8.ofNat (number % 256)).toNat = number % 256 := by
        rw [UInt8.toNat_ofNat']
        exact Nat.mod_eq_of_lt low
      rw [littleEndian, ofLittleEndian, inductionHypothesis, byteValue,
        Nat.pow_succ, Nat.mul_comm (256 ^ width) 256, Nat.mod_mul]

@[simp] theorem length_numtob (number : Nat) : (numtob number).length = 8 :=
  length_littleEndian 8 number

/-- The length field of a header is read back. -/
theorem btonum_header
    {number : Nat}
    (small : number < 2 ^ 64) :
    btonum (str "~" ++ numtob number) 1 = number := by
  have tail : (str "~" ++ numtob number).drop 1 = numtob number := rfl
  rw [btonum, tail, List.take_of_length_le (by simp), numtob,
    ofLittleEndian_littleEndian]
  exact Nat.mod_eq_of_lt (by simpa using small)

/-! ## The header loops -/

/-- The header of a packet. -/
abbrev headerOf (msg : Bytes) : Bytes := str "~" ++ numtob msg.length

theorem fromMarker_append_marker
    (noise rest : Bytes)
    (clean : (126 : UInt8) ∉ noise) :
    fromMarker (noise ++ 126 :: rest) = 126 :: rest := by
  have allNoise : ∀ byte ∈ noise, (byte ≠ 126 : Bool) = true := by
    intro byte member
    simpa using fun equal : byte = 126 => clean (equal ▸ member)
  rw [fromMarker, List.dropWhile_append_of_pos allNoise,
    List.dropWhile_cons_of_neg (by simp)]

/-- A partial read takes a nonempty part of what it asked for. -/
theorem recvNF_eq
    {asked : Nat}
    (positive : 0 < asked)
    (reads : List Nat)
    {stream : Bytes}
    (available : stream ≠ []) :
    ∃ len reads', 0 < len ∧ len ≤ asked ∧
      recvNF asked reads stream =
        some (stream.take len, reads', stream.drop len) := by
  cases stream with
  | nil => exact absurd rfl available
  | cons byte stream =>
      cases reads with
      | nil => exact ⟨asked, [], positive, le_refl asked, rfl⟩
      | cons size reads =>
          exact ⟨max 1 (min size asked), reads, by omega, by omega, rfl⟩

/-- A header of which a nonempty part has arrived is completed. -/
theorem recvHeader_of_started
    (fuel : Nat)
    (arrived missing rest : Bytes)
    (reads : List Nat)
    (started : arrived ≠ [])
    (total : (arrived ++ missing).length = headerLen)
    (enough : missing.length < fuel) :
    ∃ reads', recvHeader fuel arrived arrived.length reads (missing ++ rest) =
      some (arrived ++ missing, reads', rest) := by
  induction fuel generalizing arrived missing reads with
  | zero => omega
  | succ fuel inductionHypothesis =>
      rw [List.length_append] at total
      by_cases complete : missing = []
      · subst complete
        refine ⟨reads, ?_⟩
        simp only [List.length_nil, Nat.add_zero] at total
        simp [recvHeader, total]
      · have missingPositive : 0 < missing.length :=
          List.length_pos_iff.mpr complete
        obtain ⟨len, reads', positive, short, chunk⟩ :=
          recvNF_eq (show 0 < headerLen - arrived.length by omega) reads
            (show missing ++ rest ≠ [] by simp [complete])
        have inMissing : len ≤ missing.length := by omega
        rw [List.take_append_of_le_length inMissing,
          List.drop_append_of_le_length inMissing] at chunk
        have lenTake : (missing.take len).length = len := by
          rw [List.length_take]
          omega
        obtain ⟨reads'', completed⟩ := inductionHypothesis
          (arrived ++ missing.take len) (missing.drop len) reads'
          (by simp [started])
          (by simp only [List.append_assoc, List.take_append_drop,
                List.length_append]
              omega)
          (by rw [List.length_drop]; omega)
        refine ⟨reads'', ?_⟩
        have notEmpty : arrived.length ≠ 0 := by
          simpa [List.length_eq_zero_iff] using started
        rw [recvHeader, if_neg (by omega), chunk]
        simp only [if_neg notEmpty]
        rw [← List.length_append, completed, List.append_assoc,
          List.take_append_drop]

/-- A chunk that reaches into the header: it ends with the first bytes of the
header, and the others are still in the stream. -/
theorem chunk_reaches
    (noise rest : Bytes)
    {fields : Bytes}
    (width : fields.length = 8)
    {len : Nat}
    (reaches : noise.length < len)
    (short : len ≤ headerLen) :
    (noise ++ (126 :: fields ++ rest)).take len =
        noise ++ 126 :: fields.take (len - noise.length - 1) ∧
      (noise ++ (126 :: fields ++ rest)).drop len =
        fields.drop (len - noise.length - 1) ++ rest := by
  have inHeader : len - noise.length ≤ (126 :: fields).length := by
    simp only [List.length_cons, width, headerLen] at short ⊢
    omega
  have next : len - noise.length = len - noise.length - 1 + 1 := by omega
  constructor
  · rw [List.take_append, List.take_of_length_le (by omega),
      List.take_append_of_le_length inHeader]
    congr 1
    nth_rewrite 1 [next]
    rfl
  · rw [List.drop_append, List.drop_eq_nil_of_le (by omega),
      List.drop_append_of_le_length inHeader]
    simp only [List.nil_append]
    congr 1
    nth_rewrite 1 [next]
    rfl

/-- The header loop skips bytes without a marker and then collects the header
of the packet. -/
theorem recvHeader_noise
    (fuel : Nat)
    (noise rest : Bytes)
    (clean : (126 : UInt8) ∉ noise)
    (fields : Bytes)
    (width : fields.length = 8)
    (reads : List Nat)
    (enough : noise.length + headerLen < fuel) :
    ∃ reads', recvHeader fuel [] 0 reads (noise ++ (126 :: fields ++ rest)) =
      some (126 :: fields, reads', rest) := by
  induction fuel generalizing noise reads with
  | zero => omega
  | succ fuel inductionHypothesis =>
      obtain ⟨len, reads', positive, short, chunk⟩ :=
        recvNF_eq (show 0 < headerLen - 0 by simp [headerLen]) reads
          (show noise ++ (126 :: fields ++ rest) ≠ [] by simp)
      rw [recvHeader, if_neg (by simp [headerLen]), chunk]
      simp only [if_true]
      by_cases inNoise : len ≤ noise.length
      · -- the whole chunk is noise and is dropped
        have noMarker :
            (126 : UInt8) ∉ (noise ++ (126 :: fields ++ rest)).take len := by
          rw [List.take_append_of_le_length inNoise]
          exact fun member => clean (List.mem_of_mem_take member)
        rw [if_neg noMarker, List.drop_append_of_le_length inNoise]
        exact inductionHypothesis (noise.drop len)
          (fun member => clean (List.mem_of_mem_drop member)) reads'
          (by rw [List.length_drop]; omega)
      · -- the chunk reaches into the header
        obtain ⟨chunkTake, chunkDrop⟩ := chunk_reaches noise rest width
          (show noise.length < len by omega) short
        rw [chunkTake, chunkDrop, if_pos (by simp),
          fromMarker_append_marker _ _ clean, Nat.zero_add]
        obtain ⟨reads'', completed⟩ := recvHeader_of_started fuel
          (126 :: fields.take (len - noise.length - 1))
          (fields.drop (len - noise.length - 1)) rest reads' (by simp)
          (by simp only [List.cons_append, List.take_append_drop,
                List.length_cons, width, headerLen])
          (by
            rw [List.length_drop, width]
            simp only [headerLen] at enough
            omega)
        refine ⟨reads'', ?_⟩
        rw [completed, List.cons_append, List.take_append_drop]

/-- `recv` returns the message of the next packet, whatever bytes without a
marker precede it and however the stream is split. -/
theorem recv_pack
    (reads : List Nat)
    (noise rest : Bytes)
    (clean : (126 : UInt8) ∉ noise)
    {msg : Bytes}
    (sendable : Sendable msg) :
    ∃ reads', recv reads (noise ++ (pack msg ++ rest)) =
      some (msg, reads', rest) := by
  have small : msg.length < 2 ^ 31 := by
    simp only [Sendable] at sendable
    omega
  have packet :
      pack msg ++ rest = 126 :: numtob msg.length ++ (msg ++ rest) := by
    rw [pack]
    simp only [List.append_assoc]
    rfl
  obtain ⟨reads', header⟩ := recvHeader_noise
    ((noise ++ (pack msg ++ rest)).length + 1) noise (msg ++ rest) clean
    (numtob msg.length) (length_numtob _) reads
    (by
      rw [packet]
      simp only [List.length_append, List.length_cons, length_numtob,
        headerLen]
      omega)
  refine ⟨reads', ?_⟩
  rw [recv, packet] at *
  have length : btonum (126 :: numtob msg.length) 1 = msg.length :=
    btonum_header (by omega)
  simp only [header, Option.bind_eq_bind, Option.bind_some, length]
  rw [recvAll, if_pos ⟨small, by simp⟩]
  simp

/-! ## The receiving half of `sendAndRecv` -/

/-- A header of which a nonempty part has arrived is completed. -/
theorem replyHeader_of_started
    (fuel : Nat)
    (arrived missing rest : Bytes)
    (started : arrived ≠ [])
    (total : (arrived ++ missing).length = headerLen) :
    replyHeader (fuel + 2) arrived arrived.length (missing ++ rest) =
      some (arrived ++ missing, rest) := by
  rw [List.length_append] at total
  by_cases complete : missing = []
  · subst complete
    simp only [List.length_nil, Nat.add_zero] at total
    simp [replyHeader, total]
  · have missingPositive : 0 < missing.length :=
      List.length_pos_iff.mpr complete
    have asked : headerLen - arrived.length = missing.length := by omega
    have notEmpty : arrived.length ≠ 0 := by
      simpa [List.length_eq_zero_iff] using started
    have short : missing.length < 2 ^ 31 := by
      simp only [headerLen] at total
      omega
    rw [replyHeader, if_neg (by omega), asked, recvAll,
      if_pos ⟨short, by simp⟩]
    simp only [if_neg notEmpty, List.take_left, List.drop_left]
    rw [replyHeader, if_pos total]

/-- The header loop skips whole chunks without a marker and then collects the
header of the packet. -/
theorem replyHeader_noise
    (fuel : Nat)
    (noise rest : Bytes)
    (clean : (126 : UInt8) ∉ noise)
    (fields : Bytes)
    (width : fields.length = 8)
    (enough : noise.length + headerLen < fuel) :
    replyHeader fuel [] 0 (noise ++ (126 :: fields ++ rest)) =
      some (126 :: fields, rest) := by
  induction fuel generalizing noise with
  | zero => omega
  | succ fuel inductionHypothesis =>
      have available :
          headerLen < 2 ^ 31 ∧
            headerLen ≤ (noise ++ (126 :: fields ++ rest)).length := by
        simp only [List.length_append, List.length_cons, width, headerLen]
        omega
      rw [replyHeader, if_neg (by simp [headerLen]), recvAll, List.length_nil,
        Nat.sub_zero, if_pos available]
      simp only [if_true]
      by_cases inNoise : headerLen ≤ noise.length
      · -- the whole chunk is noise and is dropped
        have noMarker :
            (126 : UInt8) ∉
              (noise ++ (126 :: fields ++ rest)).take headerLen := by
          rw [List.take_append_of_le_length inNoise]
          exact fun member => clean (List.mem_of_mem_take member)
        rw [if_neg noMarker, List.drop_append_of_le_length inNoise]
        exact inductionHypothesis (noise.drop headerLen)
          (fun member => clean (List.mem_of_mem_drop member))
          (by
            simp only [List.length_drop, headerLen] at enough inNoise ⊢
            omega)
      · -- the chunk reaches into the header
        obtain ⟨chunkTake, chunkDrop⟩ := chunk_reaches noise rest width
          (show noise.length < headerLen by omega) le_rfl
        obtain ⟨fuel, rfl⟩ : ∃ fuel', fuel = fuel' + 2 :=
          ⟨fuel - 2, by simp only [headerLen] at enough; omega⟩
        rw [chunkTake, chunkDrop, if_pos (by simp),
          fromMarker_append_marker _ _ clean, Nat.zero_add]
        rw [replyHeader_of_started fuel _ _ rest (by simp)
          (by simp only [List.cons_append, List.take_append_drop,
                List.length_cons, width, headerLen]),
          List.cons_append, List.take_append_drop]

/-- The content loop collects the content over any partial reads. -/
theorem replyContent_append
    (fuel : Nat)
    (arrived missing rest : Bytes)
    (reads : List Nat)
    (enough : missing.length < fuel) :
    ∃ reads', replyContent fuel (arrived ++ missing).length arrived reads
        (missing ++ rest) =
      some (arrived ++ missing, reads', rest) := by
  induction fuel generalizing arrived missing reads with
  | zero => omega
  | succ fuel inductionHypothesis =>
      by_cases complete : missing = []
      · subst complete
        exact ⟨reads, by simp [replyContent]⟩
      · have missingPositive : 0 < missing.length :=
          List.length_pos_iff.mpr complete
        obtain ⟨len, reads', positive, short, chunk⟩ :=
          recvNF_eq
            (show 0 < (arrived ++ missing).length - arrived.length by
              rw [List.length_append]
              omega)
            reads (show missing ++ rest ≠ [] by simp [complete])
        have inMissing : len ≤ missing.length := by
          rw [List.length_append] at short
          omega
        rw [List.take_append_of_le_length inMissing,
          List.drop_append_of_le_length inMissing] at chunk
        obtain ⟨reads'', completed⟩ := inductionHypothesis
          (arrived ++ missing.take len) (missing.drop len) reads'
          (by rw [List.length_drop]; omega)
        simp only [List.append_assoc, List.take_append_drop] at completed
        refine ⟨reads'', ?_⟩
        rw [replyContent, if_neg (by rw [List.length_append]; omega), chunk]
        exact completed

/-- The receiving half of `sendAndRecv` returns the message of the next
packet, whatever bytes without a marker precede it and however its content is
split. -/
theorem recvReply_noise
    (reads : List Nat)
    (noise rest : Bytes)
    (clean : (126 : UInt8) ∉ noise)
    {msg : Bytes}
    (sendable : Sendable msg) :
    ∃ reads', recvReply reads (noise ++ (pack msg ++ rest)) =
      some (msg, reads', rest) := by
  have small : msg.length < 2 ^ 64 := by
    simp only [Sendable] at sendable
    omega
  have packet :
      pack msg ++ rest = 126 :: numtob msg.length ++ (msg ++ rest) := by
    rw [pack]
    simp only [List.append_assoc]
    rfl
  have length : btonum (126 :: numtob msg.length) 1 = msg.length :=
    btonum_header small
  have header := replyHeader_noise
    ((noise ++ (pack msg ++ rest)).length + 1) noise (msg ++ rest) clean
    (numtob msg.length) (length_numtob _)
    (by
      rw [packet]
      simp only [List.length_append, List.length_cons, length_numtob,
        headerLen]
      omega)
  rw [recvReply, packet] at *
  simp only [header, Option.bind_eq_bind, Option.bind_some, length]
  by_cases empty : msg.length = 0
  · have noBytes : msg = [] := List.length_eq_zero_iff.mp empty
    exact ⟨reads, by simp [noBytes]⟩
  · obtain ⟨reads', content⟩ := replyContent_append
      ((msg ++ rest).length + 1) [] msg rest reads
      (by rw [List.length_append]; omega)
    refine ⟨reads', ?_⟩
    rw [if_neg empty]
    simpa using content

theorem recvReply_pack
    (reads : List Nat)
    (rest : Bytes)
    {msg : Bytes}
    (sendable : Sendable msg) :
    ∃ reads', recvReply reads (pack msg ++ rest) =
      some (msg, reads', rest) :=
  recvReply_noise reads [] rest (by simp) sendable

/-! ## Packets on the wire -/

theorem length_pack (msg : Bytes) :
    (pack msg).length = headerLen + msg.length := by
  simp only [pack, List.length_append, length_numtob, headerLen,
    show (str "~").length = 1 by rfl]

/-- A message that fits is delivered as it is. -/
theorem recv_wire_of_sendable
    (reads : List Nat)
    {msg : Bytes}
    (sendable : Sendable msg) :
    ∃ reads', recv reads (wire (pack msg)) = some (msg, reads', []) := by
  have fits : (pack msg).length < 2 ^ 31 := by
    rw [length_pack]
    exact sendable
  obtain ⟨reads', received⟩ := recv_pack reads [] [] (by simp) sendable
  refine ⟨reads', ?_⟩
  rw [wire, if_pos fits]
  simpa using received

/-- A message that does not fit is never received. -/
theorem recv_wire_of_not_sendable
    (reads : List Nat)
    {msg : Bytes}
    (tooLong : ¬ Sendable msg) :
    recv reads (wire (pack msg)) = none := by
  have cut : ¬ (pack msg).length < 2 ^ 31 := by
    rw [length_pack]
    exact tooLong
  rw [wire, if_neg cut]
  rfl

/-- A partial read splits the stream. -/
theorem length_recvNF
    {asked : Nat}
    {reads reads' : List Nat}
    {stream chunk rest : Bytes}
    (received : recvNF asked reads stream = some (chunk, reads', rest)) :
    chunk.length + rest.length = stream.length := by
  unfold recvNF at received
  split at received
  · cases received
  · cases received
    rw [← List.length_append, List.take_append_drop]
  · cases received
    rw [← List.length_append, List.take_append_drop]

/-- From fewer bytes than a header has, no header is completed. -/
theorem recvHeader_of_short
    (fuel : Nat)
    (header : Bytes)
    (len : Nat)
    (reads : List Nat)
    (stream : Bytes)
    (short : len + stream.length < headerLen) :
    recvHeader fuel header len reads stream = none := by
  induction fuel generalizing header len reads stream with
  | zero => rfl
  | succ fuel inductionHypothesis =>
      rw [recvHeader, if_neg (by omega)]
      split
      · rfl
      · rename_i chunk reads' stream' received
        have split := length_recvNF received
        split
        · rename_i start
          split
          · have cut : (fromMarker chunk).length ≤ chunk.length :=
              List.length_dropWhile_le _ chunk
            exact inductionHypothesis _ _ _ _ (by omega)
          · exact inductionHypothesis _ _ _ _ (by omega)
        · exact inductionHypothesis _ _ _ _ (by omega)

/-- A message of which the end is missing is never received. -/
theorem recv_wire_take
    (reads : List Nat)
    {msg : Bytes}
    {arrives : Nat}
    (cut : arrives < (wire (pack msg)).length) :
    recv reads ((wire (pack msg)).take arrives) = none := by
  by_cases sendable : Sendable msg
  · have fits : (pack msg).length < 2 ^ 31 := by
      rw [length_pack]
      exact sendable
    have small : msg.length < 2 ^ 31 := by
      simp only [Sendable] at sendable
      omega
    rw [wire, if_pos fits] at cut ⊢
    rw [length_pack] at cut
    by_cases headless : arrives < headerLen
    · rw [recv, recvHeader_of_short]
      · rfl
      · rw [List.length_take]
        omega
    · -- the header is complete, the content is not
      have packet : (pack msg).take arrives =
          [] ++ (126 :: numtob msg.length ++ msg.take (arrives - headerLen)) :=
        by
          have header : (126 :: numtob msg.length).length = headerLen := by
            simp [headerLen]
          change (126 :: numtob msg.length ++ msg).take arrives = _
          rw [List.take_append, header, List.take_of_length_le (by omega),
            List.nil_append]
      obtain ⟨reads', completed⟩ := recvHeader_noise
        (((pack msg).take arrives).length + 1) []
        (msg.take (arrives - headerLen)) (by simp) (numtob msg.length)
        (length_numtob _) reads (by
          rw [List.length_take, length_pack, List.length_nil]
          omega)
      have missing : recvAll msg.length (msg.take (arrives - headerLen)) =
          none := by
        rw [recvAll, if_neg]
        rw [List.length_take]
        omega
      have number : btonum (126 :: numtob msg.length) 1 = msg.length :=
        btonum_header (by omega)
      rw [← packet] at completed
      rw [recv, completed]
      simp only [Option.bind_eq_bind, Option.bind_some, number, missing,
        Option.bind_none]
  · rw [wire, if_neg (by rw [length_pack]; exact sendable)] at cut
    exact absurd cut (Nat.not_lt_zero _)

theorem recvReply_wire_of_sendable
    (reads : List Nat)
    {msg : Bytes}
    (sendable : Sendable msg) :
    ∃ reads', recvReply reads (wire (pack msg)) = some (msg, reads', []) := by
  have fits : (pack msg).length < 2 ^ 31 := by
    rw [length_pack]
    exact sendable
  obtain ⟨reads', received⟩ := recvReply_pack reads [] sendable
  refine ⟨reads', ?_⟩
  rw [wire, if_pos fits]
  simpa using received

theorem recvReply_wire_of_not_sendable
    (reads : List Nat)
    {msg : Bytes}
    (tooLong : ¬ Sendable msg) :
    recvReply reads (wire (pack msg)) = none := by
  have cut : ¬ (pack msg).length < 2 ^ 31 := by
    rw [length_pack]
    exact tooLong
  rw [wire, if_neg cut]
  rfl

/-! ## Sequences of messages -/

/-- Successive calls of a receiver. -/
def receiveAll
    (receive : List Nat → Bytes → Option (Bytes × List Nat × Bytes)) :
    Nat → List Nat → Bytes → Option (List Bytes × List Nat × Bytes)
  | 0, reads, stream => some ([], reads, stream)
  | count + 1, reads, stream => do
      let (msg, reads, stream) ← receive reads stream
      let (msgs, reads, stream) ← receiveAll receive count reads stream
      some (msg :: msgs, reads, stream)

/-- The bytes that are written for messages, each with what precedes its
packet. -/
def written (framed : List (Bytes × Bytes)) : Bytes :=
  framed.flatMap fun (noise, msg) => noise ++ wire (pack msg)

/-- A receiver that returns the message of every packet returns all messages
of a stream in order. -/
theorem receiveAll_written
    {receive : List Nat → Bytes → Option (Bytes × List Nat × Bytes)}
    (exactly : ∀ reads noise rest msg, (126 : UInt8) ∉ noise → Sendable msg →
      ∃ reads', receive reads (noise ++ (pack msg ++ rest)) =
        some (msg, reads', rest))
    {framed : List (Bytes × Bytes)}
    (clean : ∀ frame ∈ framed, (126 : UInt8) ∉ frame.1)
    (sendable : ∀ frame ∈ framed, Sendable frame.2)
    (reads : List Nat)
    (rest : Bytes) :
    ∃ reads', receiveAll receive framed.length reads (written framed ++ rest) =
      some (framed.map Prod.snd, reads', rest) := by
  induction framed generalizing reads with
  | nil => exact ⟨reads, rfl⟩
  | cons frame framed inductionHypothesis =>
      have fits : Sendable frame.2 := sendable frame (by simp)
      have onWire : wire (pack frame.2) = pack frame.2 := by
        apply if_pos
        rw [length_pack]
        exact fits
      obtain ⟨reads', received⟩ := exactly reads frame.1
        (written framed ++ rest) frame.2 (clean frame (by simp)) fits
      obtain ⟨reads'', others⟩ := inductionHypothesis
        (fun other member => clean other (List.mem_cons_of_mem frame member))
        (fun other member => sendable other (List.mem_cons_of_mem frame member))
        reads'
      have stream : written (frame :: framed) ++ rest =
          frame.1 ++ (pack frame.2 ++ (written framed ++ rest)) := by
        simp only [written, List.flatMap_cons, onWire, List.append_assoc]
      refine ⟨reads'', ?_⟩
      rw [List.length_cons, receiveAll, stream, received]
      simp only [Option.bind_eq_bind, Option.bind_some, others, List.map_cons]

/-- Both receivers return exactly the messages that have been written, in
order, and consume exactly their bytes. -/
theorem messages_exact
    {framed : List (Bytes × Bytes)}
    (clean : ∀ frame ∈ framed, (126 : UInt8) ∉ frame.1)
    (short : ∀ frame ∈ framed, frame.2.length < 2 ^ 30)
    (reads : List Nat)
    (rest : Bytes) :
    (∃ reads', receiveAll recv framed.length reads (written framed ++ rest) =
      some (framed.map Prod.snd, reads', rest)) ∧
    ∃ reads',
      receiveAll recvReply framed.length reads (written framed ++ rest) =
        some (framed.map Prod.snd, reads', rest) := by
  have sendable : ∀ frame ∈ framed, Sendable frame.2 := by
    intro frame member
    have := short frame member
    simp only [Sendable, headerLen]
    omega
  constructor
  · apply receiveAll_written _ clean sendable
    intro reads noise rest msg clean sendable
    exact recv_pack reads noise rest clean sendable
  · apply receiveAll_written _ clean sendable
    intro reads noise rest msg clean sendable
    exact recvReply_noise reads noise rest clean sendable

/-- Noise, a message that consists of markers, and one that looks like a
packet. -/
def markedFrames : List (Bytes × Bytes) :=
  [(str "noise", str "~~"), ([], []), (str "-", pack (str "a"))]

theorem messages_exact_markers :
    ∃ reads', receiveAll recvReply 3 [1, 2] (written markedFrames ++ str "rest") =
      some ([str "~~", [], pack (str "a")], reads', str "rest") := by
  have clean : ∀ frame ∈ markedFrames, (126 : UInt8) ∉ frame.1 := by decide
  have short : ∀ frame ∈ markedFrames, frame.2.length < 2 ^ 30 := by decide
  exact (messages_exact clean short [1, 2] (str "rest")).2

end Network
end Lab3
end CloudComputing
