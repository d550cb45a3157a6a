import CloudComputing.Lab2.Dealer

/-!
# What stands behind the received bytes

`recv_buf` is neither cleared nor ended by a zero byte, so `Dealer` reads on
into what earlier requests have left in it.  A request that is complete in the
received bytes is answered by itself.  What is not complete may be completed by
these leftovers.
-/

namespace CloudComputing
namespace Lab2
open Decimal

namespace Dealer

/-- A round of the loop finds a complete request. -/
def Complete (s_buf : Bytes) : Prop :=
  hasHttp s_buf = true ∧ (completeRequest s_buf).isSome = true

instance (s_buf : Bytes) : Decidable (Complete s_buf) :=
  inferInstanceAs (Decidable (_ ∧ _))

theorem toNat_entityLen_le (request : Bytes) (headEndPos : Nat) :
    (entityLen request headEndPos).toNat ≤
      toUInt64 (entityLen request headEndPos) := by
  have bound : entityLen request headEndPos < 2 ^ 31 :=
    Int.bmod_lt (m := 2 ^ 32) (by decide)
  unfold toUInt64
  omega

theorem hasHttp_append
    {s_buf : Bytes}
    (found : hasHttp s_buf = true)
    (later : Bytes) :
    hasHttp (s_buf ++ later) = true := by
  simp only [hasHttp, Bool.or_eq_true, Option.isSome_iff_exists] at found ⊢
  rcases found with ⟨position, found⟩ | ⟨position, found⟩
  · exact .inl ⟨position, Bytes.find_append found later⟩
  · exact .inr ⟨position, Bytes.find_append found later⟩

/-- A complete request stays the same one whatever follows. -/
theorem completeRequest_append
    {s_buf request : Bytes}
    {entityPos : Nat}
    (complete : completeRequest s_buf = some (request, entityPos))
    (later : Bytes) :
    completeRequest (s_buf ++ later) = some (request, entityPos) := by
  unfold completeRequest at complete ⊢
  split at complete
  · cases complete
  · rename_i position found
    have inside := Bytes.find_le found
    change position + 4 ≤ s_buf.length at inside
    rw [Bytes.find_append found later]
    dsimp only at complete ⊢
    rw [List.take_append_of_le_length inside]
    split at complete
    · exact complete
    · rename_i headEndPos _
      split at complete
      · rename_i fits
        have further : (s_buf ++ later).length = s_buf.length + later.length :=
          List.length_append
        rw [if_pos (by omega), ← complete]
        rw [List.take_append_of_le_length]
        rw [List.length_take_of_le inside] at fits ⊢
        have small :=
          toNat_entityLen_le (s_buf.take (position + 4)) headEndPos
        exact (Nat.add_le_add_left (small.trans fits) _).trans (by omega)
      · cases complete

/-- No version of HTTP is written in one byte. -/
theorem hasHttp_singleton (byte : UInt8) : hasHttp [byte] = false := by
  unfold hasHttp
  rw [Bytes.find_eq_none_of_length_lt, Bytes.find_eq_none_of_length_lt]
  · rfl
  · exact Nat.one_lt_succ_succ 6
  · exact Nat.one_lt_succ_succ 6

variable {files : Files} {sockfd : Descriptor}

/-- A round with an answer has found a version, and leaves one byte. -/
theorem round_answered
    {s_buf rest : Bytes}
    {task : OutPutTask}
    (answered : round files sockfd s_buf = .answered task rest) :
    hasHttp s_buf = true ∧ ∃ byte, rest = [byte] := by
  unfold round at answered
  split at answered
  · rename_i http
    refine ⟨http, ?_⟩
    split at answered
    · cases answered
    · split at answered
      · cases answered
      · cases answered
        exact ⟨_, rfl⟩
  · cases answered

theorem rounds_singleton
    (byte : UInt8)
    (count : Nat) :
    rounds files sockfd (count + 1) [byte] = some (true, []) := by
  rw [rounds, round, hasHttp_singleton]
  rfl

/-- The messages that `Dealer` enqueues in so many rounds. -/
def messages
    (files : Files)
    (sockfd : Descriptor)
    (count : Nat)
    (s_buf : Bytes) : Option (List OutPutTask) :=
  (rounds files sockfd count s_buf).map Prod.snd

theorem messages_singleton
    (byte : UInt8)
    (count : Nat) :
    messages files sockfd count [byte] = some [] := by
  cases count with
  | zero => rfl
  | succ count => rw [messages, rounds_singleton]; rfl

/-- Without a complete request nothing is enqueued. -/
theorem messages_of_not_complete
    {s_buf : Bytes}
    (incomplete : ¬ Complete s_buf)
    (count : Nat) :
    messages files sockfd count s_buf = some [] := by
  induction count with
  | zero => rfl
  | succ count inductionHypothesis =>
      rw [messages, rounds, round]
      by_cases http : hasHttp s_buf = true
      · rw [if_pos http]
        cases found : completeRequest s_buf with
        | none => exact inductionHypothesis
        | some pair =>
            exact absurd ⟨http, by rw [found]; rfl⟩ incomplete
      · rw [if_neg http]
        rfl

/-- A complete request is answered by itself. -/
theorem messages_of_complete
    {s_buf request : Bytes}
    {entityPos : Nat}
    (http : hasHttp s_buf = true)
    (found : completeRequest s_buf = some (request, entityPos))
    (count : Nat) :
    messages files sockfd (count + 1) s_buf =
      (answer files sockfd request entityPos).map fun task => [task] := by
  rw [messages, rounds, round, if_pos http, found]
  dsimp only
  cases answer files sockfd request entityPos with
  | none => rfl
  | some task =>
      have rest : messages files sockfd count
          [s_buf.getD request.length 0] = some [] :=
        messages_singleton _ count
      obtain ⟨⟨returned, tasks⟩, further, nothing⟩ :=
        Option.map_eq_some_iff.mp rest
      obtain rfl : tasks = [] := nothing
      dsimp only
      rw [further]
      rfl

theorem messages_ne_of_complete
    {s_buf : Bytes}
    (complete : Complete s_buf) :
    messages files sockfd 1 s_buf ≠ some [] := by
  obtain ⟨http, request⟩ := complete
  obtain ⟨⟨request, entityPos⟩, found⟩ := Option.isSome_iff_exists.mp request
  rw [messages_of_complete http found 0]
  intro nothing
  obtain ⟨task, _, empty⟩ := Option.map_eq_some_iff.mp nothing
  cases empty

/-! ## Two contents of the buffer -/

theorem cString_append
    {bytes : Bytes}
    (noZero : (0 : UInt8) ∉ bytes)
    (later : Bytes) :
    cString (bytes ++ later) = bytes ++ cString later := by
  unfold cString
  apply List.takeWhile_append_of_pos
  intro byte member
  exact decide_eq_true (ne_of_mem_of_not_mem member noZero)

theorem not_mem_cString (memory : Bytes) : (0 : UInt8) ∉ cString memory := by
  intro member
  have nonzero := List.mem_takeWhile_imp member
  simp at nonzero

theorem cString_length_lt
    {memory : Bytes}
    (ended : (0 : UInt8) ∈ memory) :
    (cString memory).length < memory.length := by
  have shorter : (cString memory).length ≤ memory.length :=
    (List.takeWhile_prefix _).length_le
  refine lt_of_le_of_ne shorter ?_
  intro whole
  have same : cString memory = memory :=
    (List.takeWhile_prefix _).eq_of_length whole
  exact not_mem_cString memory (same.symm ▸ ended)

/-- What `Dealer` is given: `recv_buf` and the memory behind it. -/
def dealt (previous beyond bytes : Bytes) : Bytes :=
  cString (received previous bytes ++ beyond)

/-- `Dealer` is given what has been received and what follows in memory. -/
theorem dealt_eq
    {bytes previous beyond : Bytes}
    (noZero : (0 : UInt8) ∉ bytes)
    (length : previous.length = 3000)
    (short : bytes.length ≤ 3000)
    (ended : 0 ∈ beyond) :
    ∃ later, 0 ∉ later ∧
      bytes.length + later.length < 3000 + beyond.length ∧
      dealt previous beyond bytes = bytes ++ later := by
  refine ⟨cString (previous.drop bytes.length ++ beyond), not_mem_cString _,
    ?_, ?_⟩
  · have inside : (0 : UInt8) ∈ previous.drop bytes.length ++ beyond :=
      List.mem_append_right _ ended
    have shorter := cString_length_lt inside
    rw [List.length_append, List.length_drop, length] at shorter
    omega
  · rw [dealt, received, List.append_assoc, cString_append noZero]

theorem cString_ended
    {bytes : Bytes}
    (noZero : (0 : UInt8) ∉ bytes)
    (later : Bytes) :
    cString (bytes ++ 0 :: later) = bytes := by
  rw [cString_append noZero]
  exact List.append_nil bytes

/-- A text that is cut at the end of the buffer. -/
theorem cString_cut
    {later : Bytes}
    (noZero : (0 : UInt8) ∉ later)
    {room : Nat}
    (small : room ≤ 3000) :
    cString ((later ++ List.replicate 3000 0).take room ++
      (later.drop room ++ [0])) = later := by
  by_cases fits : room ≤ later.length
  · rw [List.take_append_of_le_length fits, ← List.append_assoc,
      List.take_append_drop, cString_ended noZero]
  · have zeros : min (room - later.length) 3000 =
        room - later.length - 1 + 1 := by omega
    rw [List.take_append, List.take_of_length_le (by omega),
      List.take_replicate, zeros, List.replicate_succ, List.append_assoc,
      List.cons_append, cString_ended noZero]

/-- Anything without a zero byte may follow in memory. -/
theorem exists_dealt
    {bytes later : Bytes}
    (noZero : (0 : UInt8) ∉ bytes)
    (noZeroLater : (0 : UInt8) ∉ later)
    (short : bytes.length < 3000) :
    ∃ beyond : Bytes, 0 ∈ beyond ∧
      3000 + beyond.length ≤ max 3001 (bytes.length + later.length + 1) ∧
      (∃ previous, previous.length = 3000 ∧
        dealt previous beyond bytes = bytes ++ later) ∧
      dealt (List.replicate 3000 0) beyond bytes = bytes := by
  refine ⟨later.drop (3000 - bytes.length) ++ [0], by simp, ?_, ?_, ?_⟩
  · rw [List.length_append, List.length_drop, List.length_singleton]
    omega
  · refine ⟨List.replicate bytes.length 0 ++
      (later ++ List.replicate 3000 0).take (3000 - bytes.length), ?_, ?_⟩
    · rw [List.length_append, List.length_replicate, List.length_take,
        List.length_append, List.length_replicate]
      omega
    · have dropped : (List.replicate bytes.length (0 : UInt8)).drop
          bytes.length = [] := by
        rw [List.drop_replicate, Nat.sub_self, List.replicate_zero]
      rw [dealt, received, List.drop_append_of_le_length (by simp), dropped,
        List.nil_append, List.append_assoc, cString_append noZero,
        cString_cut noZeroLater (Nat.sub_le 3000 _)]
  · have zeros : 3000 - bytes.length = 2999 - bytes.length + 1 := by omega
    rw [dealt, received, List.drop_replicate, List.append_assoc, zeros,
      List.replicate_succ, List.cons_append, cString_ended noZero]

end Dealer
end Lab2
end CloudComputing
