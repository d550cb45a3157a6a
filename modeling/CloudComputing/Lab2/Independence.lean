import CloudComputing.Lab2.Accesses

/-!
# Whose bytes are answered

`Dealer` answers a complete request by itself, as long as the spaces behind its
method and its URL are in it.  A request that is not complete may be completed
by what earlier requests have left in `recv_buf`, and a scan for a space that is
missing goes on behind the string.
-/

namespace CloudComputing
namespace Lab2
namespace Dealer

/-- `Dealer` stays inside its strings, and its messages do not depend on what
`recv_buf` has held before.  Where `substr` throws there are no messages. -/
def IndependentOfPrevious (bytes : Bytes) : Prop :=
  ∀ files sockfd previous previous' beyond count,
    previous.length = 3000 → previous'.length = 3000 → 0 ∈ beyond →
    3000 + beyond.length < 2 ^ 31 →
      ending files sockfd count (dealt previous beyond bytes) ≠
          some .outside ∧
        messages files sockfd count (dealt previous beyond bytes) =
          messages files sockfd count (dealt previous' beyond bytes)

/-- The loops that look for a space find one in each complete request. -/
def Scanned (s_buf : Bytes) : Prop :=
  ∀ request entityPos, completeRequest s_buf = some (request, entityPos) →
    scanned request = true

/-- The bytes that may follow in memory can complete a request. -/
def Completable (bytes : Bytes) : Prop :=
  ∃ later, 0 ∉ later ∧ bytes.length + later.length + 1 < 2 ^ 31 ∧
    Complete (bytes ++ later)

variable {files : Files} {sockfd : Descriptor} {s_buf : Bytes}

/-- With its spaces a request does not lead out of the strings. -/
theorem Scanned.inside
    (isScanned : Scanned s_buf)
    (count : Nat) :
    ending files sockfd count s_buf ≠ some .outside := by
  intro outside
  have outside : ending files sockfd (count + 2) s_buf = some .outside :=
    ending_succ (ending_succ outside)
  by_cases http : hasHttp s_buf = true
  · cases complete : completeRequest s_buf with
    | none =>
        rw [ending_of_incomplete http complete] at outside
        cases outside
    | some pair =>
        obtain ⟨request, entityPos⟩ := pair
        have spaced := isScanned request entityPos complete
        rcases ending_of_scanned http complete spaced count with ended | ended
        · cases ended.symm.trans outside
        · cases ended.symm.trans outside
  · rw [ending_of_not_http http] at outside
    cases outside

/-- Without a version or a complete request nothing is scanned. -/
theorem inside_of_not_complete
    (incomplete : ¬ Complete s_buf)
    (count : Nat) :
    ending files sockfd count s_buf ≠ some .outside := by
  by_cases http : hasHttp s_buf = true
  · apply Scanned.inside
    intro request entityPos found
    exact absurd ⟨http, by rw [found]; rfl⟩ incomplete
  · intro outside
    have ended : ending files sockfd (count + 1) s_buf = some .returned :=
      ending_of_not_http http count
    cases ended.symm.trans (ending_succ outside)

/-- A complete request without its spaces leads out of the strings. -/
theorem scanned_of_inside
    (http : hasHttp s_buf = true)
    (inside : ending files sockfd 2 s_buf ≠ some .outside) :
    Scanned s_buf := by
  intro request entityPos complete
  by_contra unspaced
  exact inside (ending_of_unscanned http complete unspaced 0)

/-- `Dealer` stays inside its strings and its messages depend on the received
bytes alone exactly if these contain a complete request with its spaces, or
nothing that may follow them completes one. -/
theorem independent_iff
    {bytes : Bytes}
    (short : bytes.length < 3000)
    (noZero : (0 : UInt8) ∉ bytes) :
    IndependentOfPrevious bytes ↔
      Complete bytes ∧ Scanned bytes ∨ ¬ Completable bytes := by
  constructor
  · intro independent
    by_cases isComplete : Complete bytes
    · left
      obtain ⟨beyond, ended, size, _, alone⟩ :=
        exists_dealt noZero List.not_mem_nil short
      have same := independent (fun _ => none) ⟨4, 0⟩ (List.replicate 3000 0)
        (List.replicate 3000 0) beyond 2 List.length_replicate
        List.length_replicate ended
        (by rw [List.length_nil] at size; omega)
      rw [alone] at same
      exact ⟨isComplete, scanned_of_inside isComplete.1 same.1⟩
    · right
      rintro ⟨later, noZeroLater, bound, complete⟩
      obtain ⟨beyond, ended, size, ⟨previous, length, completed⟩, alone⟩ :=
        exists_dealt noZero noZeroLater short
      have same := independent (fun _ => none) ⟨4, 0⟩ previous
        (List.replicate 3000 0) beyond 1 length List.length_replicate ended
        (by omega)
      rw [completed, alone, messages_of_not_complete isComplete 1] at same
      exact messages_ne_of_complete complete same.2
  · intro condition files sockfd previous previous' beyond count length
      length' ended size
    obtain ⟨later, noZeroLater, bound, dealt⟩ :=
      dealt_eq noZero length short.le ended
    obtain ⟨later', noZeroLater', bound', dealt'⟩ :=
      dealt_eq noZero length' short.le ended
    rw [dealt, dealt']
    rcases condition with ⟨⟨http, request⟩, isScanned⟩ | never
    · obtain ⟨⟨request, entityPos⟩, found⟩ :=
        Option.isSome_iff_exists.mp request
      have further := completeRequest_append found later
      constructor
      · apply Scanned.inside
        intro request' entityPos' found'
        rw [further] at found'
        cases found'
        exact isScanned request entityPos found
      · cases count with
        | zero => rfl
        | succ count =>
            rw [messages_of_complete (hasHttp_append http later) further,
              messages_of_complete (hasHttp_append http later')
                (completeRequest_append found later')]
    · have incomplete : ∀ later : Bytes, 0 ∉ later →
          bytes.length + later.length < 3000 + beyond.length →
            ¬ Complete (bytes ++ later) :=
        fun later noZero bound complete =>
          never ⟨later, noZero, by omega, complete⟩
      have first := incomplete later noZeroLater bound
      refine ⟨inside_of_not_complete first count, ?_⟩
      rw [messages_of_not_complete first,
        messages_of_not_complete (incomplete later' noZeroLater' bound')]

/-- A GET request. -/
theorem independent_iff_get :
    IndependentOfPrevious (str "GET / HTTP/1.1\r\n\r\n") := by
  apply (independent_iff (by decide) (by decide)).mpr
  refine .inl ⟨by decide, ?_⟩
  intro request entityPos found
  have isRequest : completeRequest (str "GET / HTTP/1.1\r\n\r\n") =
      some (str "GET / HTTP/1.1\r\n\r\n", 18) := by
    decide
  rw [isRequest] at found
  cases found
  decide

/-- A request whose entity has not been received. -/
def bodiless : Bytes :=
  str "POST /Post_show HTTP/1.1\r\nContent-Length: 12\r\n\r\n"

/-- The same request with its entity, in the buffer of a thread. -/
def answeredBefore : Bytes :=
  bodiless ++ (str "Name=a&ID=42" ++ List.replicate 2940 0)

/-- The entity that has not been received is taken from what an earlier request
has left in the buffer, and its name and number are sent to another client. -/
theorem bodiless_depends :
    ¬ ∀ bytes : Bytes, 1 ≤ bytes.length → bytes.length ≤ 2999 → 0 ∉ bytes →
      IndependentOfPrevious bytes := by
  intro independent
  have length : answeredBefore.length = 3000 := by
    rw [answeredBefore, List.length_append, List.length_append,
      List.length_replicate]
    decide
  have same := (independent bodiless (by decide) (by decide) (by decide)
    (fun _ => none) ⟨4, 0⟩ answeredBefore (List.replicate 3000 0) [0] 1
    length List.length_replicate (by decide) (by decide)).2
  have completed : dealt answeredBefore [0] bodiless =
      bodiless ++ str "Name=a&ID=42" := by
    rw [dealt, received, answeredBefore, List.drop_left, List.replicate_succ,
      ← List.append_assoc, List.append_assoc, List.cons_append]
    exact cString_ended (by decide) _
  have alone : dealt (List.replicate 3000 0) [0] bodiless = bodiless := by
    have zeros : 3000 - bodiless.length = 2951 + 1 := by decide
    rw [dealt, received, List.drop_replicate, zeros, List.replicate_succ,
      List.append_assoc, List.cons_append]
    exact cString_ended (by decide) _
  have answered : messages (fun _ => none) ⟨4, 0⟩ 1
      (bodiless ++ str "Name=a&ID=42") =
        some [postDealer (str "a&") (str "42") ⟨4, 0⟩] := by
    decide +kernel
  rw [completed, alone, answered,
    messages_of_not_complete (by decide) 1] at same
  cases same

end Dealer
end Lab2
end CloudComputing
