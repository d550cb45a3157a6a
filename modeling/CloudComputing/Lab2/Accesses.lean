import CloudComputing.Lab2.Residue

/-!
# What `Dealer` reads of its strings

The accesses of `Dealer` and `Get_dealer` to their strings, in the order of the
source: `operator[]` with its index, and `substr` with its start.  The loops
that look for a byte have no other bound, so a request without the byte is read
beyond its end; a string has a zero byte at the index of its length.

A call of `Dealer` returns, ends with an exception of `substr`, goes on for
ever, or leaves a string, and then nothing is known about it.
-/

namespace CloudComputing
namespace Lab2

open Decimal

/-- An access to a string of this length. -/
inductive Access
  /-- `operator[]` -/
  | index (position length : Nat)
  /-- `substr` -/
  | cut (start length : Nat)
  deriving DecidableEq, Repr

/-- An access that the library allows. -/
def Access.Inside : Access → Prop
  | .index position length => position ≤ length
  | .cut start length => start ≤ length

namespace Dealer

/-- A loop that looks for `stop`, from a position on with `rest` behind it.
At the end of the string it reads the zero byte, and goes on. -/
def scan (length : Nat) (stop : UInt8) : Nat → Bytes → List Access
  | position, [] => [.index position length, .index (position + 1) length]
  | position, byte :: rest =>
      .index position length ::
        (if byte = stop then [] else scan length stop (position + 1) rest)

/-- The accesses until `request` is complete, or is found to be incomplete. -/
def requestAccesses (s_buf : Bytes) : List Access :=
  match Bytes.find (str "\r\n\r\n") s_buf with
  | none => []
  | some position =>
      let request := s_buf.take (position + 4)
      .cut 0 s_buf.length ::
        match Bytes.find (str "Content-Length") request with
        | none => []
        | some headEndPos =>
            scan request.length 13 (headEndPos + 15)
                (request.drop (headEndPos + 15)) ++
              if (completeRequest s_buf).isSome then
                [.cut request.length s_buf.length]
              else []

/-- The comparison of the last byte of `url` in `Get_dealer`, at an index that
is a `size_t`. -/
def getAccesses (url : Bytes) : List Access :=
  if Bytes.find (str ".") url = none then
    [.index (toUInt64 ((url.length : Int) - 1)) url.length]
  else []

/-- The cuts that take the name and the number out of an entity. -/
def postAccesses (entity : Bytes) : List Access :=
  match Bytes.find (str "Name") entity, Bytes.find (str "ID") entity with
  | some namePos, some idPos =>
      if idPos ≤ namePos then []
      else [.cut (namePos + 5) entity.length, .cut (idPos + 3) entity.length]
  | _, _ => []

/-- The accesses from the method of a complete request on. -/
def answerAccesses (request : Bytes) (entityPos : Nat) : List Access :=
  scan request.length 32 0 request ++
    match word request with
    | none => []
    | some (method, rest) =>
        if method ≠ str "GET" ∧ method ≠ str "POST" then []
        else
          scan request.length 32 (method.length + 1) rest ++
            match word rest with
            | none => []
            | some (url, _) =>
                if method = str "GET" then getAccesses url
                else if url ≠ str "/Post_show" then []
                else
                  .cut entityPos request.length ::
                    postAccesses (request.drop entityPos)

/-- The accesses of a round of the loop. -/
def roundAccesses (s_buf : Bytes) : List Access :=
  if hasHttp s_buf then
    requestAccesses s_buf ++
      match completeRequest s_buf with
      | none => []
      | some (request, entityPos) =>
          .index request.length s_buf.length ::
            answerAccesses request entityPos
  else []

/-- The accesses of `Dealer` in so many rounds of its loop. -/
def accesses
    (files : Files)
    (sockfd : Descriptor) : Nat → Bytes → List Access
  | 0, _ => []
  | count + 1, s_buf =>
      roundAccesses s_buf ++
        match round files sockfd s_buf with
        | .again => accesses files sockfd count s_buf
        | .answered _ s_buf => accesses files sockfd count s_buf
        | _ => []

/-- The loops that look for a space find one. -/
def scanned (request : Bytes) : Bool :=
  match word request with
  | none => false
  | some (method, rest) =>
      if method = str "GET" ∨ method = str "POST" then (word rest).isSome
      else true

/-- How a call of `Dealer` ends. -/
inductive Ending
  | returned
  | thrown
  | outside
  deriving DecidableEq, Repr

/-- How `Dealer` has ended after so many rounds of its loop. -/
def ending
    (files : Files)
    (sockfd : Descriptor) : Nat → Bytes → Option Ending
  | 0, _ => none
  | count + 1, s_buf =>
      match round files sockfd s_buf with
      | .finished => some .returned
      | .again => ending files sockfd count s_buf
      | .undefined =>
          if (completeRequest s_buf).all fun found => scanned found.1 then
            some .thrown
          else some .outside
      | .answered _ s_buf => ending files sockfd count s_buf

/-! ## Which accesses are inside -/

theorem scan_inside_iff
    {length position : Nat}
    (stop : UInt8)
    {rest : Bytes}
    (ends : position + rest.length = length) :
    (∀ access ∈ scan length stop position rest, access.Inside) ↔
      stop ∈ rest := by
  induction rest generalizing position with
  | nil =>
      rw [List.length_nil] at ends
      constructor
      · intro inside
        have beyond : position + 1 ≤ length :=
          inside (.index (position + 1) length) (by simp [scan])
        omega
      · intro member
        cases member
  | cons byte rest inductionHypothesis =>
      rw [List.length_cons] at ends
      rw [scan, List.forall_mem_cons, List.mem_cons]
      have own : (Access.index position length).Inside := by
        change position ≤ length
        omega
      by_cases same : byte = stop
      · rw [if_pos same]
        constructor
        · intro _
          exact Or.inl same.symm
        · intro _
          refine ⟨own, ?_⟩
          intro access member
          cases member
      · rw [if_neg same, inductionHypothesis (by omega)]
        constructor
        · intro both
          exact Or.inr both.2
        · intro either
          exact ⟨own, either.resolve_left (Ne.symm same)⟩

/-- A word, the space behind it, and the rest. -/
theorem word_eq_some
    {text found rest : Bytes}
    (isWord : word text = some (found, rest)) :
    text = found ++ 32 :: rest ∧ 32 ∈ text := by
  unfold word at isWord
  split at isWord
  · rename_i member
    cases isWord
    refine ⟨?_, member⟩
    have space : ∃ later, text.dropWhile (· ≠ 32) = 32 :: later := by
      cases found : text.dropWhile (· ≠ 32) with
      | nil =>
          have all := List.dropWhile_eq_nil_iff.mp found 32 member
          simp at all
      | cons byte later =>
          have stops := List.head?_dropWhile_not (· ≠ (32 : UInt8)) text
          rw [found] at stops
          have same : byte = 32 := by simpa using stops
          exact ⟨later, by rw [same]⟩
    obtain ⟨later, split⟩ := space
    rw [split]
    change text = text.takeWhile (· ≠ 32) ++ 32 :: later
    rw [← split, List.takeWhile_append_dropWhile]
  · cases isWord

theorem word_eq_none {text : Bytes} : word text = none ↔ 32 ∉ text := by
  unfold word
  split
  · rename_i member
    exact iff_of_false (Option.some_ne_none _) (not_not_intro member)
  · rename_i absent
    exact iff_of_true rfl absent

/-- The declared length ends with the line, in front of the empty line. -/
theorem mem_contentLength
    {s_buf : Bytes}
    {position headEndPos : Nat}
    (emptyLine : Bytes.find (str "\r\n\r\n") s_buf = some position)
    (found : Bytes.find (str "Content-Length") (s_buf.take (position + 4)) =
      some headEndPos) :
    headEndPos + 15 ≤ position + 2 ∧
      13 ∈ (s_buf.take (position + 4)).drop (headEndPos + 15) := by
  have within := Bytes.find_le emptyLine
  change position + 4 ≤ s_buf.length at within
  have length : (s_buf.take (position + 4)).length = position + 4 :=
    List.length_take_of_le within
  have inside := Bytes.find_le found
  rw [length] at inside
  change headEndPos + 14 ≤ position + 4 at inside
  have first : (s_buf.take (position + 4))[position]? = some 13 := by
    rw [List.getElem?_take_of_lt (by omega)]
    exact Bytes.find_getElem? emptyLine (show 0 < 4 by decide)
  have third : (s_buf.take (position + 4))[position + 2]? = some 13 := by
    rw [List.getElem?_take_of_lt (by omega)]
    exact Bytes.find_getElem? emptyLine (show 2 < 4 by decide)
  have before : headEndPos + 14 ≤ position := by
    by_contra overlaps
    -- A byte of `Content-Length` would be the `\r` of the empty line.
    have offset : position - headEndPos < (str "Content-Length").length := by
      change _ < 14
      omega
    have same := Bytes.find_getElem? found offset
    rw [show headEndPos + (position - headEndPos) = position by omega, first]
      at same
    have member := List.mem_of_getElem? same.symm
    exact absurd member (by decide)
  refine ⟨by omega, ?_⟩
  apply List.mem_of_getElem? (i := position + 2 - (headEndPos + 15))
  rw [List.getElem?_drop]
  rw [show headEndPos + 15 + (position + 2 - (headEndPos + 15)) =
    position + 2 by omega]
  exact third

/-- Until the request is complete all accesses are inside. -/
theorem requestAccesses_inside
    (s_buf : Bytes) :
    ∀ access ∈ requestAccesses s_buf, access.Inside := by
  unfold requestAccesses
  split
  · intro access member
    cases member
  · rename_i position emptyLine
    dsimp only
    rw [List.forall_mem_cons]
    refine ⟨Nat.zero_le _, ?_⟩
    split
    · intro access member
      cases member
    · rename_i headEndPos found
      obtain ⟨bound, ends⟩ := mem_contentLength emptyLine found
      have within := Bytes.find_le emptyLine
      change position + 4 ≤ s_buf.length at within
      rw [List.forall_mem_append]
      constructor
      · apply (scan_inside_iff 13 _).mpr ends
        rw [List.length_drop, List.length_take_of_le within]
        omega
      · split
        · intro access member
          rw [List.mem_singleton] at member
          rw [member]
          exact List.length_take_le' _ _
        · intro access member
          cases member

/-- A request in which the loops find their spaces, whose `url` is not empty
for `Get_dealer`, and whose entity does not end with the first `ID`. -/
def Readable (request : Bytes) (entityPos : Nat) : Prop :=
  ∃ method rest, word request = some (method, rest) ∧
    (method = str "GET" → ∃ url later, word rest = some (url, later) ∧
      url ≠ []) ∧
    (method = str "POST" → ∃ url later, word rest = some (url, later) ∧
      (url = str "/Post_show" → ∀ namePos idPos,
        Bytes.find (str "Name") (request.drop entityPos) = some namePos →
        Bytes.find (str "ID") (request.drop entityPos) = some idPos →
        namePos < idPos →
          idPos + 2 < (request.drop entityPos).length))

theorem getAccesses_inside_iff (url : Bytes) :
    (∀ access ∈ getAccesses url, access.Inside) ↔ url ≠ [] := by
  cases url with
  | nil =>
      refine iff_of_false ?_ (not_not_intro rfl)
      intro inside
      have before := inside (.index (2 ^ 64 - 1) 0) (by decide)
      exact absurd before (by decide : ¬ 2 ^ 64 - 1 ≤ 0)
  | cons byte rest =>
      refine iff_of_true ?_ (List.cons_ne_nil byte rest)
      unfold getAccesses
      split
      · intro access member
        rw [List.mem_singleton] at member
        rw [member]
        change toUInt64 (((byte :: rest).length : Int) - 1) ≤
          (byte :: rest).length
        rw [List.length_cons]
        unfold toUInt64
        omega
      · intro access member
        cases member

theorem postAccesses_inside_iff (entity : Bytes) :
    (∀ access ∈ postAccesses entity, access.Inside) ↔
      ∀ namePos idPos, Bytes.find (str "Name") entity = some namePos →
        Bytes.find (str "ID") entity = some idPos → namePos < idPos →
          idPos + 2 < entity.length := by
  unfold postAccesses
  split
  · rename_i namePos idPos foundName foundID
    have within := Bytes.find_le foundID
    change idPos + 2 ≤ entity.length at within
    split
    · rename_i before
      refine iff_of_true ?_ ?_
      · intro access member
        cases member
      · intro namePos' idPos' isName isID less
        rw [foundName] at isName
        rw [foundID] at isID
        cases isName
        cases isID
        omega
    · rename_i behind
      rw [List.forall_mem_cons, List.forall_mem_singleton]
      constructor
      · intro inside namePos' idPos' _ isID _
        rw [foundID] at isID
        cases isID
        exact inside.2
      · intro bound
        have cut := bound namePos idPos foundName foundID (by omega)
        refine ⟨?_, cut⟩
        -- No byte of `Name` is the `I` of `ID`.
        have apart : namePos + 4 ≤ idPos := by
          by_contra overlaps
          have offset : idPos - namePos < (str "Name").length := by
            change _ < 4
            omega
          have same := Bytes.find_getElem? foundName offset
          rw [show namePos + (idPos - namePos) = idPos by omega] at same
          have first := Bytes.find_getElem? foundID
            (show 0 < (str "ID").length by decide)
          rw [Nat.add_zero, same] at first
          have member := List.mem_of_getElem? first
          exact absurd member (by decide)
        change namePos + 5 ≤ entity.length
        omega
  · rename_i missing
    refine iff_of_true ?_ ?_
    · intro access member
      cases member
    · intro namePos idPos foundName foundID _
      exact absurd foundID (missing namePos idPos foundName)

/-- A complete request is the beginning of the string. -/
theorem completeRequest_bounds
    {s_buf request : Bytes}
    {entityPos : Nat}
    (complete : completeRequest s_buf = some (request, entityPos)) :
    request <+: s_buf ∧ entityPos ≤ request.length := by
  unfold completeRequest at complete
  split at complete
  · cases complete
  · rename_i position emptyLine
    have within := Bytes.find_le emptyLine
    change position + 4 ≤ s_buf.length at within
    dsimp only at complete
    split at complete
    · cases complete
      exact ⟨List.take_prefix _ _, le_refl _⟩
    · rename_i headEndPos _
      split at complete
      · rename_i fits
        cases complete
        have small :=
          toNat_entityLen_le (s_buf.take (position + 4)) headEndPos
        refine ⟨List.take_prefix _ _, ?_⟩
        rw [List.length_take_of_le within] at fits ⊢
        rw [List.length_take]
        omega
      · cases complete

/-- A request whose method ends with a space. -/
theorem readable_iff
    {request method rest : Bytes}
    {entityPos : Nat}
    (isMethod : word request = some (method, rest)) :
    Readable request entityPos ↔
      (method = str "GET" → ∃ url later, word rest = some (url, later) ∧
        url ≠ []) ∧
      (method = str "POST" → ∃ url later, word rest = some (url, later) ∧
        (url = str "/Post_show" → ∀ access ∈
          postAccesses (request.drop entityPos), access.Inside)) := by
  constructor
  · rintro ⟨method', rest', isWord, get, post⟩
    rw [isMethod] at isWord
    cases isWord
    refine ⟨get, ?_⟩
    intro isPost
    obtain ⟨url, later, isUrl, show_⟩ := post isPost
    refine ⟨url, later, isUrl, ?_⟩
    intro same
    exact (postAccesses_inside_iff _).mpr (show_ same)
  · rintro ⟨get, post⟩
    refine ⟨method, rest, isMethod, get, ?_⟩
    intro isPost
    obtain ⟨url, later, isUrl, show_⟩ := post isPost
    refine ⟨url, later, isUrl, ?_⟩
    intro same
    exact (postAccesses_inside_iff _).mp (show_ same)

theorem answerAccesses_inside_iff
    {request : Bytes}
    {entityPos : Nat}
    (bound : entityPos ≤ request.length) :
    (∀ access ∈ answerAccesses request entityPos, access.Inside) ↔
      Readable request entityPos := by
  unfold answerAccesses
  rw [List.forall_mem_append, scan_inside_iff 32 (Nat.zero_add _)]
  cases isMethod : word request with
  | none =>
      refine iff_of_false ?_ ?_
      · intro both
        exact word_eq_none.mp isMethod both.1
      · rintro ⟨method, rest, isWord, _⟩
        rw [isMethod] at isWord
        cases isWord
  | some pair =>
      obtain ⟨method, rest⟩ := pair
      obtain ⟨split, member⟩ := word_eq_some isMethod
      have ends : method.length + 1 + rest.length = request.length := by
        rw [split, List.length_append, List.length_cons]
        omega
      rw [readable_iff isMethod]
      dsimp only
      rw [and_iff_right member]
      by_cases other : method ≠ str "GET" ∧ method ≠ str "POST"
      · rw [if_pos other]
        refine iff_of_true ?_ ?_
        · intro access nothing
          cases nothing
        · exact ⟨fun get => absurd get other.1, fun post => absurd post other.2⟩
      · rw [if_neg other, List.forall_mem_append, scan_inside_iff 32 ends]
        cases isUrl : word rest with
        | none =>
            refine iff_of_false ?_ ?_
            · intro both
              exact word_eq_none.mp isUrl both.1
            · rintro ⟨get, post⟩
              apply other
              constructor
              · intro isGet
                obtain ⟨url, later, found, _⟩ := get isGet
                cases found
              · intro isPost
                obtain ⟨url, later, found, _⟩ := post isPost
                cases found
        | some pair =>
            obtain ⟨url, later⟩ := pair
            rw [and_iff_right (word_eq_some isUrl).2]
            dsimp only
            by_cases get : method = str "GET"
            · have notPost : method ≠ str "POST" := by
                rw [get]
                decide
              rw [if_pos get, getAccesses_inside_iff]
              constructor
              · intro nonempty
                exact ⟨fun _ => ⟨url, later, rfl, nonempty⟩,
                  fun post => absurd post notPost⟩
              · rintro ⟨found, _⟩
                obtain ⟨url', later', same, nonempty⟩ := found get
                cases same
                exact nonempty
            · have post : method = str "POST" := by
                by_contra notPost
                exact other ⟨get, notPost⟩
              rw [if_neg get]
              by_cases isShow : url = str "/Post_show"
              · rw [if_neg (not_not_intro isShow), List.forall_mem_cons]
                constructor
                · rintro ⟨_, inside⟩
                  exact ⟨fun isGet => absurd isGet get,
                    fun _ => ⟨url, later, rfl, fun _ => inside⟩⟩
                · rintro ⟨_, found⟩
                  obtain ⟨url', later', same, inside⟩ := found post
                  cases same
                  exact ⟨bound, inside isShow⟩
              · rw [if_pos isShow]
                refine iff_of_true ?_ ?_
                · intro access nothing
                  cases nothing
                · exact ⟨fun isGet => absurd isGet get,
                    fun _ => ⟨url, later, rfl,
                      fun same => absurd same isShow⟩⟩

/-! ## All rounds -/

variable {files : Files} {sockfd : Descriptor}

/-- The string that is left after a request has no version in it. -/
theorem accesses_singleton
    (byte : UInt8)
    (count : Nat) :
    accesses files sockfd count [byte] = [] := by
  cases count with
  | zero => rfl
  | succ count =>
      have finished : round files sockfd [byte] = .finished := by
        unfold round
        rw [hasHttp_singleton]
        rfl
      unfold accesses roundAccesses
      rw [finished, hasHttp_singleton]
      rfl

/-- The later rounds read nothing new. -/
theorem accesses_inside
    {s_buf : Bytes}
    (first : ∀ access ∈ roundAccesses s_buf, access.Inside)
    (count : Nat) :
    ∀ access ∈ accesses files sockfd count s_buf, access.Inside := by
  induction count with
  | zero =>
      intro access member
      cases member
  | succ count inductionHypothesis =>
      rw [accesses, List.forall_mem_append]
      refine ⟨first, ?_⟩
      split
      · exact inductionHypothesis
      · rename_i task rest answered
        have kept : ∃ byte, rest = [byte] := by
          unfold round at answered
          split at answered
          · split at answered
            · cases answered
            · split at answered
              · cases answered
              · cases answered
                exact ⟨_, rfl⟩
          · cases answered
        obtain ⟨byte, rfl⟩ := kept
        rw [accesses_singleton]
        intro access member
        cases member
      · intro access member
        cases member

/-- A round stays inside its strings exactly if it finds no complete request, or
a readable one. -/
theorem roundAccesses_inside_iff (s_buf : Bytes) :
    (∀ access ∈ roundAccesses s_buf, access.Inside) ↔
      (hasHttp s_buf = true → ∀ request entityPos,
        completeRequest s_buf = some (request, entityPos) →
          Readable request entityPos) := by
  rw [roundAccesses]
  by_cases http : hasHttp s_buf = true
  · rw [if_pos http, List.forall_mem_append,
      and_iff_right (requestAccesses_inside s_buf)]
    cases complete : completeRequest s_buf with
    | none =>
        refine iff_of_true ?_ ?_
        · intro access member
          cases member
        · intro _ request entityPos found
          cases found
    | some pair =>
        obtain ⟨request, entityPos⟩ := pair
        obtain ⟨begins, bound⟩ := completeRequest_bounds complete
        dsimp only
        rw [List.forall_mem_cons, answerAccesses_inside_iff bound]
        constructor
        · rintro ⟨_, readable⟩ _ request' entityPos' found
          cases found
          exact readable
        · intro readable
          exact ⟨begins.length_le, readable http request entityPos rfl⟩
  · rw [if_neg http]
    refine iff_of_true ?_ ?_
    · intro access member
      cases member
    · intro isHttp
      exact absurd isHttp http

/-- The accesses of the first round are accesses of the call. -/
theorem roundAccesses_inside
    {s_buf : Bytes}
    (inside : ∀ count, ∀ access ∈ accesses files sockfd count s_buf,
      access.Inside) :
    ∀ access ∈ roundAccesses s_buf, access.Inside := by
  intro access member
  apply inside 1
  rw [accesses]
  exact List.mem_append_left _ member

/-- `Dealer` stays inside its strings exactly if it finds no complete request,
or a readable one. -/
theorem inside_iff
    (files : Files)
    (sockfd : Descriptor)
    (s_buf : Bytes) :
    (∀ count, ∀ access ∈ accesses files sockfd count s_buf, access.Inside) ↔
      (hasHttp s_buf = true → ∀ request entityPos,
        completeRequest s_buf = some (request, entityPos) →
          Readable request entityPos) := by
  rw [← roundAccesses_inside_iff]
  exact ⟨roundAccesses_inside, accesses_inside⟩

/-- A request without a space is read beyond its end. -/
theorem reads_outside :
    ¬ ∀ (files : Files) (sockfd : Descriptor) (s_buf : Bytes),
      s_buf.length < 3000 → 0 ∉ s_buf →
        ∀ count, ∀ access ∈ accesses files sockfd count s_buf,
          access.Inside := by
  intro inside
  have beyond := inside (fun _ => none) ⟨4, 0⟩ (str "HTTP/1.1\r\n\r\n")
    (by decide) (by decide) 1 (.index 13 12) (by decide)
  exact absurd beyond (by decide : ¬ 13 ≤ 12)

/-! ## How a call ends -/

/-- An answer needs the spaces. -/
theorem scanned_of_answer
    {request : Bytes}
    {entityPos : Nat}
    {task : OutPutTask}
    (answered : answer files sockfd request entityPos = some task) :
    scanned request = true := by
  unfold answer at answered
  obtain ⟨⟨method, rest⟩, isMethod, answered⟩ :=
    Option.bind_eq_some_iff.mp answered
  unfold scanned
  rw [isMethod]
  dsimp only at answered ⊢
  by_cases other : method ≠ str "GET" ∧ method ≠ str "POST"
  · rw [if_neg]
    rintro (get | post)
    · exact other.1 get
    · exact other.2 post
  · rw [if_neg other] at answered
    obtain ⟨⟨url, later⟩, isUrl, _⟩ := Option.bind_eq_some_iff.mp answered
    rw [isUrl]
    exact ite_self _

/-- A readable request is answered. -/
theorem answer_of_readable
    {request : Bytes}
    {entityPos : Nat}
    (readable : Readable request entityPos) :
    answer files sockfd request entityPos ≠ none := by
  obtain ⟨method, rest, isMethod, get, post⟩ := readable
  unfold answer
  rw [isMethod]
  dsimp only [Option.bind_eq_bind, Option.bind_some]
  split
  · exact Option.some_ne_none _
  · rename_i known
    by_cases isGet : method = str "GET"
    · obtain ⟨url, later, isUrl, _⟩ := get isGet
      rw [isUrl, Option.bind_some, if_pos isGet]
      exact Option.some_ne_none _
    · have isPost : method = str "POST" := by
        by_contra notPost
        exact known ⟨isGet, notPost⟩
      obtain ⟨url, later, isUrl, show_⟩ := post isPost
      rw [isUrl, Option.bind_some, if_neg isGet]
      by_cases isShow : url = str "/Post_show"
      · rw [if_neg (not_not_intro isShow)]
        have inside :=
          (postAccesses_inside_iff (request.drop entityPos)).mpr (show_ isShow)
        unfold postAccesses at inside
        unfold postShow
        split
        · rename_i namePos idPos foundName foundID
          rw [foundName, foundID] at inside
          dsimp only at inside
          split
          · exact Option.some_ne_none _
          · rename_i behind
            rw [if_neg behind, List.forall_mem_cons,
              List.forall_mem_singleton] at inside
            obtain ⟨startName, startID⟩ := inside
            unfold Bytes.substr Bytes.substrFrom
            rw [if_neg (Nat.not_lt.mpr startName),
              if_neg (Nat.not_lt.mpr startID)]
            split
            · exact Option.some_ne_none _
            · exact Option.some_ne_none _
        · exact Option.some_ne_none _
      · rw [if_pos isShow]
        exact Option.some_ne_none _

/-- How `Dealer` ends when it finds a complete request. -/
theorem ending_of_complete
    {s_buf request : Bytes}
    {entityPos : Nat}
    (http : hasHttp s_buf = true)
    (complete : completeRequest s_buf = some (request, entityPos))
    (count : Nat) :
    ending files sockfd (count + 2) s_buf =
      if (answer files sockfd request entityPos).isSome then some .returned
      else if scanned request then some .thrown
      else some .outside := by
  rw [ending, round, if_pos http, complete]
  dsimp only
  cases answer files sockfd request entityPos with
  | none => rfl
  | some task =>
      have finished : ∀ byte : UInt8, round files sockfd [byte] = .finished := by
        intro byte
        unfold round
        rw [hasHttp_singleton]
        rfl
      dsimp only
      rw [ending, finished]
      rfl

/-- A request without its spaces makes `Dealer` leave its strings. -/
theorem ending_of_unscanned
    {s_buf request : Bytes}
    {entityPos : Nat}
    (http : hasHttp s_buf = true)
    (complete : completeRequest s_buf = some (request, entityPos))
    (unspaced : ¬ scanned request = true)
    (count : Nat) :
    ending files sockfd (count + 2) s_buf = some .outside := by
  have nothing : answer files sockfd request entityPos = none := by
    cases answered : answer files sockfd request entityPos with
    | none => rfl
    | some task => exact absurd (scanned_of_answer answered) unspaced
  rw [ending_of_complete http complete, nothing, if_neg (by decide),
    if_neg unspaced]

/-- A request with its spaces makes `Dealer` return, or `substr` throw. -/
theorem ending_of_scanned
    {s_buf request : Bytes}
    {entityPos : Nat}
    (http : hasHttp s_buf = true)
    (complete : completeRequest s_buf = some (request, entityPos))
    (spaced : scanned request = true)
    (count : Nat) :
    ending files sockfd (count + 2) s_buf = some .returned ∨
      ending files sockfd (count + 2) s_buf = some .thrown := by
  rw [ending_of_complete http complete, if_pos spaced]
  split
  · exact Or.inl rfl
  · exact Or.inr rfl

/-- Without a complete request `Dealer` goes on for ever. -/
theorem ending_of_incomplete
    {s_buf : Bytes}
    (http : hasHttp s_buf = true)
    (incomplete : completeRequest s_buf = none)
    (count : Nat) :
    ending files sockfd count s_buf = none := by
  induction count with
  | zero => rfl
  | succ count inductionHypothesis =>
      rw [ending, round, if_pos http, incomplete]
      exact inductionHypothesis

theorem ending_of_not_http
    {s_buf : Bytes}
    (http : hasHttp s_buf ≠ true)
    (count : Nat) :
    ending files sockfd (count + 1) s_buf = some .returned := by
  rw [ending, round, if_neg http]

/-- The loop comes to an end, by itself or with an exception. -/
def Terminates
    (files : Files)
    (sockfd : Descriptor)
    (s_buf : Bytes) : Prop :=
  ∃ count, ending files sockfd count s_buf = some .returned ∨
    ending files sockfd count s_buf = some .thrown

/-- What ends stays so, so the rounds may be counted from two on. -/
theorem ending_succ
    {s_buf : Bytes}
    {count : Nat}
    {result : Ending}
    (ended : ending files sockfd count s_buf = some result) :
    ending files sockfd (count + 1) s_buf = some result := by
  induction count generalizing s_buf with
  | zero => cases ended
  | succ count inductionHypothesis =>
      rw [ending] at ended ⊢
      split at ended
      · exact ended
      · exact inductionHypothesis ended
      · exact ended
      · exact inductionHypothesis ended

/-- The loop terminates exactly if there is no version in the string, or a
complete request with its spaces.  It goes on for ever exactly if there is a
version and no complete request. -/
theorem terminates_iff
    (files : Files)
    (sockfd : Descriptor)
    (s_buf : Bytes) :
    (Terminates files sockfd s_buf ↔
      (hasHttp s_buf = true → ∃ request entityPos,
        completeRequest s_buf = some (request, entityPos) ∧
          scanned request = true)) ∧
    ((∀ count, ending files sockfd count s_buf = none) ↔
      hasHttp s_buf = true ∧ completeRequest s_buf = none) := by
  by_cases http : hasHttp s_buf = true
  · cases complete : completeRequest s_buf with
    | none =>
        have forever : ∀ count, ending files sockfd count s_buf = none :=
          ending_of_incomplete http complete
        constructor
        · refine iff_of_false ?_ ?_
          · rintro ⟨count, ended⟩
            rw [forever count] at ended
            rcases ended with ended | ended
            · cases ended
            · cases ended
          · intro found
            obtain ⟨request, entityPos, isRequest, _⟩ := found http
            cases isRequest
        · exact iff_of_true forever ⟨http, rfl⟩
    | some pair =>
        obtain ⟨request, entityPos⟩ := pair
        constructor
        · have condition : (hasHttp s_buf = true → ∃ request' entityPos',
              some (request, entityPos) = some (request', entityPos') ∧
                scanned request' = true) ↔ scanned request = true := by
            constructor
            · intro found
              obtain ⟨request', entityPos', same, spaced⟩ := found http
              cases same
              exact spaced
            · intro spaced _
              exact ⟨request, entityPos, rfl, spaced⟩
          rw [condition]
          constructor
          · rintro ⟨count, ended⟩
            by_contra unspaced
            have outside : ending files sockfd (count + 2) s_buf =
                some .outside :=
              ending_of_unscanned http complete unspaced count
            rcases ended with ended | ended
            · cases outside.symm.trans (ending_succ (ending_succ ended))
            · cases outside.symm.trans (ending_succ (ending_succ ended))
          · exact fun spaced =>
              ⟨2, ending_of_scanned http complete spaced 0⟩
        · refine iff_of_false ?_ ?_
          · intro forever
            by_cases spaced : scanned request = true
            · rcases ending_of_scanned http complete spaced 0 with ended | ended
              · cases (forever 2).symm.trans ended
              · cases (forever 2).symm.trans ended
            · cases (forever 2).symm.trans
                (ending_of_unscanned http complete spaced 0)
          · intro both
            cases both.2
  · constructor
    · refine iff_of_true ?_ ?_
      · exact ⟨1, Or.inl (ending_of_not_http http 0)⟩
      · intro isHttp
        exact absurd isHttp http
    · refine iff_of_false ?_ ?_
      · intro forever
        have ended : ending files sockfd 1 s_buf = some .returned :=
          ending_of_not_http http 0
        rw [forever 1] at ended
        cases ended
      · intro both
        exact http both.1

/-- A header without its empty line. -/
theorem never_terminates :
    ¬ ∀ (files : Files) (sockfd : Descriptor) (s_buf : Bytes),
      s_buf.length < 3000 → 0 ∉ s_buf → Terminates files sockfd s_buf := by
  intro terminates
  obtain ⟨count, ended⟩ := terminates (fun _ => none) ⟨4, 0⟩
    (str "GET / HTTP/1.1\r\n") (by decide) (by decide)
  rw [ending_of_incomplete (by decide) (by decide) count] at ended
  rcases ended with ended | ended
  · cases ended
  · cases ended

/-- A call that stays inside its strings returns or goes on. -/
theorem ending_of_inside
    {s_buf : Bytes}
    (inside : ∀ count, ∀ access ∈ accesses files sockfd count s_buf,
      access.Inside)
    (count : Nat)
    {result : Ending}
    (ended : ending files sockfd count s_buf = some result) :
    result = .returned := by
  by_cases http : hasHttp s_buf = true
  · cases complete : completeRequest s_buf with
    | none =>
        rw [ending_of_incomplete http complete] at ended
        cases ended
    | some pair =>
        obtain ⟨request, entityPos⟩ := pair
        have readable := (roundAccesses_inside_iff s_buf).mp
          (roundAccesses_inside inside) http request entityPos complete
        have later := ending_succ (ending_succ ended)
        rw [ending_of_complete http complete,
          if_pos (Option.isSome_iff_ne_none.mpr (answer_of_readable readable))]
          at later
        exact (Option.some.inj later).symm
  · have later := ending_succ ended
    rw [ending_of_not_http http] at later
    exact (Option.some.inj later).symm

end Dealer
end Lab2
end CloudComputing
