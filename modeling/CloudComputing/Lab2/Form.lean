import CloudComputing.Lab2.Lengths

/-!
# POST requests with a form

`Dealer` looks for `Name` and `ID` in the entity and takes what is between them
for the name, so the `&` in front of `ID` is shown as a part of the name.
-/

namespace CloudComputing
namespace Lab2

open Decimal

/-! ## Messages with different entities -/

/-- The header of a message ends in front of its entity. -/
theorem withLength_injective
    {before entity entity' rest : Bytes}
    (same : withLength before entity (13 :: rest) =
      withLength before entity' (13 :: rest)) :
    entity = entity' := by
  have noReturn : ∀ number : Int, (13 : UInt8) ∉ intToDecimal number := by
    intro number
    cases number with
    | ofNat natural => exact not_mem_toDecimal (by decide)
    | negSucc natural =>
        change 13 ∉ str "-" ++ toDecimal (natural + 1)
        rw [List.mem_append, not_or]
        exact ⟨by decide, not_mem_toDecimal (by decide)⟩
  unfold withLength at same
  simp only [List.append_assoc, List.append_cancel_left_eq,
    List.cons_append] at same
  have heads := congrArg (List.takeWhile (· ≠ 13)) same
  have cut : ∀ (number : Int) (later : Bytes),
      (intToDecimal number ++ 13 :: later).takeWhile (· ≠ 13) =
        intToDecimal number := by
    intro number later
    rw [List.takeWhile_append_of_pos, List.takeWhile_cons_of_neg (by simp),
      List.append_nil]
    intro byte member
    have differs : byte ≠ 13 := by
      rintro rfl
      exact noReturn number member
    simpa using differs
  rw [cut, cut] at heads
  rw [heads] at same
  simpa using same

namespace Dealer

/-! ## The form -/

/-- The entity `Name=<name>&ID=<id>`. -/
def form (name id : Bytes) : Bytes :=
  str "Name=" ++ name ++ str "&ID=" ++ id

theorem length_form (name id : Bytes) :
    (form name id).length = name.length + id.length + 9 := by
  unfold form
  simp only [List.length_append]
  change 5 + name.length + 4 + id.length = _
  omega

theorem find_name_form (name id : Bytes) :
    Bytes.find (str "Name") (form name id) = some 0 := by
  have begins : form name id =
      str "Name" ++ (str "=" ++ name ++ str "&ID=" ++ id) := by
    unfold form
    simp only [← List.append_assoc]
    rfl
  rw [begins]
  exact Bytes.find_append_self _ _

/-- The first `ID` is behind `Name=`, and not behind the one of the form. -/
theorem exists_find_id_form
    (name id : Bytes) :
    ∃ idPos, Bytes.find (str "ID") (form name id) = some idPos ∧
      5 ≤ idPos ∧ idPos ≤ name.length + 6 := by
  have split : form name id =
      (str "Name=" ++ name ++ str "&") ++ (str "ID" ++ (str "=" ++ id)) := by
    unfold form
    simp only [List.append_assoc]
    rfl
  have length : (str "Name=" ++ name ++ str "&").length = name.length + 6 := by
    simp only [List.length_append]
    change 5 + name.length + 1 = _
    omega
  have occurs : str "ID" <+: (form name id).drop (name.length + 6) := by
    rw [split, List.drop_left' length]
    exact List.prefix_append _ _
  obtain ⟨idPos, bound, found⟩ := Bytes.exists_find_of_prefix occurs
  refine ⟨idPos, found, ?_, bound⟩
  by_contra before
  have first := Bytes.find_getElem? found (show 0 < (str "ID").length by decide)
  have own : (form name id)[idPos]? = (str "Name=")[idPos]? := by
    unfold form
    rw [List.append_assoc, List.append_assoc,
      List.getElem?_append_left (show idPos < 5 by omega)]
  rw [Nat.add_zero, own] at first
  have member := List.mem_of_getElem? first
  exact absurd member (by decide)

/-- What `Dealer` takes for the name and the number of a form. -/
theorem fields_form
    {name id : Bytes}
    {idPos : Nat}
    (found : Bytes.find (str "ID") (form name id) = some idPos)
    (lower : 5 ≤ idPos)
    (upper : idPos ≤ name.length + 6) :
    fields (form name id) =
      some (((form name id).drop 5).take (idPos - 5),
        (form name id).drop (idPos + 3)) := by
  have length := length_form name id
  have count : ((idPos : Int) - (0 : Nat) - 5).toNat = idPos - 5 := by omega
  unfold fields
  rw [find_name_form, found]
  dsimp only [Option.bind_eq_bind, Option.bind_some]
  rw [if_neg (by omega)]
  unfold Bytes.substr Bytes.substrFrom
  rw [if_neg (by omega), if_neg (by omega), if_neg (by omega), count]
  rfl

/-- Name and number together have one byte more than those of the form. -/
theorem length_fields_form
    {name id name' id' : Bytes}
    (found : fields (form name id) = some (name', id')) :
    name'.length + id'.length = name.length + id.length + 1 := by
  obtain ⟨idPos, isID, lower, upper⟩ := exists_find_id_form name id
  have length := length_form name id
  rw [fields_form isID lower upper] at found
  cases found
  rw [List.length_take, List.length_drop, List.length_drop]
  omega

/-! ## The request -/

/-- The head of a POST request for `/Post_show` that declares the length of its
entity. -/
structure PostHead (head : Bytes) (length : Nat) : Prop where
  line : str "POST /Post_show " <+: head
  version : hasHttp head = true
  emptyLine : ∃ position,
    Bytes.find (str "\r\n\r\n") head = some position ∧
      position + 4 = head.length
  declared : ∃ headEndPos,
    Bytes.find (str "Content-Length") head = some headEndPos ∧
      entityLen head headEndPos = length

theorem word_append
    {found : Bytes}
    (noSpace : (32 : UInt8) ∉ found)
    (rest : Bytes) :
    word (found ++ 32 :: rest) = some (found, rest) := by
  have stays : ∀ byte ∈ found, (decide (byte ≠ 32)) = true := by
    intro byte member
    have differs : byte ≠ 32 := by
      rintro rfl
      exact noSpace member
    simpa using differs
  unfold word
  rw [if_pos (by simp), List.takeWhile_append_of_pos stays,
    List.takeWhile_cons_of_neg (by simp), List.append_nil,
    List.dropWhile_append_of_pos stays, List.dropWhile_cons_of_neg (by simp)]
  rfl

theorem PostHead.complete
    {head entity : Bytes}
    (isHead : PostHead head entity.length) :
    completeRequest (head ++ entity) = some (head ++ entity, head.length) := by
  obtain ⟨position, emptyLine, ends⟩ := isHead.emptyLine
  obtain ⟨headEndPos, found, declared⟩ := isHead.declared
  unfold completeRequest
  rw [Bytes.find_append emptyLine entity]
  dsimp only
  rw [ends, List.take_left, found]
  dsimp only
  rw [declared, List.length_append, Int.toNat_natCast, if_pos]
  · rw [← List.length_append, List.take_length]
  · unfold toUInt64
    omega

variable {files : Files} {sockfd : Descriptor}

/-- The request comes down to its entity. -/
theorem PostHead.answer_eq
    {head entity : Bytes}
    {length : Nat}
    (isHead : PostHead head length) :
    answer files sockfd (head ++ entity) head.length =
      postShow (str "POST") (str "/Post_show") entity sockfd := by
  obtain ⟨later, split⟩ := isHead.line
  have request : head ++ entity =
      str "POST" ++ 32 :: (str "/Post_show" ++ 32 :: (later ++ entity)) := by
    rw [← split]
    rfl
  unfold answer
  rw [request, word_append (by decide)]
  dsimp only [Option.bind_eq_bind, Option.bind_some]
  rw [if_neg (by decide), word_append (by decide), Option.bind_some,
    if_neg (by decide), if_neg (by simp), ← request, List.drop_left]

theorem PostHead.round_eq
    {head entity : Bytes}
    (isHead : PostHead head entity.length)
    {name id : Bytes}
    (found : fields entity = some (name, id)) :
    round files sockfd (head ++ entity) =
      .answered (postDealer name id sockfd) [0] := by
  unfold round
  rw [if_pos (hasHttp_append isHead.version entity), isHead.complete]
  dsimp only
  rw [isHead.answer_eq, postShow_of_fields found]
  dsimp only
  rw [List.getD_eq_default _ _ (le_refl _)]

/-- The request is answered 200, with an entity that shows this name and this
number. -/
def Shows
    (files : Files)
    (sockfd : Descriptor)
    (name id s_buf : Bytes) : Prop :=
  ∃ task rest, round files sockfd s_buf = .answered task rest ∧
    task.message = (postDealer name id sockfd).message

/-- No form is shown as it was sent. -/
theorem never_shows
    (files : Files)
    (sockfd : Descriptor)
    {name id head : Bytes}
    (isHead : PostHead head (form name id).length) :
    ¬ Shows files sockfd name id (head ++ form name id) := by
  rintro ⟨task, rest, answered, same⟩
  obtain ⟨idPos, isID, lower, upper⟩ := exists_find_id_form name id
  have found := fields_form isID lower upper
  rw [isHead.round_eq found] at answered
  cases answered
  have entities := congrArg List.length (withLength_injective same)
  simp only [List.length_append] at entities
  have longer := length_fields_form found
  omega

/-- A request with an entity of twelve bytes. -/
def postHead : Bytes :=
  str "POST /Post_show HTTP/1.1\r\nContent-Length: 12\r\n\r\n"

theorem postHead_isHead : PostHead postHead 12 where
  line := ⟨str "HTTP/1.1\r\nContent-Length: 12\r\n\r\n", by decide⟩
  version := by decide
  emptyLine := ⟨44, by decide, by decide⟩
  declared := ⟨26, by decide, by decide⟩

theorem never_shows_form :
    ¬ Shows (fun _ => none) ⟨4, 0⟩ (str "a") (str "42")
      (postHead ++ form (str "a") (str "42")) :=
  never_shows (fun _ => none) ⟨4, 0⟩ postHead_isHead

/-- `Name=a&ID=42` is shown with the name `a&`. -/
theorem shows_ampersand :
    ¬ ∀ (files : Files) (sockfd : Descriptor) (name id head : Bytes),
      0 ∉ name → 38 ∉ name → 0 ∉ id → 38 ∉ id →
        PostHead head (form name id).length →
          Shows files sockfd name id (head ++ form name id) := by
  intro shows
  obtain ⟨task, rest, answered, same⟩ :=
    shows (fun _ => none) ⟨4, 0⟩ (str "a") (str "42") postHead (by decide)
      (by decide) (by decide) (by decide) postHead_isHead
  have found : fields (form (str "a") (str "42")) =
      some (str "a&", str "42") := by decide
  have isHead : PostHead postHead (form (str "a") (str "42")).length :=
    postHead_isHead
  rw [isHead.round_eq found] at answered
  cases answered
  have entities := withLength_injective same
  exact absurd entities (by decide)

end Dealer
end Lab2
end CloudComputing
