import CloudComputing.Lab2.Accesses

/-!
# The lengths of the messages

The output thread prints every message into the 1024 bytes of `send_buf`.  A
message is a fixed text with the length of its entity, and the entity is a
fixed text with what is echoed of the request: the method, the URL, or the name
and the number.  Only `recv_buf` bounds these.
-/

namespace CloudComputing
namespace Lab2

open Decimal

/-! ## Messages with the length of their entity -/

/-- A number with three digits. -/
theorem length_toDecimal_three
    {number : Nat}
    (lower : 100 ≤ number)
    (upper : number < 1000) :
    (toDecimal number).length = 3 := by
  have least := length_toDecimal_mono lower
  have largest := length_toDecimal_mono (Nat.le_of_lt_succ upper)
  have three : (toDecimal 100).length = 3 := by decide
  have three' : (toDecimal 999).length = 3 := by decide
  omega

theorem length_withLength
    {before entity after : Bytes}
    (small : entity.length < 2 ^ 31) :
    (withLength before entity after).length =
      before.length + (toDecimal entity.length).length + after.length +
        entity.length := by
  unfold withLength
  rw [toInt32_of_lt small, intToDecimal_natCast]
  simp only [List.length_append]

/-- A message with an entity of at least a hundred bytes fits into `send_buf`
if it does so with a number of three digits. -/
theorem withLength_fits_iff
    {before entity after : Bytes}
    (header : 21 ≤ before.length + after.length)
    (large : 100 ≤ entity.length)
    (small : entity.length < 2 ^ 31) :
    (withLength before entity after).length ≤ 1023 ↔
      before.length + after.length + 3 + entity.length ≤ 1023 := by
  rw [length_withLength small]
  by_cases short : entity.length < 1000
  · rw [length_toDecimal_three large short]
    omega
  · have digits := length_toDecimal_mono (Nat.le_of_not_lt short)
    have four : (toDecimal 1000).length = 4 := by decide
    omega

theorem length_intToDecimal_le (number : Int) :
    (intToDecimal (toInt32 number)).length ≤ 11 := by
  have lower : -(2 ^ 31) ≤ toInt32 number :=
    Int.le_bmod (m := 2 ^ 32) (by decide)
  have upper : toInt32 number < 2 ^ 31 := Int.bmod_lt (m := 2 ^ 32) (by decide)
  have ten : (toDecimal (2 ^ 31)).length = 10 := by decide
  cases value : toInt32 number with
  | ofNat natural =>
      rw [value] at upper
      have bound : natural ≤ 2 ^ 31 := by
        have := Int.ofNat_lt.mp (show (natural : Int) < ((2 ^ 31 : Nat) : Int) by
          simpa using upper)
        omega
      have digits := length_toDecimal_mono bound
      change (toDecimal natural).length ≤ 11
      omega
  | negSucc natural =>
      rw [value] at lower
      have bound : natural + 1 ≤ 2 ^ 31 := by
        rw [Int.negSucc_eq] at lower
        omega
      have digits := length_toDecimal_mono bound
      change (str "-" ++ toDecimal (natural + 1)).length ≤ 11
      rw [List.length_append]
      change 1 + _ ≤ 11
      omega

/-! ## The messages -/

set_option maxRecDepth 2000 in
theorem errorMessage_other_fits_iff
    {method : Bytes}
    (other : method ≠ str "GET" ∧ method ≠ str "POST")
    (url : Bytes)
    (small : method.length < 3000) :
    (errorMessage method url).length ≤ 1023 ↔ method.length ≤ 784 := by
  have entity : ((str "<htmL><title>501 Not Implemented</title><body bgcolor=ffffff>\n Not Implemented\n<p>Does not implement this method: " ++
      method ++ str "\n,<hr><em>HTTP Web Server </em>\n</body></html>\n") :
        Bytes).length = 161 + method.length := by
    simp [str]
    omega
  unfold errorMessage
  rw [if_pos other, withLength_fits_iff (by decide) (by omega) (by omega),
    entity]
  change 71 + 4 + 3 + (161 + method.length) ≤ 1023 ↔ _
  omega

theorem errorMessage_get_fits_iff
    {url : Bytes}
    (small : url.length < 3000) :
    (errorMessage (str "GET") url).length ≤ 1023 ↔ url.length ≤ 808 := by
  have entity : ((str "<html><title>GET 404 Not Found</title><body bgcolor=ffffff>\n Not Found\n<p>Couldn't find this file: " ++
      url ++ str "\n<hr><em>HTTP Web Sever</em>\n</body></html>\n") :
        Bytes).length = 143 + url.length := by
    simp [str]
    omega
  unfold errorMessage
  rw [if_neg (by decide), if_pos rfl,
    withLength_fits_iff (by decide) (by omega) (by omega), entity]
  change 65 + 4 + 3 + (143 + url.length) ≤ 1023 ↔ _
  omega

theorem errorMessage_post_fits (url : Bytes) :
    (errorMessage (str "POST") url).length ≤ 1023 := by
  unfold errorMessage
  rw [if_neg (by decide), if_neg (by decide)]
  decide +kernel

theorem getDealer_fits_iff
    (files : Files)
    {url : Bytes}
    (sockfd : Descriptor)
    (small : url.length < 3000) :
    (getDealer files (str "GET") url sockfd).message.length ≤ 1023 ↔
      (files (getPath url) = none → url.length ≤ 808) := by
  unfold getDealer
  cases files (getPath url) with
  | some size =>
      refine iff_of_true ?_ (fun missing => by cases missing)
      have digits := length_intToDecimal_le size
      simp only [List.length_append]
      change 33 + _ + 29 ≤ 1023
      omega
  | none =>
      rw [forall_prop_of_true rfl]
      exact errorMessage_get_fits_iff small

theorem postDealer_fits_iff
    {name ID : Bytes}
    (sockfd : Descriptor)
    (small : name.length + ID.length < 6000) :
    (postDealer name ID sockfd).message.length ≤ 1023 ↔
      name.length + ID.length ≤ 843 := by
  have entity : ((str "<html><title>POST Method</title><body bgcolor=ffffff>\nYour Name: " ++
      name ++ str "\nID: " ++ ID ++
        str "\n<hr><em>Http Web server</em>\n</body></html>\n") :
          Bytes).length = 115 + (name.length + ID.length) := by
    simp [str]
    omega
  unfold postDealer
  rw [withLength_fits_iff (by decide) (by omega) (by omega), entity]
  change 58 + 4 + 3 + (115 + (name.length + ID.length)) ≤ 1023 ↔ _
  omega

/-! ## Requests -/

namespace Dealer

/-- The name and the number in the entity of a POST request. -/
def fields (entity : Bytes) : Option (Bytes × Bytes) := do
  let namePos ← Bytes.find (str "Name") entity
  let idPos ← Bytes.find (str "ID") entity
  if idPos ≤ namePos then none
  else do
    let name ← Bytes.substr entity (namePos + 5) ((idPos : Int) - namePos - 5)
    let ID ← Bytes.substrFrom entity (idPos + 3)
    some (name, ID)

/-- `postShow` answers with the fields, or that there are none. -/
theorem postShow_eq_some
    {method url entity : Bytes}
    {sockfd : Descriptor}
    {task : OutPutTask}
    (answered : postShow method url entity sockfd = some task) :
    (∃ name ID, fields entity = some (name, ID) ∧
        task = postDealer name ID sockfd) ∨
      fields entity = none ∧ task = errorDealer method url sockfd := by
  unfold postShow at answered
  unfold fields
  split at answered
  · rename_i namePos idPos foundName foundID
    rw [foundName, foundID]
    dsimp only [Option.bind_eq_bind, Option.bind_some]
    split at answered
    · rename_i before
      cases answered
      rw [if_pos before]
      exact Or.inr ⟨rfl, rfl⟩
    · rename_i behind
      obtain ⟨name, isName, answered⟩ := Option.bind_eq_some_iff.mp answered
      obtain ⟨ID, isID, answered⟩ := Option.bind_eq_some_iff.mp answered
      cases answered
      rw [if_neg behind, isName, Option.bind_some, isID]
      exact Or.inl ⟨name, ID, rfl, rfl⟩
  · rename_i missing
    cases answered
    refine Or.inr ⟨?_, rfl⟩
    cases foundName : Bytes.find (str "Name") entity with
    | none => rfl
    | some namePos =>
        cases foundID : Bytes.find (str "ID") entity with
        | none => rfl
        | some idPos => exact absurd foundID (missing namePos idPos foundName)

theorem postShow_of_fields
    {entity name ID : Bytes}
    (found : fields entity = some (name, ID))
    (method url : Bytes)
    (sockfd : Descriptor) :
    postShow method url entity sockfd = some (postDealer name ID sockfd) := by
  unfold fields at found
  unfold postShow
  obtain ⟨namePos, foundName, found⟩ := Option.bind_eq_some_iff.mp found
  obtain ⟨idPos, foundID, found⟩ := Option.bind_eq_some_iff.mp found
  rw [foundName, foundID]
  dsimp only
  split at found
  · cases found
  · rename_i behind
    obtain ⟨name', isName, found⟩ := Option.bind_eq_some_iff.mp found
    obtain ⟨ID', isID, found⟩ := Option.bind_eq_some_iff.mp found
    cases found
    rw [if_neg behind]
    dsimp only [Option.bind_eq_bind]
    rw [isName, Option.bind_some, isID]
    rfl

/-- Fields are no longer than their entity. -/
theorem length_fields_le
    {entity name ID : Bytes}
    (found : fields entity = some (name, ID)) :
    name.length ≤ entity.length ∧ ID.length ≤ entity.length := by
  unfold fields at found
  obtain ⟨namePos, _, found⟩ := Option.bind_eq_some_iff.mp found
  obtain ⟨idPos, _, found⟩ := Option.bind_eq_some_iff.mp found
  split at found
  · cases found
  · obtain ⟨name', isName, found⟩ := Option.bind_eq_some_iff.mp found
    obtain ⟨ID', isID, found⟩ := Option.bind_eq_some_iff.mp found
    cases found
    constructor
    · unfold Bytes.substr at isName
      split at isName
      · cases isName
      · split at isName
        · cases isName
          exact (List.drop_sublist _ _).length_le
        · cases isName
          exact (List.length_take_le' _ _).trans
            (List.drop_sublist _ _).length_le
    · unfold Bytes.substrFrom at isID
      split at isID
      · cases isID
      · cases isID
        exact (List.drop_sublist _ _).length_le

/-- A request with its spaces in which what is echoed is short. -/
def Short (files : Files) (request : Bytes) (entityPos : Nat) : Prop :=
  ∃ method rest, word request = some (method, rest) ∧
    (method ≠ str "GET" ∧ method ≠ str "POST" → method.length ≤ 784) ∧
    (method = str "GET" → ∃ url later, word rest = some (url, later) ∧
      (files (getPath url) = none → url.length ≤ 808)) ∧
    (method = str "POST" → ∃ url later, word rest = some (url, later) ∧
      (url = str "/Post_show" → ∀ name ID,
        fields (request.drop entityPos) = some (name, ID) →
          name.length + ID.length ≤ 843))

variable {files : Files} {sockfd : Descriptor}

/-- The answer to a POST request. -/
theorem postAnswer_fits_iff
    {entity : Bytes}
    (url : Bytes)
    (sockfd : Descriptor)
    (small : entity.length < 3000) :
    (∀ task, (if url ≠ str "/Post_show" then
          some (errorDealer (str "POST") url sockfd)
        else postShow (str "POST") url entity sockfd) = some task →
          task.message.length ≤ 1023) ↔
      (url = str "/Post_show" → ∀ name ID, fields entity = some (name, ID) →
        name.length + ID.length ≤ 843) := by
  have fits : ∀ name ID, fields entity = some (name, ID) →
      ((postDealer name ID sockfd).message.length ≤ 1023 ↔
        name.length + ID.length ≤ 843) := by
    intro name ID found
    obtain ⟨nameBound, idBound⟩ := length_fields_le found
    exact postDealer_fits_iff sockfd (by omega)
  by_cases isShow : url = str "/Post_show"
  · rw [if_neg (not_not_intro isShow)]
    constructor
    · intro bounded _ name ID found
      exact (fits name ID found).mp
        (bounded _ (postShow_of_fields found _ url sockfd))
    · intro bound task isTask
      rcases postShow_eq_some isTask with ⟨name, ID, found, rfl⟩ | ⟨_, rfl⟩
      · exact (fits name ID found).mpr (bound isShow name ID found)
      · exact errorMessage_post_fits url
  · rw [if_pos isShow]
    refine iff_of_true ?_ (fun same => absurd same isShow)
    intro task isTask
    cases isTask
    exact errorMessage_post_fits url

section Methods

variable
  {request method rest : Bytes}
  {entityPos : Nat}

theorem short_of_other
    (isMethod : word request = some (method, rest))
    (other : method ≠ str "GET" ∧ method ≠ str "POST") :
    Short files request entityPos ↔ method.length ≤ 784 := by
  constructor
  · rintro ⟨method', rest', isWord, bound, _⟩
    rw [isMethod] at isWord
    cases isWord
    exact bound other
  · intro bound
    exact ⟨method, rest, isMethod, fun _ => bound,
      fun get => absurd get other.1, fun post => absurd post other.2⟩

theorem short_of_get (isMethod : word request = some (str "GET", rest)) :
    Short files request entityPos ↔
      ∃ url later, word rest = some (url, later) ∧
        (files (getPath url) = none → url.length ≤ 808) := by
  constructor
  · rintro ⟨method', rest', isWord, _, get, _⟩
    rw [isMethod] at isWord
    cases isWord
    exact get rfl
  · intro get
    exact ⟨_, rest, isMethod, fun other => absurd rfl other.1, fun _ => get,
      fun post => absurd post (by decide)⟩

theorem short_of_post (isMethod : word request = some (str "POST", rest)) :
    Short files request entityPos ↔
      ∃ url later, word rest = some (url, later) ∧
        (url = str "/Post_show" → ∀ name ID,
          fields (request.drop entityPos) = some (name, ID) →
            name.length + ID.length ≤ 843) := by
  constructor
  · rintro ⟨method', rest', isWord, _, _, post⟩
    rw [isMethod] at isWord
    cases isWord
    exact post rfl
  · intro post
    exact ⟨_, rest, isMethod, fun other => absurd rfl other.2,
      fun get => absurd get (by decide), fun _ => post⟩

/-- The answer to another method echoes it. -/
theorem answer_other_fits_iff
    (isMethod : word request = some (method, rest))
    (other : method ≠ str "GET" ∧ method ≠ str "POST")
    (small : method.length < 3000) :
    (scanned request = true ∧ ∀ task,
        answer files sockfd request entityPos = some task →
          task.message.length ≤ 1023) ↔
      method.length ≤ 784 := by
  have notEither : ¬ (method = str "GET" ∨ method = str "POST") := by
    rintro (get | post)
    · exact other.1 get
    · exact other.2 post
  have fits := errorMessage_other_fits_iff other [] small
  unfold scanned answer
  rw [isMethod]
  dsimp only [Option.bind_eq_bind, Option.bind_some]
  rw [if_neg notEither, if_pos other, and_iff_right rfl]
  constructor
  · intro bounded
    exact fits.mp (bounded _ rfl)
  · intro bound task isTask
    cases isTask
    exact fits.mpr bound

/-- The answer to a GET request echoes the URL when there is no file. -/
theorem answer_get_fits_iff
    (isMethod : word request = some (str "GET", rest))
    (small : rest.length < 3000) :
    (scanned request = true ∧ ∀ task,
        answer files sockfd request entityPos = some task →
          task.message.length ≤ 1023) ↔
      ∃ url later, word rest = some (url, later) ∧
        (files (getPath url) = none → url.length ≤ 808) := by
  unfold scanned answer
  rw [isMethod]
  dsimp only [Option.bind_eq_bind, Option.bind_some]
  rw [if_pos (Or.inl rfl), if_neg (fun other => other.1 rfl)]
  cases isUrl : word rest with
  | none =>
      refine iff_of_false ?_ ?_
      · rintro ⟨spaced, _⟩
        cases spaced
      · rintro ⟨url, later, found, _⟩
        cases found
  | some pair =>
      obtain ⟨url, later⟩ := pair
      have parts := congrArg List.length (word_eq_some isUrl).1
      rw [List.length_append, List.length_cons] at parts
      have fits := getDealer_fits_iff files sockfd
        (show url.length < 3000 by omega)
      rw [Option.bind_some, if_pos rfl, and_iff_right Option.isSome_some]
      constructor
      · intro bounded
        exact ⟨url, later, rfl, fits.mp (bounded _ rfl)⟩
      · rintro ⟨url', later', same, bound⟩ task isTask
        cases same
        cases isTask
        exact fits.mpr bound

/-- The answer to a POST request echoes the fields of its entity. -/
theorem answer_post_fits_iff
    (isMethod : word request = some (str "POST", rest))
    (small : request.length < 3000) :
    (scanned request = true ∧ ∀ task,
        answer files sockfd request entityPos = some task →
          task.message.length ≤ 1023) ↔
      ∃ url later, word rest = some (url, later) ∧
        (url = str "/Post_show" → ∀ name ID,
          fields (request.drop entityPos) = some (name, ID) →
            name.length + ID.length ≤ 843) := by
  unfold scanned answer
  rw [isMethod]
  dsimp only [Option.bind_eq_bind, Option.bind_some]
  rw [if_pos (Or.inr rfl), if_neg (fun other => other.2 rfl)]
  cases isUrl : word rest with
  | none =>
      refine iff_of_false ?_ ?_
      · rintro ⟨spaced, _⟩
        cases spaced
      · rintro ⟨url, later, found, _⟩
        cases found
  | some pair =>
      obtain ⟨url, later⟩ := pair
      have entityBound : (request.drop entityPos).length < 3000 := by
        rw [List.length_drop]
        omega
      have fits := postAnswer_fits_iff url sockfd entityBound
      rw [Option.bind_some, if_neg (by decide), fits,
        and_iff_right Option.isSome_some]
      constructor
      · intro bound
        exact ⟨url, later, rfl, bound⟩
      · rintro ⟨url', later', same, bound⟩
        cases same
        exact bound

end Methods

theorem answer_fits_iff
    {request : Bytes}
    (entityPos : Nat)
    (small : request.length < 3000) :
    (scanned request = true ∧ ∀ task,
        answer files sockfd request entityPos = some task →
          task.message.length ≤ 1023) ↔
      Short files request entityPos := by
  cases isMethod : word request with
  | none =>
      refine iff_of_false ?_ ?_
      · rintro ⟨spaced, _⟩
        unfold scanned at spaced
        rw [isMethod] at spaced
        cases spaced
      · rintro ⟨method, rest, isWord, _⟩
        rw [isMethod] at isWord
        cases isWord
  | some pair =>
      obtain ⟨method, rest⟩ := pair
      have parts := congrArg List.length (word_eq_some isMethod).1
      rw [List.length_append, List.length_cons] at parts
      by_cases get : method = str "GET"
      · subst get
        rw [short_of_get isMethod]
        exact answer_get_fits_iff isMethod (by omega)
      · by_cases post : method = str "POST"
        · subst post
          rw [short_of_post isMethod]
          exact answer_post_fits_iff isMethod small
        · rw [short_of_other isMethod ⟨get, post⟩]
          exact answer_other_fits_iff isMethod ⟨get, post⟩ (by omega)

/-- `Dealer` does not leave its strings, and every message that it enqueues
fits into `send_buf`. -/
def Bounded
    (files : Files)
    (sockfd : Descriptor)
    (s_buf : Bytes) : Prop :=
  ∀ count, ending files sockfd count s_buf ≠ some .outside ∧
    ∀ tasks, messages files sockfd count s_buf = some tasks →
      ∀ task ∈ tasks, task.message.length ≤ 1023

/-- The messages fit exactly if there is no complete request, or one in which
what is echoed is short. -/
theorem bounded_iff
    (files : Files)
    (sockfd : Descriptor)
    {s_buf : Bytes}
    (small : s_buf.length < 3000) :
    Bounded files sockfd s_buf ↔
      (hasHttp s_buf = true → ∀ request entityPos,
        completeRequest s_buf = some (request, entityPos) →
          Short files request entityPos) := by
  by_cases complete : Complete s_buf
  · obtain ⟨http, found⟩ := complete
    obtain ⟨⟨request, entityPos⟩, found⟩ := Option.isSome_iff_exists.mp found
    have length := (completeRequest_bounds found).1.length_le
    have condition : (hasHttp s_buf = true → ∀ request' entityPos',
        completeRequest s_buf = some (request', entityPos') →
          Short files request' entityPos') ↔ Short files request entityPos := by
      constructor
      · intro short
        exact short http request entityPos found
      · intro short _ request' entityPos' same
        rw [found] at same
        cases same
        exact short
    rw [condition, ← answer_fits_iff entityPos (by omega)]
    constructor
    · intro bounded
      constructor
      · by_contra unspaced
        exact (bounded 2).1 (ending_of_unscanned http found unspaced 0)
      · intro task answered
        apply (bounded 1).2 [task]
        · rw [messages_of_complete http found, answered]
          rfl
        · exact List.mem_singleton.mpr rfl
    · rintro ⟨spaced, fits⟩ count
      constructor
      · intro outside
        have later := ending_succ (ending_succ outside)
        rcases ending_of_scanned http found spaced count with ended | ended
        · cases ended.symm.trans later
        · cases ended.symm.trans later
      · intro tasks enqueued task member
        cases count with
        | zero =>
            cases enqueued
            cases member
        | succ count =>
            rw [messages_of_complete http found] at enqueued
            obtain ⟨answered, isAnswer, rfl⟩ :=
              Option.map_eq_some_iff.mp enqueued
            rw [List.mem_singleton.mp member]
            exact fits answered isAnswer
  · refine iff_of_true ?_ ?_
    · intro count
      constructor
      · intro outside
        by_cases http : hasHttp s_buf = true
        · have incomplete : completeRequest s_buf = none := by
            cases found : completeRequest s_buf with
            | none => rfl
            | some pair =>
                exact absurd ⟨http, Option.isSome_iff_exists.mpr ⟨_, found⟩⟩
                  complete
          rw [ending_of_incomplete http incomplete] at outside
          cases outside
        · have later := ending_succ outside
          rw [ending_of_not_http http] at later
          cases later
      · intro tasks enqueued task member
        rw [messages_of_not_complete complete] at enqueued
        cases enqueued
        cases member
    · intro http request entityPos found
      exact absurd ⟨http, Option.isSome_iff_exists.mpr ⟨_, found⟩⟩ complete

theorem bounded_iff_get :
    Bounded (fun _ => none) ⟨4, 0⟩ (str "GET /a HTTP/1.1\r\n\r\n") := by
  apply (bounded_iff (fun _ => none) ⟨4, 0⟩ (by decide)).mpr
  intro _ request entityPos found
  have complete : completeRequest (str "GET /a HTTP/1.1\r\n\r\n") =
      some (str "GET /a HTTP/1.1\r\n\r\n", 19) := by decide
  rw [complete] at found
  cases found
  refine ⟨str "GET", str "/a HTTP/1.1\r\n\r\n", by decide, ?_, ?_, ?_⟩
  · intro other
    exact absurd rfl other.1
  · intro _
    exact ⟨str "/a", str "HTTP/1.1\r\n\r\n", by decide, fun _ => by decide⟩
  · intro post
    exact absurd post (by decide)

/-- A method of 785 bytes. -/
def longMethod : Bytes :=
  List.replicate 785 65 ++ str " / HTTP/1.1\r\n\r\n"

theorem message_overflows :
    ¬ ∀ (files : Files) (sockfd : Descriptor) (s_buf : Bytes),
      s_buf.length < 3000 → 0 ∉ s_buf → Bounded files sockfd s_buf := by
  intro bounded
  have enqueued : (messages (fun _ => none) ⟨4, 0⟩ 1 longMethod).map
      (fun tasks => tasks.map fun task => task.message.length) =
        some [1024] := by
    decide +kernel
  obtain ⟨tasks, isTasks, lengths⟩ := Option.map_eq_some_iff.mp enqueued
  obtain ⟨task, member, length⟩ : ∃ task ∈ tasks,
      task.message.length = 1024 := by
    apply List.mem_map.mp
    rw [lengths]
    exact List.mem_singleton.mpr rfl
  have fits := (bounded _ _ longMethod (by decide +kernel) (by decide +kernel)
    1).2 tasks isTasks task member
  omega

end Dealer
end Lab2
end CloudComputing
