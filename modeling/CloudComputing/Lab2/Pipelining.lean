import CloudComputing.Lab2.Residue

/-!
# Several requests on one connection

`client_process` gives what each `recv` has delivered to `Dealer` and keeps no
rest from one call to the next.  `Dealer` keeps one byte behind a request, so of
what is received at once it answers one request at most.
-/

namespace CloudComputing
namespace Lab2
namespace Dealer

/-- The loop of `client_process` over the chunks that `recv` delivers: the
messages that are enqueued, with so many rounds in each call of `Dealer`.  While
`Dealer` is in its loop nothing is received. -/
def serve
    (files : Files)
    (sockfd : Descriptor)
    (beyond : Bytes)
    (count : Nat) : Bytes → List Bytes → Option (List OutPutTask)
  | _, [] => some []
  | recv_buf, chunk :: chunks =>
      match rounds files sockfd count (dealt recv_buf beyond chunk) with
      | none => none
      | some (false, tasks) => some tasks
      | some (true, tasks) =>
          (serve files sockfd beyond count (received recv_buf chunk)
            chunks).map (tasks ++ ·)

/-- What `Dealer` enqueues for the request alone. -/
def Answered
    (files : Files)
    (sockfd : Descriptor)
    (request : Bytes)
    (task : OutPutTask) : Prop :=
  ∀ count, rounds files sockfd (count + 2) request = some (true, [task])

/-- However a new thread receives the requests, it enqueues these answers. -/
def OneEach
    (files : Files)
    (sockfd : Descriptor)
    (requests : List Bytes)
    (answers : List OutPutTask) : Prop :=
  ∀ beyond chunks, 0 ∈ beyond → 3000 + beyond.length < 2 ^ 31 →
    chunks.flatten = requests.flatten →
    (∀ chunk ∈ chunks, chunk ≠ [] ∧ chunk.length < 3000) →
      ∃ bound, ∀ count, bound ≤ count →
        serve files sockfd beyond count (List.replicate 3000 0) chunks =
          some answers

variable {files : Files} {sockfd : Descriptor}

/-- An answered request is complete. -/
theorem Answered.complete
    {request : Bytes}
    {task : OutPutTask}
    (answered : Answered files sockfd request task) :
    Complete request := by
  by_contra incomplete
  have nothing : messages files sockfd 2 request = some [] :=
    messages_of_not_complete incomplete 2
  rw [messages, answered 0] at nothing
  cases nothing

/-- `Dealer` returns after a request. -/
theorem rounds_of_complete
    {s_buf request : Bytes}
    {entityPos : Nat}
    (http : hasHttp s_buf = true)
    (found : completeRequest s_buf = some (request, entityPos))
    (count : Nat) :
    rounds files sockfd (count + 2) s_buf =
      (answer files sockfd request entityPos).map fun task =>
        (true, [task]) := by
  rw [rounds, round, if_pos http, found]
  dsimp only
  cases answer files sockfd request entityPos with
  | none => rfl
  | some task =>
      dsimp only
      rw [rounds_singleton]
      rfl

/-- The answer is the same whatever follows in memory. -/
theorem Answered.append
    {request : Bytes}
    {task : OutPutTask}
    (answered : Answered files sockfd request task)
    (later : Bytes) :
    Answered files sockfd (request ++ later) task := by
  intro count
  obtain ⟨http, found⟩ := answered.complete
  obtain ⟨⟨whole, entityPos⟩, found⟩ := Option.isSome_iff_exists.mp found
  have alone := answered count
  rw [rounds_of_complete http found] at alone
  rw [rounds_of_complete (hasHttp_append http later)
    (completeRequest_append found later), alone]

theorem Answered.of_answer
    {request whole : Bytes}
    {entityPos : Nat}
    {task : OutPutTask}
    (http : hasHttp request = true)
    (found : completeRequest request = some (whole, entityPos))
    (answered : answer files sockfd whole entityPos = some task) :
    Answered files sockfd request task := by
  intro count
  rw [rounds_of_complete http found, answered]
  rfl

/-- A request is read up to its end, and what follows in memory. -/
theorem dealt_append
    {request : Bytes}
    (noZero : (0 : UInt8) ∉ request)
    (recv_buf beyond later : Bytes) :
    ∃ rest, dealt recv_buf beyond (request ++ later) = request ++ rest := by
  rw [dealt, received, List.append_assoc, List.append_assoc,
    cString_append noZero]
  exact ⟨_, rfl⟩

/-- Of requests that are received together the first one is answered. -/
theorem serve_joined
    {request : Bytes}
    {task : OutPutTask}
    (answered : Answered files sockfd request task)
    (noZero : (0 : UInt8) ∉ request)
    (later beyond recv_buf : Bytes)
    (count : Nat) :
    serve files sockfd beyond (count + 2) recv_buf [request ++ later] =
      some [task] := by
  obtain ⟨rest, text⟩ := dealt_append noZero recv_buf beyond later
  rw [serve, text, answered.append]
  rfl

/-- Requests that are received one by one are answered one by one. -/
theorem serve_one_by_one
    {requests : List Bytes}
    {answers : List OutPutTask}
    (answered : List.Forall₂ (Answered files sockfd) requests answers)
    (noZero : ∀ request ∈ requests, (0 : UInt8) ∉ request)
    (beyond recv_buf : Bytes)
    (count : Nat) :
    serve files sockfd beyond (count + 2) recv_buf requests =
      some answers := by
  induction answered generalizing recv_buf with
  | nil => rfl
  | @cons request task requests answers first others inductionHypothesis =>
      obtain ⟨later, text⟩ :=
        dealt_append (noZero request (by simp)) recv_buf beyond []
      rw [List.append_nil] at text
      have rest := inductionHypothesis
        (fun other member => noZero other (List.mem_cons_of_mem _ member))
        (received recv_buf request)
      rw [serve, text, first.append]
      dsimp only
      rw [rest]
      rfl

/-- Nothing is enqueued for requests that are received byte by byte. -/
theorem serve_bytes
    {bytes : Bytes}
    (noZero : (0 : UInt8) ∉ bytes)
    (beyond : Bytes)
    {recv_buf : Bytes}
    (zeros : recv_buf.drop 1 = List.replicate 2999 0)
    (count : Nat) :
    serve files sockfd beyond (count + 1) recv_buf
      (bytes.map fun byte => [byte]) = some [] := by
  induction bytes generalizing recv_buf with
  | nil => rfl
  | cons byte bytes inductionHypothesis =>
      simp only [List.mem_cons, not_or] at noZero
      have text : dealt recv_buf beyond [byte] = [byte] := by
        have alone : (0 : UInt8) ∉ [byte] := by
          simpa using noZero.1
        rw [dealt, received, List.length_singleton, zeros, List.append_assoc,
          List.replicate_succ]
        exact cString_ended alone (List.replicate 2998 0 ++ beyond)
      have rest : serve files sockfd beyond (count + 1)
          (received recv_buf [byte]) (bytes.map fun byte => [byte]) =
            some [] :=
        inductionHypothesis noZero.2 zeros
      rw [List.map_cons, serve, text, rounds_singleton]
      dsimp only
      rw [rest]
      rfl

/-- Only of no request at all every way to receive them is answered.  Requests
that are received one by one are answered in any case. -/
theorem oneEach_iff
    {requests : List Bytes}
    {answers : List OutPutTask}
    (noZero : ∀ request ∈ requests, (0 : UInt8) ∉ request)
    (answered : List.Forall₂ (Answered files sockfd) requests answers) :
    (OneEach files sockfd requests answers ↔ requests = []) ∧
      ∀ beyond recv_buf count,
        serve files sockfd beyond (count + 2) recv_buf requests =
          some answers := by
  refine ⟨⟨?_, ?_⟩, ?_⟩
  · intro oneEach
    have single : ∀ chunk ∈ requests.flatten.map (fun byte => [byte]),
        chunk ≠ [] ∧ chunk.length < 3000 := by
      intro chunk member
      obtain ⟨byte, _, rfl⟩ := List.mem_map.mp member
      exact ⟨List.cons_ne_nil byte [], by simp⟩
    obtain ⟨bound, all⟩ := oneEach [0] _ (by simp) (by simp)
      (by rw [← List.flatMap_def, List.flatMap_singleton']) single
    have served := all (bound + 1) (by omega)
    have absent : (0 : UInt8) ∉ requests.flatten := by
      intro member
      obtain ⟨request, listed, inside⟩ := List.mem_flatten.mp member
      exact noZero request listed inside
    rw [serve_bytes absent [0] (by rw [List.drop_replicate])] at served
    obtain rfl : [] = answers := Option.some.inj served
    exact List.forall₂_nil_right_iff.mp answered
  · rintro rfl beyond chunks _ _ same whole
    obtain rfl := List.forall₂_nil_left_iff.mp answered
    have nothing : chunks = [] := by
      cases chunks with
      | nil => rfl
      | cons chunk chunks =>
          have empty : chunk = [] :=
            (List.append_eq_nil_iff.mp same).1
          exact absurd empty (whole chunk (by simp)).1
    rw [nothing]
    exact ⟨0, fun _ _ => rfl⟩
  · intro beyond recv_buf count
    exact serve_one_by_one answered noZero beyond recv_buf count

/-- A GET request, and one with another method. -/
def getAndPut : List Bytes :=
  [str "GET /a HTTP/1.1\r\n\r\n", str "PUT /a HTTP/1.1\r\n\r\n"]

/-- Their answers, where no file exists. -/
def getAndPutAnswers : List OutPutTask :=
  [errorDealer (str "GET") (str "/a") ⟨4, 0⟩,
    errorDealer (str "PUT") [] ⟨4, 0⟩]

theorem getAndPut_answered :
    List.Forall₂ (Answered (fun _ => none) ⟨4, 0⟩) getAndPut
      getAndPutAnswers := by
  refine .cons ?_ (.cons ?_ .nil)
  · have found : completeRequest (str "GET /a HTTP/1.1\r\n\r\n") =
        some (str "GET /a HTTP/1.1\r\n\r\n", 19) := by decide
    exact Answered.of_answer (by decide) found (by decide +kernel)
  · have found : completeRequest (str "PUT /a HTTP/1.1\r\n\r\n") =
        some (str "PUT /a HTTP/1.1\r\n\r\n", 19) := by decide
    exact Answered.of_answer (by decide) found (by decide +kernel)

theorem oneEach_iff_getAndPut :
    ¬ OneEach (fun _ => none) ⟨4, 0⟩ getAndPut getAndPutAnswers ∧
      serve (fun _ => none) ⟨4, 0⟩ [0] 2 [] getAndPut =
        some getAndPutAnswers := by
  obtain ⟨never, each⟩ := oneEach_iff (by decide) getAndPut_answered
  exact ⟨fun oneEach => absurd (never.mp oneEach) (by decide), each [0] [] 0⟩

/-- When both requests are received at once, the second one gets no answer. -/
theorem serve_loses :
    ¬ ∀ files sockfd requests answers,
      (∀ request ∈ requests, (0 : UInt8) ∉ request) →
      List.Forall₂ (Answered files sockfd) requests answers →
        OneEach files sockfd requests answers := by
  intro oneEach
  obtain ⟨bound, all⟩ := oneEach _ _ _ _ (by decide) getAndPut_answered [0]
    [getAndPut.flatten] (by decide) (by decide) (by decide) (by decide)
  have served := all (bound + 2) (by omega)
  cases getAndPut_answered with
  | cons first _ =>
      have joined := serve_joined first (by decide)
        (str "PUT /a HTTP/1.1\r\n\r\n") [0] (List.replicate 3000 0) bound
      change serve _ _ _ _ _ [getAndPut.flatten] = _ at joined
      rw [joined] at served
      cases served

end Dealer
end Lab2
end CloudComputing
