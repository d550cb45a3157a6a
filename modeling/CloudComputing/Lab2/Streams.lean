import CloudComputing.Lib.Http
import CloudComputing.Lab2.Lengths
import CloudComputing.Lab2.Responses

/-!
# What the clients read

The output thread writes the messages one after the other, each of type 0 with
its file behind it.  A client finds the responses in these bytes by the lengths
in their headers.  Whatever clients put into their methods, URLs and forms, each
of them finds one response for each message, with the entity that it was given,
as long as no URL names a directory or a file that is too large for one call of
`sendfile`.
-/

namespace CloudComputing
namespace Lab2

open Decimal Http RingBuffer Dealer

/-! ## Messages and responses -/

/-- The contents of the regular files.  `open` also finds directories, which
have a size and nothing that can be sent. -/
abbrev Contents := Bytes → Option Bytes

/-- What one call of `sendfile` sends at most. -/
def maxSendfile : Nat := 0x7ffff000

/-- What `sendfile` sends of what `open` has found. -/
def sentFile (contents : Contents) (path : Bytes) : Bytes :=
  ((contents path).getD []).take maxSendfile

/-- The bytes of a message: `sprintf` and `strlen` stop at a zero, and behind a
message of type 0 its file is sent. -/
def wire (contents : Contents) (task : OutPutTask) : Bytes :=
  cString task.message ++
    if task.type = 0 then sentFile contents task.filePath else []

/-- The entity of `Post_dealer`. -/
def formEntity (name ID : Bytes) : Bytes :=
  str "<html><title>POST Method</title><body bgcolor=ffffff>\nYour Name: " ++
    name ++ str "\nID: " ++ ID ++
    str "\n<hr><em>Http Web server</em>\n</body></html>\n"

/-- The entities of `Error_dealer`. -/
def methodEntity (method : Bytes) : Bytes :=
  str "<htmL><title>501 Not Implemented</title><body bgcolor=ffffff>\n Not Implemented\n<p>Does not implement this method: " ++
    method ++ str "\n,<hr><em>HTTP Web Server </em>\n</body></html>\n"

def urlEntity (url : Bytes) : Bytes :=
  str "<html><title>GET 404 Not Found</title><body bgcolor=ffffff>\n Not Found\n<p>Couldn't find this file: " ++
    url ++ str "\n<hr><em>HTTP Web Sever</em>\n</body></html>\n"

def postEntity : Bytes :=
  str "<html><title>POST 404 Not Found</title><body bgcolor=ffffff>\n Not Found\n<hr><em>HTTP Web Sever</em>\n</body></html>\n"

/-- The response that a message stands for. -/
inductive Conveys (contents : Contents) : OutPutTask → Response → Prop
  | page
      (files : Files)
      (method url file : Bytes)
      (sockfd : Descriptor)
      (found : files (getPath url) = some file.length)
      (stored : contents (getPath url) = some file) :
      Conveys contents (getDealer files method url sockfd)
        ⟨str "Http/1.1 200 OK", file⟩
  | form (name ID : Bytes) (sockfd : Descriptor) :
      Conveys contents (postDealer name ID sockfd)
        ⟨str "HTTP/1.1 200 OK", formEntity name ID⟩
  | noMethod
      (method url : Bytes)
      (sockfd : Descriptor)
      (other : method ≠ str "GET" ∧ method ≠ str "POST") :
      Conveys contents (errorDealer method url sockfd)
        ⟨str "Http/1.1 501 Not Implemented", methodEntity method⟩
  | noFile (url : Bytes) (sockfd : Descriptor) :
      Conveys contents (errorDealer (str "GET") url sockfd)
        ⟨str "Http/1.1 404 Not Found", urlEntity url⟩
  | noForm (url : Bytes) (sockfd : Descriptor) :
      Conveys contents (errorDealer (str "POST") url sockfd)
        ⟨str "Http/1.1 404 Not Found", postEntity⟩

/-- The client finds the response that the message stands for, whatever
follows. -/
structure Readable (contents : Contents) (task : OutPutTask) : Prop where
  begins : wire contents task ≠ []
  response : ∃ response, Conveys contents task response ∧
    ∀ rest, readResponse (wire contents task ++ rest) = some (response, rest)

/-! ## Headers -/

theorem head_of_method :
    Head (str "Http/1.1 501 Not Implemented\r\nContent-type: text/html\r\nContent-Length: ")
      emptyLine where
  open_before := by decide +kernel
  status := by decide +kernel
  field := by decide +kernel
  closed := by decide +kernel
  ends := .cons (by decide) _

theorem head_of_missing :
    Head (str "Http/1.1 404 Not Found\r\nContent-type: text/html\r\nContent-Length: ")
      emptyLine where
  open_before := by decide +kernel
  status := by decide +kernel
  field := by decide +kernel
  closed := by decide +kernel
  ends := .cons (by decide) _

theorem head_of_form :
    Head (str "HTTP/1.1 200 OK\r\ncontent-type: text/html\r\ncontent-length: ")
      emptyLine where
  open_before := by decide +kernel
  status := by decide +kernel
  field := by decide +kernel
  closed := by decide +kernel
  ends := .cons (by decide) _

theorem head_of_page :
    Head (str "Http/1.1 200 OK\r\nContent-Length: ")
      (str "\r\nContent-Type: text/html\r\n\r\n") where
  open_before := by decide +kernel
  status := by decide +kernel
  field := by decide +kernel
  closed := by decide +kernel
  ends := .cons (by decide) _

/-- A text without a zero is its own C string. -/
theorem cString_of_not_mem
    {text : Bytes}
    (noZero : (0 : UInt8) ∉ text) :
    cString text = text := by
  have whole := cString_append noZero []
  rwa [List.append_nil, show cString [] = [] from rfl, List.append_nil]
    at whole

theorem zero_not_mem_toDecimal (number : Nat) :
    (0 : UInt8) ∉ toDecimal number :=
  not_mem_toDecimal (by decide)

/-- A message with the length of its entity is a response. -/
theorem readable_withLength
    {contents : Contents}
    {before entity : Bytes}
    {task : OutPutTask}
    (isHead : Head before emptyLine)
    (noFile : task.type ≠ 0)
    (message : task.message = withLength before entity emptyLine)
    (noZero : (0 : UInt8) ∉ before ∧ (0 : UInt8) ∉ entity)
    (small : entity.length < 2 ^ 31)
    (conveys : Conveys contents task ⟨before.takeWhile (· ≠ 13), entity⟩) :
    Readable contents task := by
  have printed : task.message =
      before ++ toDecimal entity.length ++ emptyLine ++ entity := by
    rw [message, withLength, toInt32_of_lt small, intToDecimal_natCast]
  have clean : (0 : UInt8) ∉ task.message := by
    have emptyClean : (0 : UInt8) ∉ emptyLine := by decide
    rw [printed]
    simp only [List.mem_append, not_or]
    exact ⟨⟨⟨noZero.1, zero_not_mem_toDecimal _⟩, emptyClean⟩, noZero.2⟩
  have bytes : wire contents task =
      before ++ toDecimal entity.length ++ emptyLine ++ entity := by
    rw [wire, if_neg noFile, List.append_nil, cString_of_not_mem clean,
      printed]
  refine ⟨?_, _, conveys, ?_⟩
  · rw [bytes]
    simp [emptyLine, str]
  · intro rest
    rw [bytes]
    exact isHead.readResponse (by omega) rest

/-- What is echoed of a request is a short text without a zero. -/
structure Echoed (text : Bytes) : Prop where
  noZero : (0 : UInt8) ∉ text
  small : text.length < 2 ^ 29

theorem Echoed.part
    {text part : Bytes}
    (echoed : Echoed text)
    (inside : part <:+: text) :
    Echoed part where
  noZero := fun member => echoed.noZero (inside.subset member)
  small := Nat.lt_of_le_of_lt inside.length_le echoed.small

variable {contents : Contents} {sockfd : Descriptor}

theorem readable_form
    {name ID : Bytes}
    (isName : Echoed name)
    (isID : Echoed ID)
    (sockfd : Descriptor) :
    Readable contents (postDealer name ID sockfd) := by
  have noZero : (0 : UInt8) ∉ formEntity name ID := by
    unfold formEntity
    simp only [List.mem_append, not_or]
    refine ⟨⟨⟨⟨?_, isName.noZero⟩, ?_⟩, isID.noZero⟩, ?_⟩ <;> decide +kernel
  have small : (formEntity name ID).length < 2 ^ 31 := by
    have nameSmall := isName.small
    have idSmall := isID.small
    have length : (formEntity name ID).length =
        115 + (name.length + ID.length) := by
      simp [formEntity, str]
      omega
    omega
  exact readable_withLength head_of_form Int.one_ne_zero rfl
    ⟨by decide +kernel, noZero⟩ small (.form name ID sockfd)

set_option maxRecDepth 2000 in
theorem readable_noMethod
    {method : Bytes}
    (isMethod : Echoed method)
    (other : method ≠ str "GET" ∧ method ≠ str "POST")
    (url : Bytes)
    (sockfd : Descriptor) :
    Readable contents (errorDealer method url sockfd) := by
  have noZero : (0 : UInt8) ∉ methodEntity method := by
    unfold methodEntity
    simp only [List.mem_append, not_or]
    refine ⟨⟨?_, isMethod.noZero⟩, ?_⟩ <;> decide +kernel
  have small : (methodEntity method).length < 2 ^ 31 := by
    have methodSmall := isMethod.small
    have length : (methodEntity method).length = 161 + method.length := by
      simp [methodEntity, str]
      omega
    omega
  exact readable_withLength head_of_method Int.one_ne_zero (if_pos other)
    ⟨by decide +kernel, noZero⟩ small (.noMethod method url sockfd other)

theorem readable_noFile
    {url : Bytes}
    (isUrl : Echoed url)
    (sockfd : Descriptor) :
    Readable contents (errorDealer (str "GET") url sockfd) := by
  have noZero : (0 : UInt8) ∉ urlEntity url := by
    unfold urlEntity
    simp only [List.mem_append, not_or]
    refine ⟨⟨?_, isUrl.noZero⟩, ?_⟩ <;> decide +kernel
  have small : (urlEntity url).length < 2 ^ 31 := by
    have urlSmall := isUrl.small
    have length : (urlEntity url).length = 143 + url.length := by
      simp [urlEntity, str]
      omega
    omega
  have message : errorMessage (str "GET") url = withLength
      (str "Http/1.1 404 Not Found\r\nContent-type: text/html\r\nContent-Length: ")
      (urlEntity url) emptyLine := by
    unfold errorMessage
    rw [if_neg (by decide), if_pos rfl]
    rfl
  exact readable_withLength head_of_missing Int.one_ne_zero message
    ⟨by decide +kernel, noZero⟩ small (.noFile url sockfd)

theorem readable_noForm
    (url : Bytes)
    (sockfd : Descriptor) :
    Readable contents (errorDealer (str "POST") url sockfd) := by
  have message : errorMessage (str "POST") url = withLength
      (str "Http/1.1 404 Not Found\r\nContent-type: text/html\r\nContent-Length: ")
      postEntity emptyLine := by
    unfold errorMessage
    rw [if_neg (by decide), if_neg (by decide)]
    rfl
  exact readable_withLength head_of_missing Int.one_ne_zero message
    ⟨by decide +kernel, by decide +kernel⟩ (by decide +kernel)
    (.noForm url sockfd)

/-- If `open` finds something under this path, it is a regular file of this
size, which one call of `sendfile` can send. -/
def Serves (files : Files) (contents : Contents) (path : Bytes) : Prop :=
  ∀ size, files path = some size →
    ∃ file, contents path = some file ∧ size = file.length ∧
      file.length ≤ maxSendfile

theorem readable_get
    {files : Files}
    {url : Bytes}
    (serves : Serves files contents (getPath url))
    (isUrl : Echoed url)
    (sockfd : Descriptor) :
    Readable contents (getDealer files (str "GET") url sockfd) := by
  cases found : files (getPath url) with
  | none =>
      have missing : getDealer files (str "GET") url sockfd =
          errorDealer (str "GET") url sockfd := by
        rw [getDealer, found]
      rw [missing]
      exact readable_noFile isUrl sockfd
  | some size =>
      obtain ⟨file, stored, rfl, fits⟩ := serves size found
      have small : file.length < 2 ^ 31 := by
        unfold maxSendfile at fits
        omega
      have message : (getDealer files (str "GET") url sockfd).message =
          str "Http/1.1 200 OK\r\nContent-Length: " ++
            toDecimal file.length ++
            str "\r\nContent-Type: text/html\r\n\r\n" := by
        rw [getDealer, found]
        dsimp only
        rw [toInt32_of_lt small, intToDecimal_natCast]
      have isFile : (getDealer files (str "GET") url sockfd).type = 0 ∧
          (getDealer files (str "GET") url sockfd).filePath =
            getPath url := by
        rw [getDealer, found]
        exact ⟨rfl, rfl⟩
      have clean : (0 : UInt8) ∉
          (getDealer files (str "GET") url sockfd).message := by
        rw [message]
        simp only [List.mem_append, not_or]
        exact ⟨⟨by decide +kernel, zero_not_mem_toDecimal _⟩,
          by decide +kernel⟩
      have isSent : sentFile contents (getPath url) = file := by
        rw [sentFile, stored, Option.getD_some, List.take_of_length_le fits]
      have bytes : wire contents (getDealer files (str "GET") url sockfd) =
          str "Http/1.1 200 OK\r\nContent-Length: " ++
            toDecimal file.length ++
            str "\r\nContent-Type: text/html\r\n\r\n" ++ file := by
        rw [wire, cString_of_not_mem clean, message, if_pos isFile.1,
          isFile.2, isSent]
      refine ⟨?_, _, .page files (str "GET") url file sockfd found stored, ?_⟩
      · rw [bytes]
        simp [str]
      · intro rest
        rw [bytes]
        exact head_of_page.readResponse (by omega) rest

/-! ## Requests and answers -/

theorem substr_inside
    {text part : Bytes}
    {start : Nat}
    {length : Int}
    (isPart : Bytes.substr text start length = some part) :
    part <:+: text := by
  unfold Bytes.substr at isPart
  split at isPart
  · cases isPart
  · split at isPart
    · cases isPart
      exact (List.drop_suffix start text).isInfix
    · cases isPart
      exact (List.take_prefix _ _).isInfix.trans
        (List.drop_suffix start text).isInfix

theorem fields_inside
    {entity name ID : Bytes}
    (found : fields entity = some (name, ID)) :
    name <:+: entity ∧ ID <:+: entity := by
  unfold fields at found
  obtain ⟨namePos, _, found⟩ := Option.bind_eq_some_iff.mp found
  obtain ⟨idPos, _, found⟩ := Option.bind_eq_some_iff.mp found
  split at found
  · cases found
  · obtain ⟨name', isName, found⟩ := Option.bind_eq_some_iff.mp found
    obtain ⟨ID', isID, found⟩ := Option.bind_eq_some_iff.mp found
    cases found
    refine ⟨substr_inside isName, ?_⟩
    unfold Bytes.substrFrom at isID
    split at isID
    · cases isID
    · cases isID
      exact (List.drop_suffix _ _).isInfix

/-- Whatever a request contains, its answer can be read, if it does not open
something else than a file. -/
theorem answer_readable
    {files : Files}
    {request : Bytes}
    (isRequest : Echoed request)
    {entityPos : Nat}
    {task : OutPutTask}
    (serves : task.type = 0 → Serves files contents task.filePath)
    (answered : answer files sockfd request entityPos = some task) :
    Readable contents task := by
  unfold answer at answered
  obtain ⟨⟨method, rest⟩, isMethod, answered⟩ :=
    Option.bind_eq_some_iff.mp answered
  have split := (word_eq_some isMethod).1
  have methodInside : method <:+: request := by
    rw [split]
    exact (List.prefix_append _ _).isInfix
  have restInside : rest <:+: request := by
    rw [split]
    exact (List.suffix_cons 32 rest).isInfix.trans
      (List.suffix_append method (32 :: rest)).isInfix
  dsimp only at answered
  split at answered
  · rename_i other
    cases answered
    exact readable_noMethod (isRequest.part methodInside) other [] sockfd
  · rename_i known
    obtain ⟨⟨url, later⟩, isUrl, answered⟩ :=
      Option.bind_eq_some_iff.mp answered
    have urlInside : url <:+: request := by
      have inRest : url <:+: rest := by
        rw [(word_eq_some isUrl).1]
        exact (List.prefix_append _ _).isInfix
      exact inRest.trans restInside
    dsimp only at answered
    split at answered
    · rename_i isGet
      cases answered
      rw [isGet]
      apply readable_get _ (isRequest.part urlInside) sockfd
      intro size found
      have isFile : (getDealer files method url sockfd).type = 0 ∧
          (getDealer files method url sockfd).filePath = getPath url := by
        rw [getDealer, found]
        exact ⟨rfl, rfl⟩
      have serves := serves isFile.1
      rw [isFile.2] at serves
      exact serves size found
    · rename_i notGet
      have isPost : method = str "POST" := by
        by_contra notPost
        exact known ⟨notGet, notPost⟩
      split at answered
      · cases answered
        rw [isPost]
        exact readable_noForm url sockfd
      · rcases postShow_eq_some answered with ⟨name, ID, found, rfl⟩ | ⟨_, rfl⟩
        · obtain ⟨nameInside, idInside⟩ := fields_inside found
          have entityInside : request.drop entityPos <:+: request :=
            (List.drop_suffix _ _).isInfix
          exact readable_form
            (isRequest.part (nameInside.trans entityInside))
            (isRequest.part (idInside.trans entityInside)) sockfd
        · rw [isPost]
          exact readable_noForm url sockfd

theorem round_readable
    {files : Files}
    {s_buf rest : Bytes}
    (isText : hasHttp s_buf = true → Echoed s_buf)
    {task : OutPutTask}
    (serves : task.type = 0 → Serves files contents task.filePath)
    (answered : Dealer.round files sockfd s_buf = .answered task rest) :
    Readable contents task := by
  unfold Dealer.round at answered
  split at answered
  · rename_i http
    split at answered
    · cases answered
    · rename_i request entityPos complete
      split at answered
      · cases answered
      · rename_i found
        cases answered
        have inside := (completeRequest_bounds complete).1.isInfix
        exact answer_readable ((isText http).part inside) serves found
  · cases answered

/-- Messages that can be read one by one can be read one after the other. -/
theorem exists_responses
    {tasks : List OutPutTask}
    (readable : ∀ task ∈ tasks, Readable contents task) :
    ∃ responses, List.Forall₂ (Conveys contents) tasks responses ∧
      readResponses responses.length (tasks.flatMap (wire contents)) =
        some responses := by
  have each : ∃ responses, List.Forall₂ (Conveys contents) tasks responses ∧
      List.Forall₂ (fun chunk response => chunk ≠ [] ∧
        ∀ rest, readResponse (chunk ++ rest) = some (response, rest))
          (tasks.map (wire contents)) responses := by
    induction tasks with
    | nil => exact ⟨[], .nil, .nil⟩
    | cons task tasks inductionHypothesis =>
        obtain ⟨responses, conveys, reads⟩ := inductionHypothesis
          fun other member => readable other (List.mem_cons_of_mem task member)
        have first := readable task List.mem_cons_self
        obtain ⟨response, isResponse, isRead⟩ := first.response
        exact ⟨response :: responses, .cons isResponse conveys,
          .cons ⟨first.begins, isRead⟩ reads⟩
  obtain ⟨responses, conveys, reads⟩ := each
  refine ⟨responses, conveys, ?_⟩
  have all := readResponses_flatten reads
  rwa [reads.length_eq, ← List.flatMap_def] at all

/-! ## The server -/

namespace Server

variable {n : Nat} {s s' : Server n}

/-- What `Get_dealer` opens is a regular file, the files keep their contents and
the memory behind `recv_buf` is small; no connection is closed while a message
for it is on its way. -/
structure Regular
    (contents : Contents)
    (s : Server n)
    (event : ServerEvent n) : Prop where
  settled : Settled s event
  files : ∀ id files, event = .deal id files →
    ∀ connfd s_buf task rest, s.worker id = .dealing connfd s_buf →
      Dealer.round files connfd s_buf = .answered task rest →
        task.type = 0 → Serves files contents task.filePath
  memory : ∀ id bytes beyond, event = .recv id bytes beyond →
    3000 + beyond.length < 2 ^ 29
  opens : ∀ found, event = .openFile found → found = true

/-- The messages can be read, and so will be those that are still made. -/
structure Telling (contents : Contents) (s : Server n) : Prop where
  buffers : ∀ id, (s.recv_buf id).length = 3000
  dealing : ∀ id connfd s_buf, s.worker id = .dealing connfd s_buf →
    hasHttp s_buf = true → Echoed s_buf
  offering : ∀ id task,
    (s.opt.phase (.worker id)).offering = some task → Readable contents task
  put : ∀ task ∈ s.opt.put, Readable contents task

theorem Telling.init
    (contents : Contents)
    (connections : Nat → Descriptor)
    (opt : Nat → OutPutTask) :
    Telling contents (Server.init n connections opt) where
  buffers := fun _ => List.length_replicate
  dealing := by
    intro id connfd s_buf absurd
    cases absurd
  offering := by
    intro id task absurd
    cases absurd
  put := by
    intro task absurd
    cases absurd

/-- A step that makes no message and gives no request to a thread. -/
theorem Telling.transfer
    (telling : Telling contents s)
    (buffers : s'.recv_buf = s.recv_buf)
    (dealing : ∀ id connfd s_buf, s'.worker id = .dealing connfd s_buf →
      s.worker id = .dealing connfd s_buf)
    (phase : ∀ id, s'.opt.phase (.worker id) = s.opt.phase (.worker id))
    (put : s'.opt.put = s.opt.put) :
    Telling contents s' where
  buffers := by
    rw [buffers]
    exact telling.buffers
  dealing := fun id connfd s_buf found =>
    telling.dealing id connfd s_buf (dealing id connfd s_buf found)
  offering := by
    intro id task
    rw [phase]
    exact telling.offering id task
  put := by
    rw [put]
    exact telling.put

/-- A thread of the pool gets somewhere else than into `Dealer`. -/
theorem dealing_setWorker
    {id : Fin n}
    {worker : Worker}
    (elsewhere : ∀ connfd s_buf, worker ≠ .dealing connfd s_buf) :
    ∀ other connfd s_buf,
      (s.setWorker id worker).worker other = .dealing connfd s_buf →
        s.worker other = .dealing connfd s_buf := by
  intro other connfd s_buf found
  change Function.update s.worker id worker other = _ at found
  rw [Function.update_apply] at found
  split at found
  · exact absurd found (elsewhere connfd s_buf)
  · exact found

theorem Telling.useOpt
    (telling : Telling contents s)
    (roles : Roles s)
    {thread : Thread n}
    {opt : State (Thread n) OutPutTask}
    (moved : Moved optLayout size s.opt thread opt) :
    Telling contents { s with opt := opt } where
  buffers := telling.buffers
  dealing := telling.dealing
  offering := fun id task offered =>
    telling.offering id task (moved.offering_of_offering offered)
  put := by
    intro task member
    change task ∈ opt.put at member
    cases moved.effect with
    | quiet put taken offered acquired =>
        rw [put] at member
        exact telling.put task member
    | get item user put taken offered nothing acquired =>
        rw [put] at member
        exact telling.put task member
    | put item user put taken offered nothing acquired =>
        rw [put, List.mem_append, List.mem_singleton] at member
        rcases member with before | rfl
        · exact telling.put task before
        · cases thread with
          | accepting =>
              rw [roles.noAccepting] at user
              cases user
          | worker id =>
              exact telling.offering id task (offering_of_offered offered)
          | output => cases (roles.output .put user).1

theorem Telling.recv
    (telling : Telling contents s)
    {id : Fin n}
    {bytes beyond : Bytes}
    (small : 3000 + beyond.length < 2 ^ 29)
    (taken : s.step (.recv id bytes beyond) = some s') :
    Telling contents s' := by
  simp only [Server.step] at taken
  split at taken
  · rename_i connfd receiving
    split at taken
    · cases taken
    · rename_i fits
      cases taken
      have length : (received (s.recv_buf id) bytes).length = 3000 := by
        have full := telling.buffers id
        rw [not_or] at fits
        unfold received
        rw [List.length_append, List.length_drop, full]
        omega
      refine ⟨?_, ?_, telling.offering, telling.put⟩
      · intro other
        change (Function.update s.recv_buf id _ other).length = 3000
        rw [Function.update_apply]
        split
        · exact length
        · exact telling.buffers other
      · intro other connfd' s_buf found http
        change Function.update s.worker id _ other = _ at found
        rw [Function.update_apply] at found
        split at found
        · cases found
          refine ⟨not_mem_cString _, ?_⟩
          have bound : (dealt (s.recv_buf id) beyond bytes).length ≤
              (received (s.recv_buf id) bytes ++ beyond).length :=
            (List.takeWhile_prefix _).length_le
          rw [List.length_append, length] at bound
          omega
        · exact telling.dealing other connfd' s_buf found http
  · cases taken

theorem Telling.deal
    (telling : Telling contents s)
    {id : Fin n}
    {files : Files}
    (serves : ∀ connfd s_buf task rest, s.worker id = .dealing connfd s_buf →
      Dealer.round files connfd s_buf = .answered task rest →
        task.type = 0 → Serves files contents task.filePath)
    (taken : s.deal id files = some s') :
    Telling contents s' := by
  unfold Server.deal at taken
  split at taken
  · rename_i connfd s_buf result dealing idle
    split at taken
    · cases taken
      exact telling.transfer rfl (dealing_setWorker (by simp)) (fun _ => rfl)
        rfl
    · cases taken
      exact telling
    · cases taken
    · rename_i task rest answered
      obtain ⟨opt, started, rfl⟩ := Option.map_eq_some_iff.mp taken
      obtain ⟨_, rfl⟩ := start_eq_some started
      have readable : Readable contents task :=
        round_readable (telling.dealing id connfd s_buf dealing)
          (serves connfd s_buf task rest dealing answered) answered
      refine ⟨telling.buffers, ?_, ?_, telling.put⟩
      · intro other connfd' s_buf' found http
        change Function.update s.worker id _ other = _ at found
        rw [Function.update_apply] at found
        split at found
        · cases found
          obtain ⟨_, byte, rfl⟩ := round_answered answered
          rw [hasHttp_singleton] at http
          cases http
        · exact telling.dealing other connfd' s_buf' found http
      · intro other task' offered
        change ((s.opt.go (.worker id) (.active .put .enter task)).phase
          (.worker other)).offering = some task' at offered
        rw [State.go_phase, Function.update_apply] at offered
        split at offered
        · cases offered
          exact readable
        · exact telling.offering other task' offered
  · cases taken

theorem Telling.step
    (telling : Telling contents s)
    (roles : Roles s)
    {event : ServerEvent n}
    (regular : Regular contents s event)
    (taken : s.step event = some s') :
    Telling contents s' := by
  cases event with
  | accept =>
      obtain ⟨connections, _, rfl⟩ := Option.map_eq_some_iff.mp taken
      exact telling.transfer rfl (fun _ _ _ found => found) (fun _ => rfl) rfl
  | useConnections thread =>
      obtain ⟨connections, _, rfl⟩ := Option.map_eq_some_iff.mp taken
      exact telling.transfer rfl (fun _ _ _ found => found) (fun _ => rfl) rfl
  | useOpt thread =>
      obtain ⟨opt, moved, rfl⟩ := Option.map_eq_some_iff.mp taken
      exact telling.useOpt roles (moved_of_next moved)
  | getTask id =>
      simp only [Server.step] at taken
      split at taken
      · obtain ⟨connections, _, rfl⟩ := Option.map_eq_some_iff.mp taken
        exact telling.transfer rfl (dealing_setWorker (by simp)) (fun _ => rfl)
          rfl
      · cases taken
  | gotTask id =>
      simp only [Server.step] at taken
      split at taken
      · cases taken
        exact telling.transfer rfl (dealing_setWorker (by simp)) (fun _ => rfl)
          rfl
      · cases taken
  | recv id bytes beyond =>
      exact telling.recv (regular.memory id bytes beyond rfl) taken
  | hangUp id =>
      simp only [Server.step] at taken
      split at taken
      · cases taken
        exact telling.transfer rfl (dealing_setWorker (by simp)) (fun _ => rfl)
          rfl
      · cases taken
  | deal id files => exact telling.deal (regular.files id files rfl) taken
  | getTaskOut =>
      simp only [Server.step] at taken
      split at taken
      · obtain ⟨opt, started, rfl⟩ := Option.map_eq_some_iff.mp taken
        obtain ⟨_, rfl⟩ := start_eq_some started
        refine telling.transfer rfl (fun _ _ _ found => found) ?_ rfl
        intro id
        change (s.opt.go .output _).phase (.worker id) = _
        rw [State.go_phase, Function.update_of_ne (by simp)]
      · cases taken
  | gotTaskOut =>
      simp only [Server.step] at taken
      split at taken
      · cases taken
        exact telling.transfer rfl (fun _ _ _ found => found) (fun _ => rfl)
          rfl
      · cases taken
  | write =>
      change s.write = some s' at taken
      unfold Server.write at taken
      split at taken
      · split at taken
        · cases taken
          exact telling.transfer rfl (fun _ _ _ found => found) (fun _ => rfl)
            rfl
        · cases taken
      · cases taken
  | openFile found =>
      simp only [Server.step] at taken
      split at taken
      · split at taken
        · cases taken
          exact telling.transfer rfl (fun _ _ _ found => found) (fun _ => rfl)
            rfl
        · cases taken
          exact telling.transfer rfl (fun _ _ _ found => found) (fun _ => rfl)
            rfl
      · cases taken
  | sendfile =>
      simp only [Server.step] at taken
      split at taken
      · cases taken
        exact telling.transfer rfl (fun _ _ _ found => found) (fun _ => rfl)
          rfl
      · cases taken

/-! ## The bytes for a client -/

/-- The bytes that a step sends, and what they are sent to. -/
def emits
    (contents : Contents)
    (s : Server n) : ServerEvent n → List (Option Object × Bytes)
  | .write =>
      match s.output with
      | .writing task =>
          [(s.table.lookup task.sockfd.number, cString task.message)]
      | _ => []
  | .sendfile =>
      match s.output with
      | .sending task =>
          [(s.table.lookup task.sockfd.number, sentFile contents task.filePath)]
      | _ => []
  | _ => []

/-- The bytes that a run sends. -/
def emitted
    (contents : Contents) :
    Server n → List (ServerEvent n) → List (Option Object × Bytes)
  | _, [] => []
  | s, event :: events =>
      emits contents s event ++
        match s.step event with
        | some next => emitted contents next events
        | none => []

/-- The bytes that reach a connection. -/
def stream
    (connection : Nat)
    (output : List (Option Object × Bytes)) : Bytes :=
  (output.filter fun sent =>
    sent.1 = some (.connection connection)).flatMap Prod.snd

@[simp] theorem stream_nil (connection : Nat) : stream connection [] = [] := rfl

theorem stream_append
    (connection : Nat)
    (output further : List (Option Object × Bytes)) :
    stream connection (output ++ further) =
      stream connection output ++ stream connection further := by
  unfold stream
  rw [List.filter_append, List.flatMap_append]

theorem stream_singleton
    (connection other : Nat)
    (bytes : Bytes) :
    stream connection [(some (.connection other), bytes)] =
      if other = connection then bytes else [] := by
  unfold stream
  by_cases same : other = connection
  · simp [same]
  · simp [same]

/-- The messages that have been written for a connection. -/
def told (s : Server n) (connection : Nat) : List OutPutTask :=
  (s.written.map Delivery.task).filter fun task =>
    task.sockfd.connection = connection

/-- The file that the output thread has still to send to a connection. -/
def owed
    (contents : Contents)
    (s : Server n)
    (connection : Nat) : Bytes :=
  match s.unsent with
  | some task =>
      if task.sockfd.connection = connection then
        sentFile contents task.filePath
      else []
  | none => []

/-- What a step sends to a connection: messages that are now written, without
the part that is still owed, and with what was owed before. -/
structure Sends
    (contents : Contents)
    (s : Server n)
    (event : ServerEvent n)
    (s' : Server n)
    (connection : Nat) : Prop where
  sends : ∃ tasks, s'.told connection = s.told connection ++ tasks ∧
    owed contents s connection ++ tasks.flatMap (wire contents) =
      stream connection (emits contents s event) ++
        owed contents s' connection

/-- A step that sends nothing and does not change what is owed. -/
theorem Sends.quiet
    {event : ServerEvent n}
    (written : s'.written = s.written)
    (unsent : s'.unsent = s.unsent)
    {connection : Nat}
    (noMessage : event ≠ .write)
    (noFile : event ≠ .sendfile) :
    Sends contents s event s' connection where
  sends := by
    have nothing : emits contents s event = [] := by
      cases event with
      | write => exact absurd rfl noMessage
      | sendfile => exact absurd rfl noFile
      | _ => rfl
    refine ⟨[], ?_, ?_⟩
    · unfold told
      rw [written, List.append_nil]
    · unfold owed
      rw [unsent, nothing, stream_nil, List.flatMap_nil, List.append_nil,
        List.nil_append]

theorem sends_write
    (inv : Inv s)
    (taken : s.write = some s')
    (connection : Nat) :
    Sends contents s .write s' connection := by
  unfold Server.write at taken
  split at taken
  · rename_i task writing
    split at taken
    · cases taken
      have alive : Alive s.table task.sockfd := by
        apply inv.messages.unwritten
        simp [Server.unwritten, writing]
      have emit : emits contents s .write =
          [(some (.connection task.sockfd.connection),
            cString task.message)] := by
        simp only [emits, writing]
        rw [alive]
      have before : owed contents s connection = [] := by
        simp [owed, Server.unsent, writing]
      refine ⟨[task].filter fun task =>
        task.sockfd.connection = connection, ?_, ?_⟩
      · unfold told
        rw [List.map_append, List.filter_append]
        rfl
      · rw [before, emit, stream_singleton]
        by_cases own : task.sockfd.connection = connection
        · by_cases isFile : task.type = 0
          · simp [owed, Server.unsent, wire, own, isFile]
          · simp [owed, Server.unsent, wire, own, isFile]
        · by_cases isFile : task.type = 0
          · simp [owed, Server.unsent, own, isFile]
          · simp [owed, Server.unsent, own, isFile]
    · cases taken
  · cases taken

theorem sends_openFile
    (taken : s.step (.openFile true) = some s')
    (connection : Nat) :
    Sends contents s (.openFile true) s' connection := by
  simp only [Server.step] at taken
  split at taken
  · rename_i task opening
    cases taken
    refine .quiet (by rfl) ?_ (by simp) (by simp)
    simp [Server.unsent, opening]
  · cases taken

theorem sends_sendfile
    (inv : Inv s)
    (taken : s.step .sendfile = some s')
    (connection : Nat) :
    Sends contents s .sendfile s' connection := by
  simp only [Server.step] at taken
  split at taken
  · rename_i task sending
    cases taken
    have alive : Alive s.table task.sockfd := by
      apply inv.messages.unsent
      simp [Server.unsent, sending]
    have emit : emits contents s .sendfile =
        [(some (.connection task.sockfd.connection),
          sentFile contents task.filePath)] := by
      simp only [emits, sending]
      rw [alive]
    refine ⟨[], ?_, ?_⟩
    · unfold told
      rw [List.append_nil]
    · rw [emit, stream_singleton]
      simp [owed, Server.unsent, sending]
  · cases taken

theorem Inv.sends
    (inv : Inv s)
    {event : ServerEvent n}
    (regular : Regular contents s event)
    (taken : s.step event = some s')
    (connection : Nat) :
    Sends contents s event s' connection := by
  cases event with
  | accept =>
      obtain ⟨connections, _, rfl⟩ := Option.map_eq_some_iff.mp taken
      exact .quiet (by rfl) (by rfl) (by simp) (by simp)
  | useConnections thread =>
      obtain ⟨connections, _, rfl⟩ := Option.map_eq_some_iff.mp taken
      exact .quiet (by rfl) (by rfl) (by simp) (by simp)
  | useOpt thread =>
      obtain ⟨opt, _, rfl⟩ := Option.map_eq_some_iff.mp taken
      exact .quiet (by rfl) (by rfl) (by simp) (by simp)
  | getTask id =>
      simp only [Server.step] at taken
      split at taken
      · obtain ⟨connections, _, rfl⟩ := Option.map_eq_some_iff.mp taken
        exact .quiet (by rfl) (by rfl) (by simp) (by simp)
      · cases taken
  | gotTask id =>
      simp only [Server.step] at taken
      split at taken
      · cases taken
        exact .quiet (by rfl) (by rfl) (by simp) (by simp)
      · cases taken
  | recv id bytes beyond =>
      simp only [Server.step] at taken
      split at taken
      · split at taken
        · cases taken
        · cases taken
          exact .quiet (by rfl) (by rfl) (by simp) (by simp)
      · cases taken
  | hangUp id =>
      simp only [Server.step] at taken
      split at taken
      · cases taken
        exact .quiet (by rfl) (by rfl) (by simp) (by simp)
      · cases taken
  | deal id files =>
      change s.deal id files = some s' at taken
      unfold Server.deal at taken
      split at taken
      · split at taken
        · cases taken
          exact .quiet (by rfl) (by rfl) (by simp) (by simp)
        · cases taken
          exact .quiet (by rfl) (by rfl) (by simp) (by simp)
        · cases taken
        · obtain ⟨opt, _, rfl⟩ := Option.map_eq_some_iff.mp taken
          exact .quiet (by rfl) (by rfl) (by simp) (by simp)
      · cases taken
  | getTaskOut =>
      simp only [Server.step] at taken
      split at taken
      · rename_i ready
        obtain ⟨opt, _, rfl⟩ := Option.map_eq_some_iff.mp taken
        refine .quiet (by rfl) ?_ (by simp) (by simp)
        simp [Server.unsent, ready]
      · cases taken
  | gotTaskOut =>
      simp only [Server.step] at taken
      split at taken
      · rename_i task fetching idle
        cases taken
        refine .quiet (by rfl) ?_ (by simp) (by simp)
        simp [Server.unsent, fetching]
      · cases taken
  | write => exact sends_write inv taken connection
  | openFile found =>
      obtain rfl := regular.opens found rfl
      exact sends_openFile taken connection
  | sendfile => exact sends_sendfile inv taken connection

/-- What a run sends to a connection. -/
theorem Inv.sends_run
    (inv : Inv s)
    {events : List (ServerEvent n)}
    (run : Run Server.step (Regular contents) s events s')
    (connection : Nat) :
    ∃ tasks, s'.told connection = s.told connection ++ tasks ∧
      owed contents s connection ++ tasks.flatMap (wire contents) =
        stream connection (emitted contents s events) ++
          owed contents s' connection := by
  induction run with
  | nil => exact ⟨[], by simp, by simp [emitted]⟩
  | @cons state next last event events regular taken _ inductionHypothesis =>
      obtain ⟨first, isTold, sent⟩ := (inv.sends regular taken connection).sends
      obtain ⟨later, isTold', sent'⟩ :=
        inductionHypothesis (inv.step regular.settled taken)
      refine ⟨first ++ later, ?_, ?_⟩
      · rw [isTold', isTold, List.append_assoc]
      · rw [emitted, taken, stream_append, List.flatMap_append,
          ← List.append_assoc, sent, List.append_assoc, sent',
          ← List.append_assoc]

/-- Every client reads its responses: as long as no connection is closed while a
message for it is on its way, no request opens something else than a regular
file that `sendfile` can send, and the files stay as they are, the bytes that
have been sent to a connection, with those of a file that is being sent, are
read completely as one response for each message written for the connection, in
this order and with the entity that the message stands for.  It does not matter
what any of the clients has put into its requests otherwise. -/
theorem client_reads
    {connections : Nat → Descriptor}
    {opt : Nat → OutPutTask}
    {events : List (ServerEvent n)}
    (run : Run step (Regular contents) (init n connections opt) events s)
    (connection : Nat) :
    ∃ responses,
      List.Forall₂ (Conveys contents) (s.told connection) responses ∧
      readResponses responses.length
        (stream connection (emitted contents (init n connections opt) events) ++
          owed contents s connection) = some responses := by
  have initially : Inv (init n connections opt) :=
    (Placed.init connections opt).inv (Messages.init connections opt)
  obtain ⟨inv, telling⟩ : Inv s ∧ Telling contents s := by
    apply run.preserves _
      (And.intro initially (Telling.init contents connections opt))
    rintro state event next ⟨inv, telling⟩ regular taken
    exact ⟨inv.step regular.settled taken,
      telling.step inv.roles regular taken⟩
  have readable : ∀ task ∈ s.told connection, Readable contents task := by
    intro task member
    apply telling.put
    apply inv.opt.inOrder.subset
    rw [← inv.messages.inOrder]
    exact List.mem_append_left _ (List.mem_of_mem_filter member)
  obtain ⟨tasks, isTold, sent⟩ := initially.sends_run run connection
  have all : s.told connection = tasks := isTold
  have bytes : tasks.flatMap (wire contents) =
      stream connection (emitted contents (init n connections opt) events) ++
        owed contents s connection := sent
  rw [← bytes, ← all]
  obtain ⟨responses, conveys, reads⟩ := exists_responses readable
  exact ⟨responses, conveys, reads⟩

/-- A check for `Serves`. -/
def servesCheck (files : Files) (contents : Contents) (path : Bytes) : Bool :=
  match files path, contents path with
  | none, _ => true
  | some size, some file => size = file.length ∧ file.length ≤ maxSendfile
  | some _, none => false

theorem serves_of_check
    {files : Files}
    {path : Bytes}
    (checked : servesCheck files contents path = true) :
    Serves files contents path := by
  intro size found
  unfold servesCheck at checked
  rw [found] at checked
  cases stored : contents path with
  | none =>
      rw [stored] at checked
      cases checked
  | some file =>
      rw [stored] at checked
      exact ⟨file, rfl, of_decide_eq_true checked⟩

/-- A check for a regular step. -/
def regularCheck (contents : Contents) (s : Server n) : ServerEvent n → Bool
  | .hangUp _ => s.queued = [] ∧ s.unwritten = none ∧ s.unsent = none
  | .recv _ _ beyond => 3000 + beyond.length < 2 ^ 29
  | .deal id files =>
      match s.worker id with
      | .dealing connfd s_buf =>
          match Dealer.round files connfd s_buf with
          | .answered task _ =>
              task.type ≠ 0 || servesCheck files contents task.filePath
          | _ => true
      | _ => true
  | .openFile found => found
  | _ => true

theorem regular_of_check
    (s : Server n)
    (event : ServerEvent n)
    (checked : regularCheck contents s event = true) :
    Regular contents s event where
  settled := by
    cases event with
    | hangUp id => exact settled_of_check s (.hangUp id) checked
    | _ => trivial
  files := by
    rintro id files rfl connfd s_buf task rest dealing answered isFile
    simp only [regularCheck, dealing, answered, isFile, ne_eq,
      not_true_eq_false, decide_false, Bool.false_or] at checked
    exact serves_of_check checked
  memory := by
    rintro id bytes beyond rfl
    exact of_decide_eq_true checked
  opens := by
    rintro found rfl
    exact checked

/-- A file in `src`, which is a directory. -/
def pageFiles : Files := fun path =>
  if path = str "./src/a.txt" then some 2
  else if path = str "./src/." then some 4096
  else none

def pageContents : Contents := fun path =>
  if path = str "./src/a.txt" then some (str "hi") else none

/-- A client asks for the file, gets it and closes its end. -/
def pageEvents : List (ServerEvent 1) :=
  List.flatten
    [[.accept], List.replicate 6 (.useConnections .accepting), [.getTask 0],
      List.replicate 6 (.useConnections (.worker 0)),
      [.gotTask 0, .recv 0 (str "GET /a.txt HTTP/1.1\r\n\r\n") [0],
        .deal 0 pageFiles],
      List.replicate 9 (.useOpt (.worker 0)),
      [.deal 0 pageFiles, .getTaskOut], List.replicate 9 (.useOpt .output),
      [.gotTaskOut, .write, .openFile true, .sendfile, .hangUp 0]]

theorem client_reads_page :
    ∃ (s : Server 1) (task : OutPutTask) (responses : List Response),
      s.told 0 = [task] ∧
      stream 0 (emitted pageContents small pageEvents) =
        str "Http/1.1 200 OK\r\nContent-Length: 2\r\nContent-Type: text/html\r\n\r\nhi" ∧
      List.Forall₂ (Conveys pageContents) (s.told 0) responses ∧
      readResponses responses.length
        (stream 0 (emitted pageContents small pageEvents) ++
          owed pageContents s 0) = some responses := by
  have executed : (pageEvents.foldlM
      (fun s event => if regularCheck pageContents s event then step s event
        else none) small).map (fun s => (s.told 0).map OutPutTask.type) =
          some [0] := by
    decide +kernel
  obtain ⟨s, executed, types⟩ := Option.map_eq_some_iff.mp executed
  obtain ⟨task, isTold, _⟩ := List.map_eq_singleton_iff.mp types
  obtain ⟨responses, conveys, reads⟩ :=
    client_reads (Run.of_checked regular_of_check executed) 0
  exact ⟨s, task, responses, isTold, by decide +kernel, conveys, reads⟩

end Server
end Lab2
end CloudComputing
