import CloudComputing.Lab2.Responses
import CloudComputing.Lib.BufferProgress
import CloudComputing.Lib.Termination

/-!
# Progress of the server

What the threads do between two events from outside comes to an end, except in
a `Dealer` that waits for the rest of a request by beginning again.  They stop
where nothing is left to do: every message has been written to the connection
that it is for, and whoever is not busy with a client finds no connection in the
queue.  Otherwise a request has made `Dealer` throw or leave its string, which
ends the process, or the output thread is stuck at a message that does not fit
into its buffer or whose client does not take it.
-/

namespace CloudComputing
namespace Lab2
namespace Server

open RingBuffer Dealer

variable {n : Nat} {s s' : Server n} {takes : Nat → Prop}

/-! ## Between the queues -/

/-- A thread that has called `getTask` or `getTaskOut` is in it or has got
something, and what has been got out of `opt` is written in this order. -/
structure Answering (s : Server n) : Prop where
  fetching : ∀ id, s.worker id = .fetching →
    s.connections.phase (.worker id) ≠ .idle none
  fetchingOut : s.output = .fetching → s.opt.phase .output ≠ .idle none
  inOrder : s.written.map Delivery.task ++ s.unwritten.toList = s.opt.taken

theorem Answering.init
    (connections : Nat → Descriptor)
    (opt : Nat → OutPutTask) :
    Answering (Server.init n connections opt) where
  fetching := by
    intro id absurd
    cases absurd
  fetchingOut := by
    intro absurd
    cases absurd
  inOrder := rfl

/-- A step that leaves the output thread and `opt` as they are. -/
theorem Answering.transfer
    (answering : Answering s)
    (fetching : ∀ id, s'.worker id = .fetching →
      s'.connections.phase (.worker id) ≠ .idle none)
    (output : s'.output = s.output)
    (phase : s'.opt.phase .output = s.opt.phase .output)
    (taken : s'.opt.taken = s.opt.taken)
    (written : s'.written = s.written) :
    Answering s' where
  fetching := fetching
  fetchingOut := by
    rw [output, phase]
    exact answering.fetchingOut
  inOrder := by
    have unwritten : s'.unwritten = s.unwritten := by
      unfold Server.unwritten
      rw [output, phase]
    rw [written, unwritten, taken]
    exact answering.inOrder

/-- A thread of the pool that gets somewhere else than to `getTask`. -/
theorem Answering.setWorker
    (answering : Answering s)
    (id : Fin n)
    {worker : Worker}
    (elsewhere : worker ≠ .fetching) :
    ∀ other, (s.setWorker id worker).worker other = .fetching →
      s.connections.phase (.worker other) ≠ .idle none := by
  intro other isFetching
  change Function.update s.worker id worker other = .fetching at isFetching
  rw [Function.update_apply] at isFetching
  split at isFetching
  · exact absurd isFetching elsewhere
  · exact answering.fetching other isFetching

theorem Answering.useConnections
    (answering : Answering s)
    (roles : Roles s)
    {thread : Thread n}
    {connections : State (Thread n) Descriptor}
    (moved : Moved connectionsLayout size s.connections thread connections) :
    Answering { s with connections := connections } := by
  refine answering.transfer ?_ rfl rfl rfl rfl
  intro id isFetching idle
  by_cases same : .worker id = thread
  · subst same
    cases (roles.fetching id .put (moved.user_of_idle idle)).1
  · change connections.phase (.worker id) = .idle none at idle
    rw [moved.others same] at idle
    exact answering.fetching id isFetching idle

theorem Answering.useOpt
    (answering : Answering s)
    (placed : Placed s)
    {thread : Thread n}
    {opt : State (Thread n) OutPutTask}
    (moved : Moved optLayout size s.opt thread opt) :
    Answering { s with opt := opt } := by
  by_cases isOutput : thread = .output
  · subst isOutput
    obtain ⟨side, user⟩ := Option.ne_none_iff_exists'.mp moved.user.1
    obtain ⟨rfl, fetching⟩ := placed.roles.output side user
    have now : Server.unwritten { s with opt := opt } =
        (opt.phase .output).acquired := by
      unfold Server.unwritten
      dsimp only
      rw [fetching]
    have before : s.unwritten = (s.opt.phase .output).acquired := by
      unfold Server.unwritten
      rw [fetching]
    have inOrder := answering.inOrder
    refine ⟨answering.fetching, ?_, ?_⟩
    · intro _ idle
      have producer := moved.user_of_idle idle
      rw [user] at producer
      cases producer
    · rw [now]
      change _ = opt.taken
      cases moved.effect with
      | quiet put taken offered acquired =>
          rw [acquired, ← before, taken]
          exact inOrder
      | put task user' put taken offered nothing acquired =>
          rw [user] at user'
          cases user'
      | get task user' put taken offered nothing acquired =>
          rw [before, nothing, Option.toList_none, List.append_nil] at inOrder
          rw [acquired, taken, ← inOrder]
          rfl
  · have kept : opt.phase .output = s.opt.phase .output :=
      moved.others (Ne.symm isOutput)
    refine answering.transfer answering.fetching rfl kept ?_ rfl
    cases moved.effect with
    | quiet put taken offered acquired => exact taken
    | put task user put taken offered nothing acquired => exact taken
    | get task user put taken offered nothing acquired =>
        cases thread with
        | accepting =>
            rw [placed.roles.noAccepting] at user
            cases user
        | worker id => cases placed.roles.putting id .get user
        | output => exact absurd rfl isOutput

theorem Answering.accept
    (answering : Answering s)
    (taken : s.accept = some s') :
    Answering s' := by
  unfold Server.accept at taken
  obtain ⟨connections, started, rfl⟩ := Option.map_eq_some_iff.mp taken
  obtain ⟨_, rfl⟩ := start_eq_some started
  refine answering.transfer ?_ rfl rfl rfl rfl
  intro id isFetching idle
  change (s.connections.go .accepting _).phase (.worker id) = .idle none at idle
  rw [State.go_phase, Function.update_of_ne (by simp)] at idle
  exact answering.fetching id isFetching idle

theorem Answering.deal
    (answering : Answering s)
    {id : Fin n}
    {files : Files}
    (taken : s.deal id files = some s') :
    Answering s' := by
  unfold Server.deal at taken
  split at taken
  · rename_i connfd s_buf result dealing found
    split at taken
    · cases taken
      exact answering.transfer
        (answering.setWorker id (by simp)) rfl rfl rfl rfl
    · cases taken
      exact answering
    · cases taken
    · obtain ⟨opt, started, rfl⟩ := Option.map_eq_some_iff.mp taken
      obtain ⟨_, rfl⟩ := start_eq_some started
      refine answering.transfer
        (answering.setWorker id (by simp)) rfl ?_ rfl rfl
      change (s.opt.go (.worker id) _).phase .output = _
      rw [State.go_phase, Function.update_of_ne (by simp)]
  · cases taken

theorem Answering.worker
    (answering : Answering s)
    {id : Fin n}
    {event : ServerEvent n}
    (isWorker : event = .getTask id ∨ event = .gotTask id ∨
      (∃ bytes beyond, event = .recv id bytes beyond) ∨ event = .hangUp id)
    (taken : s.step event = some s') :
    Answering s' := by
  rcases isWorker with rfl | rfl | ⟨bytes, beyond, rfl⟩ | rfl
  · simp only [Server.step] at taken
    split at taken
    · obtain ⟨connections, started, rfl⟩ := Option.map_eq_some_iff.mp taken
      obtain ⟨_, rfl⟩ := start_eq_some started
      refine answering.transfer ?_ rfl rfl rfl rfl
      intro other isFetching idle
      change (s.connections.go (.worker id) _).phase (.worker other) =
        .idle none at idle
      rw [State.go_phase, Function.update_apply] at idle
      split at idle
      · cases idle
      · rename_i differs
        have own : other ≠ id := fun same => differs (congrArg _ same)
        change Function.update s.worker id _ other = .fetching at isFetching
        rw [Function.update_of_ne own] at isFetching
        exact answering.fetching other isFetching idle
    · cases taken
  · simp only [Server.step] at taken
    split at taken
    · cases taken
      exact answering.transfer
        (answering.setWorker id (by simp)) rfl rfl rfl rfl
    · cases taken
  · simp only [Server.step] at taken
    split at taken
    · split at taken
      · cases taken
      · cases taken
        exact answering.transfer
          (answering.setWorker id (by simp)) rfl rfl rfl rfl
    · cases taken
  · simp only [Server.step] at taken
    split at taken
    · cases taken
      exact answering.transfer
        (answering.setWorker id (by simp)) rfl rfl rfl rfl
    · cases taken

/-- The steps of the output thread outside the queue. -/
theorem Answering.output
    (answering : Answering s)
    {event : ServerEvent n}
    (isOutput : event = .getTaskOut ∨ event = .gotTaskOut ∨ event = .write ∨
      (∃ found, event = .openFile found) ∨ event = .sendfile)
    (taken : s.step event = some s') :
    Answering s' := by
  have inOrder := answering.inOrder
  unfold Server.unwritten at inOrder
  rcases isOutput with rfl | rfl | rfl | ⟨found, rfl⟩ | rfl
  · simp only [Server.step] at taken
    split at taken
    · rename_i ready
      obtain ⟨opt, started, rfl⟩ := Option.map_eq_some_iff.mp taken
      obtain ⟨_, rfl⟩ := start_eq_some started
      rw [ready] at inOrder
      refine ⟨answering.fetching, ?_, ?_⟩
      · intro _ idle
        change (s.opt.go .output _).phase .output = .idle none at idle
        rw [State.go_phase, Function.update_self] at idle
        cases idle
      · change _ = s.opt.taken
        simpa [Server.unwritten, Phase.acquired] using inOrder
    · cases taken
  · simp only [Server.step] at taken
    split at taken
    · rename_i task fetching idle
      cases taken
      rw [fetching] at inOrder
      simp only [idle] at inOrder
      refine ⟨answering.fetching, ?_, inOrder⟩
      intro absurd
      cases absurd
    · cases taken
  · change s.write = some s' at taken
    unfold Server.write at taken
    split at taken
    · rename_i task writing
      split at taken
      · cases taken
        rw [writing] at inOrder
        refine ⟨answering.fetching, ?_, ?_⟩
        · intro absurd
          change (if task.type = 0 then Output.opening task else .ready) =
            .fetching at absurd
          split at absurd
          · cases absurd
          · cases absurd
        · rw [unwritten_ready_or_opening, List.map_append]
          simpa using inOrder
      · cases taken
    · cases taken
  · simp only [Server.step] at taken
    split at taken
    · rename_i task opening
      rw [opening] at inOrder
      split at taken
      · cases taken
        refine ⟨answering.fetching, ?_, inOrder⟩
        intro absurd
        cases absurd
      · cases taken
        refine ⟨answering.fetching, ?_, inOrder⟩
        intro absurd
        cases absurd
    · cases taken
  · simp only [Server.step] at taken
    split at taken
    · rename_i task sending
      rw [sending] at inOrder
      cases taken
      refine ⟨answering.fetching, ?_, inOrder⟩
      intro absurd
      cases absurd
    · cases taken

theorem Answering.step
    (answering : Answering s)
    (placed : Placed s)
    {event : ServerEvent n}
    (taken : s.step event = some s') :
    Answering s' := by
  cases event with
  | accept => exact answering.accept taken
  | useConnections thread =>
      obtain ⟨connections, moved, rfl⟩ := Option.map_eq_some_iff.mp taken
      exact answering.useConnections placed.roles (moved_of_next moved)
  | useOpt thread =>
      obtain ⟨opt, moved, rfl⟩ := Option.map_eq_some_iff.mp taken
      exact answering.useOpt placed (moved_of_next moved)
  | getTask id => exact answering.worker (.inl rfl) taken
  | gotTask id => exact answering.worker (.inr (.inl rfl)) taken
  | recv id bytes beyond =>
      exact answering.worker (.inr (.inr (.inl ⟨bytes, beyond, rfl⟩))) taken
  | hangUp id => exact answering.worker (.inr (.inr (.inr rfl))) taken
  | deal id files => exact answering.deal taken
  | getTaskOut => exact answering.output (.inl rfl) taken
  | gotTaskOut => exact answering.output (.inr (.inl rfl)) taken
  | write => exact answering.output (.inr (.inr (.inl rfl))) taken
  | openFile found =>
      exact answering.output (.inr (.inr (.inr (.inl ⟨found, rfl⟩)))) taken
  | sendfile =>
      exact answering.output (.inr (.inr (.inr (.inr rfl)))) taken

/-! ## The work in front of the threads -/

/-- `write` and `sendfile` to this target return, when a connection takes what
is sent to it.  If its client does not read, they wait for it; if the client is
gone, `SIGPIPE` ends the process. -/
def Returns (takes : Nat → Prop) (target : Option Object) : Prop :=
  ∀ connection, target = some (.connection connection) → takes connection

/-- The step is one of the process, and no round in which `Dealer` begins
again. -/
def Internal (takes : Nat → Prop) (s : Server n) : ServerEvent n → Prop
  | .accept => False
  | .recv _ _ _ => False
  | .hangUp _ => False
  | .deal id files => ∀ connfd s_buf, s.worker id = .dealing connfd s_buf →
      Dealer.round files connfd s_buf ≠ .again
  | .write => ∀ task, s.output = .writing task →
      Returns takes (s.table.lookup task.sockfd.number)
  | .sendfile => ∀ task, s.output = .sending task →
      Returns takes (s.table.lookup task.sockfd.number)
  | _ => True

/-- The steps of a thread of the pool outside the queues.  A request stands for
the message that it is going to be answered with. -/
def workerWork : Worker → Nat
  | .ready => 8
  | .fetching => 1
  | .receiving _ => 0
  | .dealing _ s_buf => if hasHttp s_buf then 25 else 1

@[simp] theorem workerWork_ready : workerWork .ready = 8 := rfl

@[simp] theorem workerWork_fetching : workerWork .fetching = 1 := rfl

@[simp] theorem workerWork_receiving (connfd : Descriptor) :
    workerWork (.receiving connfd) = 0 := rfl

theorem workerWork_of_http
    {s_buf : Bytes}
    (http : hasHttp s_buf = true)
    (connfd : Descriptor) :
    workerWork (.dealing connfd s_buf) = 25 :=
  if_pos http

theorem workerWork_of_not_http
    {s_buf : Bytes}
    (without : hasHttp s_buf ≠ true)
    (connfd : Descriptor) :
    workerWork (.dealing connfd s_buf) = 1 :=
  if_neg without

theorem workerWork_dealing_pos
    (connfd : Descriptor)
    (s_buf : Bytes) :
    0 < workerWork (.dealing connfd s_buf) := by
  by_cases http : hasHttp s_buf = true
  · rw [workerWork_of_http http]
    exact Nat.succ_pos _
  · rw [workerWork_of_not_http http]
    exact Nat.one_pos

/-- The steps of the output thread up to the queue, with those for a message
that it has got. -/
def outputWork : Output → Option OutPutTask → Nat
  | .ready, _ => 11
  | .fetching, got => if got.isSome then 15 else 1
  | .writing _, _ => 14
  | .opening _, _ => 13
  | .sending _, _ => 12

/-- The messages that are offered to `opt` or in it. -/
def pending (opt : State (Thread n) OutPutTask) : Nat :=
  total opt.phase Point.offers + opt.put.length - opt.taken.length

/-- A bound on the steps before the next event from outside. -/
def work (s : Server n) : Nat :=
  ∑ id, workerWork (s.worker id) +
    total s.connections.phase (Point.remaining 1) +
    total s.opt.phase (Point.remaining 4) + 14 * pending s.opt +
    outputWork s.output (s.opt.phase .output).acquired

theorem sum_workerWork
    (s : Server n)
    (id : Fin n)
    (worker : Worker) :
    ∑ other, workerWork ((s.setWorker id worker).worker other) +
        workerWork (s.worker id) =
      ∑ other, workerWork (s.worker other) + workerWork worker :=
  sum_update_add (Finset.mem_univ id) s.worker worker workerWork

theorem work_useConnections
    {thread : Thread n}
    {connections : State (Thread n) Descriptor}
    (moved : Moved connectionsLayout size s.connections thread connections) :
    work { s with connections := connections } < s.work := by
  have fewer : total connections.phase (Point.remaining 1) <
      total s.connections.phase (Point.remaining 1) := moved.total_remaining
  change ∑ id, workerWork (s.worker id) +
    total connections.phase (Point.remaining 1) +
    total s.opt.phase (Point.remaining 4) + 14 * pending s.opt +
    outputWork s.output (s.opt.phase .output).acquired < _
  unfold work
  omega

theorem work_useOpt
    (placed : Placed s)
    {thread : Thread n}
    {opt : State (Thread n) OutPutTask}
    (moved : Moved optLayout size s.opt thread opt) :
    work { s with opt := opt } < s.work := by
  have fewer : total opt.phase (Point.remaining 4) <
      total s.opt.phase (Point.remaining 4) := moved.total_remaining
  have offers := moved.total_offers
  have before := placed.opt.inOrder.length_le
  have after := (placed.opt.moved moved).inOrder.length_le
  -- a message that is got out is paid for by the one that was in the queue
  have paid : 14 * pending opt +
      outputWork s.output (opt.phase .output).acquired ≤
        14 * pending s.opt +
          outputWork s.output (s.opt.phase .output).acquired := by
    unfold pending
    by_cases isOutput : thread = .output
    · subst isOutput
      obtain ⟨side, user⟩ := Option.ne_none_iff_exists'.mp moved.user.1
      obtain ⟨rfl, fetching⟩ := placed.roles.output side user
      rw [fetching]
      unfold outputWork
      cases moved.effect with
      | quiet put taken offered acquired =>
          rw [acquired, put, taken]
          rw [put] at offers
          omega
      | put task user' put taken offered nothing acquired =>
          rw [user] at user'
          cases user'
      | get task user' put taken offered nothing acquired =>
          rw [put, taken] at after
          rw [put] at offers
          rw [acquired, nothing, put, taken]
          simp only [Option.isSome_some, if_true, Option.isSome_none,
            Bool.false_eq_true, if_false, List.length_append,
            List.length_singleton] at after ⊢
          omega
    · rw [moved.others (Ne.symm isOutput)]
      have notGot : opt.taken = s.opt.taken := by
        cases moved.effect with
        | quiet put taken offered acquired => exact taken
        | put task user put taken offered nothing acquired => exact taken
        | get task user put taken offered nothing acquired =>
            cases thread with
            | accepting =>
                rw [placed.roles.noAccepting] at user
                cases user
            | worker id => cases placed.roles.putting id .get user
            | output => exact absurd rfl isOutput
      rw [notGot]
      omega
  change ∑ id, workerWork (s.worker id) +
    total s.connections.phase (Point.remaining 1) +
    total opt.phase (Point.remaining 4) + 14 * pending opt +
    outputWork s.output (opt.phase .output).acquired < _
  unfold work
  omega

/-- A thread of the pool goes to `getTask`. -/
theorem work_getTask
    {id : Fin n}
    (taken : s.step (.getTask id) = some s') :
    s'.work < s.work := by
  simp only [Server.step] at taken
  split at taken
  · rename_i ready
    obtain ⟨connections, started, rfl⟩ := Option.map_eq_some_iff.mp taken
    obtain ⟨⟨result, idle⟩, rfl⟩ := start_eq_some started
    have pool := sum_workerWork s id .fetching
    have steps := total_update s.connections.phase (.worker id)
      (.active .get .enter ⟨0, 0⟩) (Point.remaining 1)
    rw [ready, workerWork_ready, workerWork_fetching] at pool
    rw [idle] at steps
    simp only [Phase.weight, Point.remaining] at steps
    change ∑ other, workerWork ((s.setWorker id .fetching).worker other) +
      total (Function.update s.connections.phase (.worker id) _)
        (Point.remaining 1) + total s.opt.phase (Point.remaining 4) +
      14 * pending s.opt +
      outputWork s.output (s.opt.phase .output).acquired < _
    unfold work
    omega
  · cases taken

/-- A thread of the pool that gets somewhere else, outside the queues. -/
theorem work_setWorker
    {id : Fin n}
    {worker : Worker}
    (less : workerWork worker < workerWork (s.worker id)) :
    (s.setWorker id worker).work < s.work := by
  have pool := sum_workerWork s id worker
  change ∑ other, workerWork ((s.setWorker id worker).worker other) +
    total s.connections.phase (Point.remaining 1) +
    total s.opt.phase (Point.remaining 4) + 14 * pending s.opt +
    outputWork s.output (s.opt.phase .output).acquired < _
  unfold work
  omega

/-- A round of the loop of `Dealer`. -/
theorem work_deal
    {id : Fin n}
    {files : Files}
    (again : ∀ connfd s_buf, s.worker id = .dealing connfd s_buf →
      Dealer.round files connfd s_buf ≠ .again)
    (placed : Placed s)
    (taken : s.deal id files = some s') :
    s'.work < s.work := by
  unfold Server.deal at taken
  split at taken
  · rename_i connfd s_buf result dealing idle
    split at taken
    · cases taken
      apply work_setWorker
      rw [dealing]
      exact workerWork_dealing_pos connfd s_buf
    · rename_i isAgain
      exact absurd isAgain (again connfd s_buf dealing)
    · cases taken
    · rename_i task rest answered
      obtain ⟨opt, started, rfl⟩ := Option.map_eq_some_iff.mp taken
      obtain ⟨_, rfl⟩ := start_eq_some started
      obtain ⟨http, byte, rfl⟩ := round_answered answered
      have pool := sum_workerWork s id (.dealing connfd [byte])
      have steps := total_update s.opt.phase (.worker id)
        (.active .put .enter task) (Point.remaining 4)
      have offers := total_update s.opt.phase (.worker id)
        (.active .put .enter task) Point.offers
      have inOrder := placed.opt.inOrder.length_le
      have without : hasHttp [byte] ≠ true := by
        rw [hasHttp_singleton]
        exact Bool.false_ne_true
      rw [dealing, workerWork_of_http http, workerWork_of_not_http without]
        at pool
      rw [idle] at steps offers
      simp only [Phase.weight, Point.remaining, Point.offers] at steps offers
      have output : (s.opt.go (.worker id)
          (.active .put .enter task)).phase .output =
            s.opt.phase .output := by
        rw [State.go_phase, Function.update_of_ne (by simp)]
      change ∑ other, workerWork
          ((s.setWorker id (.dealing connfd [byte])).worker other) +
        total s.connections.phase (Point.remaining 1) +
        total (Function.update s.opt.phase (.worker id)
          (.active .put .enter task)) (Point.remaining 4) +
        14 * (total (Function.update s.opt.phase (.worker id)
          (.active .put .enter task)) Point.offers + s.opt.put.length -
            s.opt.taken.length) +
        outputWork s.output ((s.opt.go (.worker id)
          (.active .put .enter task)).phase .output).acquired < _
      rw [output]
      unfold work pending
      omega
  · cases taken

/-- The output thread gets somewhere else, outside the queue. -/
theorem work_setOutput
    {output : Output}
    (less : outputWork output (s.opt.phase .output).acquired <
      outputWork s.output (s.opt.phase .output).acquired)
    (table : Table)
    (written sent : List Delivery) :
    work { s with
      output := output, table := table, written := written, sent := sent } <
        s.work := by
  change ∑ id, workerWork (s.worker id) +
    total s.connections.phase (Point.remaining 1) +
    total s.opt.phase (Point.remaining 4) + 14 * pending s.opt +
    outputWork output (s.opt.phase .output).acquired < _
  unfold work
  omega

theorem work_getTaskOut
    (taken : s.step .getTaskOut = some s') :
    s'.work < s.work := by
  simp only [Server.step] at taken
  split at taken
  · rename_i ready
    obtain ⟨opt, started, rfl⟩ := Option.map_eq_some_iff.mp taken
    obtain ⟨⟨result, idle⟩, rfl⟩ := start_eq_some started
    have steps := total_update s.opt.phase .output
      (.active .get .enter ⟨0, [], ⟨0, 0⟩, []⟩) (Point.remaining 4)
    have offers := total_update s.opt.phase .output
      (.active .get .enter ⟨0, [], ⟨0, 0⟩, []⟩) Point.offers
    rw [idle] at steps offers
    simp only [Phase.weight, Point.remaining, Point.offers] at steps offers
    have nothing : ((s.opt.go .output
        (.active .get .enter ⟨0, [], ⟨0, 0⟩, []⟩)).phase
          .output).acquired = none := by
      rw [State.go_phase, Function.update_self]
      rfl
    change ∑ id, workerWork (s.worker id) +
      total s.connections.phase (Point.remaining 1) +
      total (Function.update s.opt.phase .output
        (.active .get .enter ⟨0, [], ⟨0, 0⟩, []⟩)) (Point.remaining 4) +
      14 * (total (Function.update s.opt.phase .output
        (.active .get .enter ⟨0, [], ⟨0, 0⟩, []⟩)) Point.offers +
          s.opt.put.length - s.opt.taken.length) +
      outputWork .fetching ((s.opt.go .output
        (.active .get .enter ⟨0, [], ⟨0, 0⟩, []⟩)).phase
          .output).acquired < _
    rw [nothing]
    unfold work pending
    rw [ready]
    simp only [outputWork, Option.isSome_none, Bool.false_eq_true, if_false]
    omega
  · cases taken

/-- The steps of the output thread behind the queue. -/
theorem work_output
    {event : ServerEvent n}
    (isOutput : event = .gotTaskOut ∨ event = .write ∨
      (∃ found, event = .openFile found) ∨ event = .sendfile)
    (taken : s.step event = some s') :
    s'.work < s.work := by
  rcases isOutput with rfl | rfl | ⟨found, rfl⟩ | rfl
  · simp only [Server.step] at taken
    split at taken
    · rename_i task fetching idle
      cases taken
      apply work_setOutput
      rw [fetching, idle]
      exact Nat.lt_succ_self 14
    · cases taken
  · change s.write = some s' at taken
    unfold Server.write at taken
    split at taken
    · rename_i task writing
      split at taken
      · cases taken
        apply work_setOutput
        rw [writing]
        split
        · exact Nat.lt_succ_self 13
        · exact Nat.lt_add_of_pos_right (Nat.succ_pos 2)
      · cases taken
    · cases taken
  · simp only [Server.step] at taken
    split at taken
    · rename_i task opening
      split at taken
      · cases taken
        apply work_setOutput
        rw [opening]
        exact Nat.lt_succ_self 12
      · cases taken
        apply work_setOutput
        rw [opening]
        exact Nat.lt_add_of_pos_right (Nat.succ_pos 1)
    · cases taken
  · simp only [Server.step] at taken
    split at taken
    · rename_i task sending
      cases taken
      apply work_setOutput
      rw [sending]
      exact Nat.lt_succ_self 11
    · cases taken

/-- Every step between two events from outside is one of those counted. -/
theorem work_lt
    (placed : Placed s)
    {event : ServerEvent n}
    (inside : Internal takes s event)
    (taken : s.step event = some s') :
    s'.work < s.work := by
  cases event with
  | accept => exact inside.elim
  | useConnections thread =>
      obtain ⟨connections, moved, rfl⟩ := Option.map_eq_some_iff.mp taken
      exact work_useConnections (moved_of_next moved)
  | useOpt thread =>
      obtain ⟨opt, moved, rfl⟩ := Option.map_eq_some_iff.mp taken
      exact work_useOpt placed (moved_of_next moved)
  | getTask id => exact work_getTask taken
  | gotTask id =>
      simp only [Server.step] at taken
      split at taken
      · rename_i connfd fetching idle
        cases taken
        apply work_setWorker
        rw [fetching]
        exact Nat.one_pos
      · cases taken
  | recv id bytes beyond => exact inside.elim
  | hangUp id => exact inside.elim
  | deal id files => exact work_deal inside placed taken
  | getTaskOut => exact work_getTaskOut taken
  | gotTaskOut => exact work_output (.inl rfl) taken
  | write => exact work_output (.inr (.inl rfl)) taken
  | openFile found => exact work_output (.inr (.inr (.inl ⟨found, rfl⟩))) taken
  | sendfile => exact work_output (.inr (.inr (.inr rfl))) taken

/-! ## Where the threads stop -/

/-- The process has nothing to do before the next event from outside. -/
def AtRest (takes : Nat → Prop) (s : Server n) : Prop :=
  ∀ event next, Internal takes s event → s.step event ≠ some next

/-- Where a thread of the pool stops: `getTask` finds no connection, the client
sends nothing, or `Dealer` begins again and again. -/
inductive Stops (s : Server n) (id : Fin n) : Prop
  | waits
      (fetching : s.worker id = .fetching)
      (empty : s.connections.taken = s.connections.put)
  | receives
      (connfd : Descriptor)
      (receiving : s.worker id = .receiving connfd)
  | loops
      (connfd : Descriptor)
      (s_buf : Bytes)
      (dealing : s.worker id = .dealing connfd s_buf)
      (again : ∀ files, Dealer.round files connfd s_buf = .again)

/-- Every message that has been enqueued is written, in this order and each to
the connection that it is for, and there is a connection in the queue only if
all threads of the pool have another one. -/
structure Delivered (s : Server n) : Prop where
  written : s.written.map Delivery.task = s.opt.put
  reached : ∀ delivery ∈ s.written ++ s.sent, Delivery.Right delivery
  accepting : ∀ side,
    (s.connections.phase .accepting).user = some side →
      s.connections.put.length = size + s.connections.taken.length
  stops : ∀ id, Stops s id

/-- Why there may be messages left: the output thread has one that does not fit
into `send_buf`, or is in a call for a client that does not take it, or `Dealer`
leaves its string or throws. -/
inductive Broken (takes : Nat → Prop) (s : Server n) : Prop
  | long
      (task : OutPutTask)
      (writing : s.output = .writing task)
      (long : 1024 ≤ task.message.length)
  | blocked
      (task : OutPutTask)
      (busy : s.output = .writing task ∨ s.output = .sending task)
      (stays : ¬ Returns takes (s.table.lookup task.sockfd.number))
  | undefined
      (id : Fin n)
      (connfd : Descriptor)
      (s_buf : Bytes)
      (files : Files)
      (dealing : s.worker id = .dealing connfd s_buf)
      (ends : Dealer.round files connfd s_buf = .undefined)

theorem AtRest.step_eq_none
    (rest : AtRest takes s)
    {event : ServerEvent n}
    (inside : Internal takes s event) :
    s.step event = none := by
  by_contra goes
  obtain ⟨next, goes⟩ := Option.ne_none_iff_exists'.mp goes
  exact rest event next inside goes

theorem AtRest.connections
    (rest : AtRest takes s)
    (thread : Thread n) :
    s.connections.next connectionsLayout size thread = none := by
  have stuck : s.step (.useConnections thread) = none :=
    rest.step_eq_none trivial
  exact Option.map_eq_none_iff.mp stuck

theorem AtRest.opt
    (rest : AtRest takes s)
    (thread : Thread n) :
    s.opt.next optLayout size thread = none := by
  have stuck : s.step (.useOpt thread) = none := rest.step_eq_none trivial
  exact Option.map_eq_none_iff.mp stuck

/-- A thread that uses no buffer can begin to. -/
theorem start_of_user
    {T α : Type*}
    [DecidableEq T]
    {buffer : State T α}
    {thread : T}
    (idle : (buffer.phase thread).user = none)
    (side : Side)
    (item : α) :
    buffer.start thread side item =
      some (buffer.go thread (.active side .enter item)) := by
  unfold State.start
  cases found : buffer.phase thread with
  | idle result => rfl
  | active side' point item' =>
      rw [found] at idle
      cases idle

/-- The output thread stops in front of an empty queue, or in a call that does
not return. -/
theorem AtRest.output
    (rest : AtRest takes s)
    (placed : Placed s)
    (answering : Answering s) :
    Broken takes s ∨
      s.output = .fetching ∧ s.opt.taken = s.opt.put ∧ s.unwritten = none := by
  cases output : s.output with
  | ready =>
      have idle := placed.roles.not_fetching (by rw [output]; simp)
      have stuck : s.step .getTaskOut = none := rest.step_eq_none trivial
      simp [Server.step, output, start_of_user idle] at stuck
  | fetching =>
      refine .inr ⟨rfl, ?_⟩
      cases phase : s.opt.phase .output with
      | idle result =>
          cases result with
          | none => exact absurd phase (answering.fetchingOut output)
          | some task =>
              have stuck : s.step .gotTaskOut = none :=
                rest.step_eq_none trivial
              simp [Server.step, output, phase] at stuck
      | active side point task =>
          have side_eq := (placed.roles.output side (by rw [phase]; rfl)).1
          subst side_eq
          obtain ⟨rfl, blocks⟩ := placed.opt.blocks_of_rest rest.opt phase
          refine ⟨placed.opt.taken_eq_put blocks, ?_⟩
          unfold unwritten
          rw [output]
          simp only [phase]
          rfl
  | writing task =>
      refine .inl ?_
      by_cases returns : Returns takes (s.table.lookup task.sockfd.number)
      · refine .long task output ?_
        by_contra short
        have inside : Internal takes s .write := by
          intro task' writing
          rw [output] at writing
          cases writing
          exact returns
        have stuck : s.step .write = none := rest.step_eq_none inside
        simp [Server.step, Server.write, output, Nat.lt_of_not_le short]
          at stuck
      · exact .blocked task (.inl output) returns
  | opening task =>
      have stuck : s.step (.openFile false) = none :=
        rest.step_eq_none trivial
      simp [Server.step, output] at stuck
  | sending task =>
      refine .inl (.blocked task (.inr output) ?_)
      intro returns
      have inside : Internal takes s .sendfile := by
        intro task' sending
        rw [output] at sending
        cases sending
        exact returns
      have stuck : s.step .sendfile = none := rest.step_eq_none inside
      simp [Server.step, output] at stuck

/-- A thread of the pool stops in one of three places, or ends the process, as
long as there is room in `opt`. -/
theorem AtRest.stops
    (rest : AtRest takes s)
    (placed : Placed s)
    (answering : Answering s)
    (room : s.opt.put.length ≠ size + s.opt.taken.length)
    (id : Fin n) :
    Broken takes s ∨ Stops s id := by
  cases worker : s.worker id with
  | ready =>
      have idle := placed.roles.not_using id (by rw [worker]; simp)
      have stuck : s.step (.getTask id) = none := rest.step_eq_none trivial
      simp [Server.step, worker, start_of_user idle] at stuck
  | fetching =>
      cases phase : s.connections.phase (.worker id) with
      | idle result =>
          cases result with
          | none => exact absurd phase (answering.fetching id worker)
          | some connfd =>
              have stuck : s.step (.gotTask id) = none :=
                rest.step_eq_none trivial
              simp [Server.step, worker, phase] at stuck
      | active side point connfd =>
          have side_eq := (placed.roles.fetching id side (by rw [phase]; rfl)).1
          subst side_eq
          obtain ⟨rfl, blocks⟩ :=
            placed.connections.blocks_of_rest rest.connections phase
          exact .inr (.waits worker (placed.connections.taken_eq_put blocks))
  | receiving connfd => exact .inr (.receives connfd worker)
  | dealing connfd s_buf =>
      have idle : (s.opt.phase (.worker id)).user = none := by
        cases phase : s.opt.phase (.worker id) with
        | idle result => rfl
        | active side point task =>
            have side_eq := placed.roles.putting id side (by rw [phase]; rfl)
            subst side_eq
            exact absurd (placed.opt.blocks_of_rest rest.opt phase).2 room
      by_cases ends : ∃ files, Dealer.round files connfd s_buf = .undefined
      · obtain ⟨files, ends⟩ := ends
        exact .inl (.undefined id connfd s_buf files worker ends)
      refine .inr (.loops connfd s_buf worker ?_)
      intro files
      by_contra goes
      have inside : Internal takes s (.deal id files) := by
        intro connfd' s_buf' dealing
        rw [worker] at dealing
        cases dealing
        exact goes
      cases phase : s.opt.phase (.worker id) with
      | active side point task =>
          rw [phase] at idle
          cases idle
      | idle result =>
          have stuck := rest.step_eq_none inside
          cases round : Dealer.round files connfd s_buf with
          | finished =>
              simp [Server.step, Server.deal, worker, phase, round] at stuck
          | again => exact goes round
          | undefined => exact ends ⟨files, round⟩
          | answered task later =>
              simp [Server.step, Server.deal, worker, phase, round,
                start_of_user idle] at stuck

/-- Where all threads have stopped, everything is delivered or something is
broken. -/
theorem AtRest.delivered
    (rest : AtRest takes s)
    (inv : Inv s)
    (answering : Answering s) :
    Broken takes s ∨ Delivered s := by
  have placed := inv.placed
  by_cases broken : Broken takes s
  · exact .inl broken
  right
  obtain ⟨fetching, all, nothing⟩ :=
    (rest.output placed answering).resolve_left broken
  have room : s.opt.put.length ≠ size + s.opt.taken.length := by
    rw [all]
    unfold size
    omega
  refine ⟨?_, ?_, ?_, ?_⟩
  · have inOrder := answering.inOrder
    rw [nothing, Option.toList_none, List.append_nil] at inOrder
    rw [inOrder, all]
  · intro delivery member
    rcases List.mem_append.mp member with member | member
    · exact inv.messages.written delivery member
    · exact inv.messages.sent delivery member
  · intro side used
    cases phase : s.connections.phase .accepting with
    | idle result =>
        rw [phase] at used
        cases used
    | active side' point connfd =>
        have side_eq := placed.roles.accepting side' (by rw [phase]; rfl)
        subst side_eq
        exact (placed.connections.blocks_of_rest rest.connections phase).2
  · intro id
    exact (rest.stops placed answering room id).resolve_left broken

/-- The threads come to rest. -/
theorem exists_rest
    (takes : Nat → Prop)
    (placed : Placed s) :
    ∃ later last, Run step (Internal takes) s later last ∧
      AtRest takes last := by
  have keeps : ∀ (state : Server n) (event : ServerEvent n) (next : Server n),
      Placed state → Internal takes state event →
        step state event = some next → Placed next :=
    fun _ _ _ placed _ taken => placed.step taken
  have lowers : ∀ (state : Server n) (event : ServerEvent n) (next : Server n),
      Placed state → Internal takes state event →
        step state event = some next → next.work < state.work :=
    fun _ _ _ placed inside taken => work_lt placed inside taken
  exact Run.exists_atRest keeps lowers placed

/-- A run of counted steps is no longer than the work in front of it. -/
theorem length_le_work
    (placed : Placed s)
    {later : List (ServerEvent n)}
    {last : Server n}
    (run : Run step (Internal takes) s later last) :
    later.length ≤ s.work := by
  have bound := run.length_add_le
    (fun _ _ _ placed _ taken => placed.step taken)
    (fun _ _ _ placed inside taken => work_lt placed inside taken) placed
  omega

/-- No counted step closes a connection. -/
theorem settled_of_internal
    {event : ServerEvent n}
    (inside : Internal takes s event) :
    Settled s event := by
  cases event with
  | hangUp id => exact inside.elim
  | _ => trivial

/-- The server does not get stuck: as long as no connection is closed while a
message for it is on its way, the threads come to rest after a bounded number of
steps, in whatever order they take them, and then every message that has been
enqueued is written to its connection, or something is broken. -/
theorem delivers
    (takes : Nat → Prop)
    {connections : Nat → Descriptor}
    {opt : Nat → OutPutTask}
    {events : List (ServerEvent n)}
    (run : Run step Settled (init n connections opt) events s) :
    (∃ later last, Run step (Internal takes) s later last ∧
      AtRest takes last) ∧
      ∀ later last, Run step (Internal takes) s later last →
        later.length ≤ s.work ∧
          (AtRest takes last → Broken takes last ∨ Delivered last) := by
  have keeps : ∀ (state : Server n) (event : ServerEvent n) (next : Server n),
      Inv state ∧ Answering state → Settled state event →
        step state event = some next → Inv next ∧ Answering next := by
    rintro state event next ⟨inv, answering⟩ settled taken
    exact ⟨inv.step settled taken, answering.step inv.placed taken⟩
  have initially : Inv (init n connections opt) :=
    (Placed.init connections opt).inv (Messages.init connections opt)
  have held := run.preserves keeps
    (And.intro initially (Answering.init connections opt))
  refine ⟨exists_rest takes held.1.placed, ?_⟩
  intro later last goesOn
  have still := (goesOn.mono fun _ _ => settled_of_internal).preserves keeps
    held
  exact ⟨length_le_work held.1.placed goesOn,
    fun rest => rest.delivered still.1 still.2⟩

/-- In front of `recv`. -/
def isReceiving : Worker → Bool
  | .receiving _ => true
  | _ => false

/-- A check for a state in which the pool waits for clients and the output
thread for messages. -/
def restCheck (s : Server n) : Bool :=
  s.output = .fetching ∧ (s.opt.phase .output).acquired = none ∧
    (∀ id, isReceiving (s.worker id) = true) ∧
    (∀ thread,
      (s.connections.next connectionsLayout size thread).isNone = true) ∧
    ∀ thread, (s.opt.next optLayout size thread).isNone = true

theorem atRest_of_check (checked : restCheck s = true) : AtRest takes s := by
  obtain ⟨fetching, nothing, receiving, connections, opt⟩ :=
    of_decide_eq_true checked
  have receives : ∀ id, ∃ connfd, s.worker id = .receiving connfd := by
    intro id
    have isReceiving := receiving id
    cases worker : s.worker id with
    | receiving connfd => exact ⟨connfd, rfl⟩
    | _ =>
        rw [worker] at isReceiving
        cases isReceiving
  intro event next inside taken
  cases event with
  | accept => exact inside
  | recv id bytes beyond => exact inside
  | hangUp id => exact inside
  | useConnections thread =>
      obtain ⟨buffer, moved, _⟩ := Option.map_eq_some_iff.mp taken
      have stuck := connections thread
      rw [moved] at stuck
      cases stuck
  | useOpt thread =>
      obtain ⟨buffer, moved, _⟩ := Option.map_eq_some_iff.mp taken
      have stuck := opt thread
      rw [moved] at stuck
      cases stuck
  | getTask id =>
      obtain ⟨connfd, worker⟩ := receives id
      simp [Server.step, worker] at taken
  | gotTask id =>
      obtain ⟨connfd, worker⟩ := receives id
      simp [Server.step, worker] at taken
  | deal id files =>
      obtain ⟨connfd, worker⟩ := receives id
      simp [Server.step, Server.deal, worker] at taken
  | getTaskOut => simp [Server.step, fetching] at taken
  | gotTaskOut =>
      simp only [Server.step, fetching] at taken
      split at taken
      case h_1 task _ idle =>
        rw [idle] at nothing
        cases nothing
      case h_2 => cases taken
  | write => simp [Server.step, Server.write, fetching] at taken
  | openFile found => simp [Server.step, fetching] at taken
  | sendfile => simp [Server.step, fetching] at taken

/-- The output thread writes a message and looks for the next one. -/
def answerEvents : List (ServerEvent 1) :=
  outputEvents ++ [ServerEvent.getTaskOut]

/-- A request has been answered, and its response is not yet written. -/
theorem delivers_asked :
    ∃ s last : Server 1, s.opt.put.length = 1 ∧ s.written = [] ∧
      Run step (Internal fun _ => True) s answerEvents last ∧
      answerEvents.length ≤ s.work ∧ AtRest (fun _ => True) last ∧
      Delivered last := by
  obtain ⟨s, executed, seen⟩ := (Option.any_eq_true
    (fun s : Server 1 => decide (s.opt.put.length = 1 ∧ s.written = []) &&
      (answerEvents.foldlM step s).any fun last => restCheck last)
    (askEvents.foldlM (fun s event =>
      if settledCheck s event then step s event else none) small)).mp
        (by decide +kernel)
  rw [Bool.and_eq_true, decide_eq_true_eq] at seen
  obtain ⟨⟨one, nothing⟩, goesOn⟩ := seen
  obtain ⟨last, executed', checked⟩ := (Option.any_eq_true _ _).mp goesOn
  have later : Run step (Internal fun _ => True) s answerEvents last := by
    apply (Run.of_executed executed').mono_of_mem
    intro event member state _
    cases event with
    | accept => simp [answerEvents, outputEvents] at member
    | recv id bytes beyond => simp [answerEvents, outputEvents] at member
    | hangUp id => simp [answerEvents, outputEvents] at member
    | deal id files => simp [answerEvents, outputEvents] at member
    | write => exact fun _ _ _ _ => trivial
    | sendfile => exact fun _ _ _ _ => trivial
    | _ => trivial
  have rest : AtRest (fun _ => True) last := atRest_of_check checked
  obtain ⟨short, delivered⟩ :=
    (delivers (fun _ => True) (Run.of_checked settled_of_check executed)).2 _ _
      later
  refine ⟨s, last, one, nothing, later, short, rest, ?_⟩
  obtain ⟨fetching, _, receiving, _⟩ := of_decide_eq_true checked
  refine (delivered rest).resolve_left ?_
  rintro (⟨task, writing⟩ | ⟨task, busy⟩ | ⟨id, connfd, s_buf, files, dealing⟩)
  · rw [fetching] at writing
    cases writing
  · rw [fetching] at busy
    rcases busy with writing | sending
    · cases writing
    · cases sending
  · have isReceiving := receiving id
    rw [dealing] at isReceiving
    cases isReceiving

end Server
end Lab2
end CloudComputing
