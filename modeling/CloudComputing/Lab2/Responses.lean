import CloudComputing.Lab2.Server

/-!
# Where the responses go

A message carries the number of the descriptor on which its request has come.
It reaches the client that asked as long as this descriptor is open when the
output thread gets to it.  The thread of the pool closes the descriptor when
its client sends nothing more, and the next connection is given the same number.
-/

namespace CloudComputing
namespace Lab2

open RingBuffer Dealer

/-! ## Messages are addressed to the connection -/

theorem getDealer_sockfd
    (files : Files)
    (method url : Bytes)
    (sockfd : Descriptor) :
    (getDealer files method url sockfd).sockfd = sockfd := by
  unfold getDealer
  split
  · rfl
  · rfl

theorem postShow_sockfd
    {method url entity : Bytes}
    {sockfd : Descriptor}
    {task : OutPutTask}
    (answered : postShow method url entity sockfd = some task) :
    task.sockfd = sockfd := by
  unfold postShow at answered
  split at answered
  · split at answered
    · cases answered
      rfl
    · obtain ⟨name, _, answered⟩ := Option.bind_eq_some_iff.mp answered
      obtain ⟨ID, _, answered⟩ := Option.bind_eq_some_iff.mp answered
      cases answered
      rfl
  · cases answered
    rfl

theorem answer_sockfd
    {files : Files}
    {sockfd : Descriptor}
    {request : Bytes}
    {entityPos : Nat}
    {task : OutPutTask}
    (answered : answer files sockfd request entityPos = some task) :
    task.sockfd = sockfd := by
  unfold answer at answered
  obtain ⟨⟨method, rest⟩, _, answered⟩ := Option.bind_eq_some_iff.mp answered
  dsimp only at answered
  split at answered
  · cases answered
    rfl
  · obtain ⟨⟨url, _⟩, _, answered⟩ := Option.bind_eq_some_iff.mp answered
    dsimp only at answered
    split at answered
    · cases answered
      exact getDealer_sockfd files method url sockfd
    · split at answered
      · cases answered
        rfl
      · exact postShow_sockfd answered

/-- `Dealer` addresses its messages to the descriptor that it is given. -/
theorem round_sockfd
    {files : Files}
    {sockfd : Descriptor}
    {s_buf rest : Bytes}
    {task : OutPutTask}
    (answered : Dealer.round files sockfd s_buf = .answered task rest) :
    task.sockfd = sockfd := by
  unfold Dealer.round at answered
  split at answered
  · split at answered
    · cases answered
    · split at answered
      · cases answered
      · rename_i found
        cases answered
        exact answer_sockfd found
  · cases answered

/-- A call has reached the connection for which its message was enqueued. -/
def Delivery.Right (delivery : Delivery) : Prop :=
  delivery.target = some (.connection delivery.task.sockfd.connection)

namespace Server

variable {n : Nat} {s s' : Server n}

/-! ## The invariant -/

/-- Each thread uses the queues as its function does. -/
structure Roles (s : Server n) : Prop where
  accepting : ∀ side,
    (s.connections.phase .accepting).user = some side → side = .put
  fetching : ∀ id side,
    (s.connections.phase (.worker id)).user = some side →
      side = .get ∧ s.worker id = .fetching
  noOutput : (s.connections.phase .output).user = none
  noAccepting : (s.opt.phase .accepting).user = none
  putting : ∀ id side,
    (s.opt.phase (.worker id)).user = some side → side = .put
  offering : ∀ id task,
    (s.opt.phase (.worker id)).offering = some task →
      ∃ s_buf, s.worker id = .dealing task.sockfd s_buf
  output : ∀ side, (s.opt.phase .output).user = some side →
    side = .get ∧ s.output = .fetching

/-- Every connection has one place: with the accepting thread, in the queue, or
with one thread of the pool. -/
structure Held (s : Server n) : Prop where
  newest : ∀ connfd,
    (s.connections.phase .accepting).offered = some connfd →
      Alive s.table connfd ∧ connfd.connection < s.accepted ∧
        ∀ other ∈ s.connections.put, other.connection ≠ connfd.connection
  numbered : ∀ connfd ∈ s.connections.put, connfd.connection < s.accepted
  distinct : (s.connections.put.map Descriptor.connection).Nodup
  waiting : ∀ connfd ∈ s.connections.put.drop s.connections.taken.length,
    Alive s.table connfd
  got : ∀ id connfd, s.connfd id = some connfd →
    Alive s.table connfd ∧ connfd ∈ s.connections.taken
  exclusive : ∀ id other connfd connfd', id ≠ other →
    s.connfd id = some connfd → s.connfd other = some connfd' →
      connfd.connection ≠ connfd'.connection

/-- The messages that are on their way, and those that are not any more. -/
structure Messages (s : Server n) : Prop where
  queued : ∀ task ∈ s.queued, Alive s.table task.sockfd
  unwritten : ∀ task ∈ s.unwritten, Alive s.table task.sockfd
  unsent : ∀ task ∈ s.unsent, Alive s.table task.sockfd
  inOrder : s.written.map Delivery.task ++ s.unwritten.toList = s.opt.taken
  written : ∀ delivery ∈ s.written, Delivery.Right delivery
  sent : ∀ delivery ∈ s.sent, Delivery.Right delivery

/-- What holds in every state. -/
structure Placed (s : Server n) : Prop where
  connections : RingBuffer.Inv connectionsLayout size s.connections
  opt : RingBuffer.Inv optLayout size s.opt
  roles : Roles s
  held : Held s

/-- What holds in every state as long as no connection is closed too early. -/
structure Inv (s : Server n) : Prop where
  connections : RingBuffer.Inv connectionsLayout size s.connections
  opt : RingBuffer.Inv optLayout size s.opt
  roles : Roles s
  held : Held s
  messages : Messages s

theorem Inv.placed (inv : Inv s) : Placed s :=
  ⟨inv.connections, inv.opt, inv.roles, inv.held⟩

theorem Placed.inv (placed : Placed s) (messages : Messages s) : Inv s :=
  ⟨placed.connections, placed.opt, placed.roles, placed.held, messages⟩

theorem Placed.init
    (connections : Nat → Descriptor)
    (opt : Nat → OutPutTask) :
    Placed (Server.init n connections opt) where
  connections := RingBuffer.Inv.init connectionsLayout size connections
  opt := RingBuffer.Inv.init optLayout size opt
  roles :=
    { accepting := by
        intro side used
        cases used
      fetching := by
        intro id side used
        cases used
      noOutput := rfl
      noAccepting := rfl
      putting := by
        intro id side used
        cases used
      offering := by
        intro id task offered
        cases offered
      output := by
        intro side used
        cases used }
  held :=
    { newest := by
        intro connfd offered
        cases offered
      numbered := by
        intro connfd member
        cases member
      distinct := List.nodup_nil
      waiting := by
        intro connfd member
        cases member
      got := by
        intro id connfd found
        cases found
      exclusive := by
        intro id other connfd connfd' _ found
        cases found }

theorem Messages.init
    (connections : Nat → Descriptor)
    (opt : Nat → OutPutTask) :
    Messages (Server.init n connections opt) where
  queued := by
    intro task member
    cases member
  unwritten := by
    intro task member
    cases member
  unsent := by
    intro task member
    cases member
  inOrder := rfl
  written := by
    intro delivery member
    cases member
  sent := by
    intro delivery member
    cases member

/-! ## Other descriptors -/

theorem Alive.install
    {table : Table}
    {connfd : Descriptor}
    (alive : Alive table connfd)
    (object : Object) :
    Alive (table.install object) connfd :=
  Table.lookup_install alive object

/-- Under one number there is one connection. -/
theorem Alive.same
    {table : Table}
    {connfd connfd' : Descriptor}
    (alive : Alive table connfd)
    (alive' : Alive table connfd')
    (number : connfd.number = connfd'.number) :
    connfd = connfd' := by
  unfold Alive at alive alive'
  rw [number, alive'] at alive
  have connection := Object.connection.inj (Option.some.inj alive)
  cases connfd
  cases connfd'
  cases number
  cases connection
  rfl

theorem Alive.close
    {table : Table}
    {connfd closed : Descriptor}
    (alive : Alive table connfd)
    (aliveClosed : Alive table closed)
    (differs : connfd ≠ closed) :
    Alive (table.close closed.number) connfd := by
  unfold Alive
  rw [Table.lookup_close_of_ne]
  · exact alive
  · intro number
    exact differs (alive.same aliveClosed number)

/-- A step that keeps the connections where they are, and opens descriptors
only. -/
theorem Held.transfer
    (held : Held s)
    (put : s'.connections.put = s.connections.put)
    (taken : s'.connections.taken = s.connections.taken)
    (offered : (s'.connections.phase .accepting).offered =
      (s.connections.phase .accepting).offered)
    (connfds : ∀ id, s'.connfd id = s.connfd id)
    (accepted : s'.accepted = s.accepted)
    (alive : ∀ connfd, Alive s.table connfd → Alive s'.table connfd) :
    Held s' where
  newest := by
    intro connfd found
    rw [offered] at found
    rw [put, accepted]
    obtain ⟨opened, bound, new⟩ := held.newest connfd found
    exact ⟨alive connfd opened, bound, new⟩
  numbered := by
    rw [put, accepted]
    exact held.numbered
  distinct := by
    rw [put]
    exact held.distinct
  waiting := by
    intro connfd member
    rw [put, taken] at member
    exact alive connfd (held.waiting connfd member)
  got := by
    intro id connfd found
    rw [connfds] at found
    rw [taken]
    obtain ⟨opened, member⟩ := held.got id connfd found
    exact ⟨alive connfd opened, member⟩
  exclusive := by
    intro id other connfd connfd' differs found found'
    rw [connfds] at found found'
    exact held.exclusive id other connfd connfd' differs found found'

/-- A step that keeps the messages where they are, and opens descriptors
only. -/
theorem Messages.transfer
    (messages : Messages s)
    (queued : s'.queued = s.queued)
    (taken : s'.opt.taken = s.opt.taken)
    (unwritten : s'.unwritten = s.unwritten)
    (unsent : s'.unsent = s.unsent)
    (written : s'.written = s.written)
    (sent : s'.sent = s.sent)
    (alive : ∀ connfd, Alive s.table connfd → Alive s'.table connfd) :
    Messages s' where
  queued := by
    intro task member
    rw [queued] at member
    exact alive _ (messages.queued task member)
  unwritten := by
    intro task member
    rw [unwritten] at member
    exact alive _ (messages.unwritten task member)
  unsent := by
    intro task member
    rw [unsent] at member
    exact alive _ (messages.unsent task member)
  inOrder := by
    rw [written, unwritten, taken]
    exact messages.inOrder
  written := by
    rw [written]
    exact messages.written
  sent := by
    rw [sent]
    exact messages.sent

/-! ## The accepting thread -/

theorem connfd_setWorker_of_ne
    (s : Server n)
    {id other : Fin n}
    (differs : other ≠ id)
    (worker : Worker) :
    (s.setWorker id worker).connfd other = s.connfd other := by
  simp [connfd, setWorker, differs]

theorem Placed.accept
    (placed : Placed s)
    (taken : s.accept = some s') :
    Placed s' := by
  unfold Server.accept at taken
  obtain ⟨connections, started, rfl⟩ := Option.map_eq_some_iff.mp taken
  obtain ⟨⟨result, idle⟩, rfl⟩ := start_eq_some started
  have workers : ∀ id, (s.connections.go .accepting (.active .put .enter
      ⟨s.table.lowest, s.accepted⟩)).phase (.worker id) =
        s.connections.phase (.worker id) := by
    intro id
    simp
  have output : (s.connections.go .accepting (.active .put .enter
      ⟨s.table.lowest, s.accepted⟩)).phase .output =
        s.connections.phase .output := by
    simp
  have accepting : (s.connections.go .accepting (.active .put .enter
      ⟨s.table.lowest, s.accepted⟩)).phase .accepting =
        .active .put .enter ⟨s.table.lowest, s.accepted⟩ := by
    simp
  have same : ∀ id, connfd { s with
      connections := s.connections.go .accepting (.active .put .enter
        ⟨s.table.lowest, s.accepted⟩)
      table := s.table.install (.connection s.accepted)
      accepted := s.accepted + 1 } id = s.connfd id := by
    intro id
    unfold connfd
    dsimp only
    rw [workers]
  have opened : ∀ connfd, Alive s.table connfd →
      Alive (s.table.install (.connection s.accepted)) connfd := by
    intro connfd alive
    exact alive.install (.connection s.accepted)
  refine
    { connections := placed.connections.start idle .put _, opt := placed.opt
      roles := ?_, held := ?_ }
  · refine
      { accepting := ?_, fetching := ?_, noOutput := ?_
        noAccepting := placed.roles.noAccepting, putting := placed.roles.putting
        offering := placed.roles.offering, output := placed.roles.output }
    · intro side used
      rw [accepting] at used
      cases used
      rfl
    · intro id side used
      rw [workers] at used
      exact placed.roles.fetching id side used
    · rw [output]
      exact placed.roles.noOutput
  · refine
      { newest := ?_, numbered := ?_, distinct := placed.held.distinct
        waiting := ?_, got := ?_, exclusive := ?_ }
    · intro connfd offered
      rw [accepting] at offered
      cases offered
      refine ⟨Table.lookup_install_lowest s.table _, Nat.lt_succ_self _, ?_⟩
      intro other member
      exact Nat.ne_of_lt (placed.held.numbered other member)
    · intro connfd member
      exact Nat.lt_succ_of_lt (placed.held.numbered connfd member)
    · intro connfd member
      exact opened connfd (placed.held.waiting connfd member)
    · intro id connfd found
      rw [same] at found
      obtain ⟨alive, taken⟩ := placed.held.got id connfd found
      exact ⟨opened connfd alive, taken⟩
    · intro id other connfd connfd' differs found found'
      rw [same] at found found'
      exact placed.held.exclusive id other connfd connfd' differs found found'

theorem Messages.accept
    (messages : Messages s)
    (taken : s.accept = some s') :
    Messages s' := by
  unfold Server.accept at taken
  obtain ⟨connections, started, rfl⟩ := Option.map_eq_some_iff.mp taken
  refine messages.transfer rfl rfl rfl rfl rfl rfl ?_
  intro connfd alive
  exact alive.install (.connection s.accepted)

/-! ## Steps with the queues -/

/-- A step with `Connections` leaves the roles as they are. -/
theorem Roles.useConnections
    (roles : Roles s)
    {thread : Thread n}
    {connections : State (Thread n) Descriptor}
    (moved : Moved connectionsLayout size s.connections thread connections) :
    Roles { s with connections := connections } := by
  refine
    { accepting := ?_, fetching := ?_
      noOutput := moved.user_eq_none roles.noOutput
      noAccepting := roles.noAccepting, putting := roles.putting
      offering := roles.offering, output := roles.output }
  · intro side used
    exact roles.accepting side (moved.user_of_user used)
  · intro id side used
    exact roles.fetching id side (moved.user_of_user used)

theorem drop_append_of_prefix
    {α : Type*}
    {taken put : List α}
    (inOrder : taken <+: put)
    (item : α) :
    (put ++ [item]).drop taken.length = put.drop taken.length ++ [item] :=
  List.drop_append_of_le_length inOrder.length_le

/-- The item that is got out next is the first one that is still in. -/
theorem next_mem
    {α : Type*}
    {taken put : List α}
    {item : α}
    (inOrder : taken ++ [item] <+: put) :
    item ∈ put.drop taken.length ∧
      ∀ other ∈ put.drop (taken ++ [item]).length,
        other ∈ put.drop taken.length := by
  obtain ⟨later, rfl⟩ := inOrder
  rw [List.append_assoc, List.drop_left]
  refine ⟨List.mem_cons_self, ?_⟩
  intro other member
  rw [← List.append_assoc, List.drop_left] at member
  exact List.mem_cons_of_mem item member

/-- The accepting thread hands its connection over. -/
theorem Held.put
    (held : Held s)
    {handed : Descriptor}
    {connections : State (Thread n) Descriptor}
    (inOrder : s.connections.taken <+: s.connections.put)
    (put : connections.put = s.connections.put ++ [handed])
    (taken : connections.taken = s.connections.taken)
    (offered : (s.connections.phase .accepting).offered = some handed)
    (nothing : (connections.phase .accepting).offered = none)
    (connfds : ∀ id,
      Server.connfd { s with connections := connections } id = s.connfd id) :
    Held { s with connections := connections } := by
  obtain ⟨alive, bound, new⟩ := held.newest handed offered
  refine
    { newest := ?_, numbered := ?_, distinct := ?_, waiting := ?_, got := ?_
      exclusive := ?_ }
  · intro other found
    rw [nothing] at found
    cases found
  · intro other member
    rw [put, List.mem_append, List.mem_singleton] at member
    rcases member with member | rfl
    · exact held.numbered other member
    · exact bound
  · rw [put, List.map_append, List.nodup_append]
    refine ⟨held.distinct, List.nodup_singleton _, ?_⟩
    intro number member other isNew
    obtain ⟨old, listed, rfl⟩ := List.mem_map.mp member
    rw [List.map_singleton, List.mem_singleton] at isNew
    rw [isNew]
    exact new old listed
  · intro other member
    rw [put, taken, drop_append_of_prefix inOrder, List.mem_append,
      List.mem_singleton] at member
    rcases member with member | rfl
    · exact held.waiting other member
    · exact alive
  · intro id other found
    rw [connfds] at found
    rw [taken]
    exact held.got id other found
  · intro id other connfd connfd' differs found found'
    rw [connfds] at found found'
    exact held.exclusive id other connfd connfd' differs found found'

/-- A thread of the pool gets the connection that is next. -/
theorem Held.get
    (held : Held s)
    {id : Fin n}
    {item : Descriptor}
    {connections : State (Thread n) Descriptor}
    (inOrder : s.connections.taken ++ [item] <+: s.connections.put)
    (put : connections.put = s.connections.put)
    (taken : connections.taken = s.connections.taken ++ [item])
    (accepting : connections.phase .accepting = s.connections.phase .accepting)
    (own : Server.connfd { s with connections := connections } id = some item)
    (others : ∀ other, other ≠ id →
      Server.connfd { s with connections := connections } other =
        s.connfd other) :
    Held { s with connections := connections } := by
  obtain ⟨next, rest⟩ := next_mem inOrder
  have distinct : ((s.connections.taken ++ [item]).map
      Descriptor.connection).Nodup :=
    held.distinct.sublist (inOrder.sublist.map _)
  have fresh : ∀ old ∈ s.connections.taken,
      old.connection ≠ item.connection := by
    intro old member
    rw [List.map_append, List.nodup_append] at distinct
    exact distinct.2.2 _ (List.mem_map_of_mem member) _ (by simp)
  refine
    { newest := ?_, numbered := ?_, distinct := ?_, waiting := ?_, got := ?_
      exclusive := ?_ }
  · intro other offered
    rw [accepting] at offered
    rw [put]
    exact held.newest other offered
  · rw [put]
    exact held.numbered
  · rw [put]
    exact held.distinct
  · intro other member
    rw [put, taken] at member
    exact held.waiting other (rest other member)
  · intro other connfd found
    rw [taken]
    by_cases same : other = id
    · subst same
      rw [own] at found
      cases found
      exact ⟨held.waiting item next, by simp⟩
    · rw [others other same] at found
      obtain ⟨alive, member⟩ := held.got other connfd found
      exact ⟨alive, List.mem_append_left _ member⟩
  · intro first second connfd connfd' differs found found'
    by_cases same : first = id
    · subst same
      rw [own] at found
      rw [others second (Ne.symm differs)] at found'
      cases found
      exact (fresh connfd' (held.got second connfd' found').2).symm
    · rw [others first same] at found
      by_cases same' : second = id
      · subst same'
        rw [own] at found'
        cases found'
        exact fresh connfd (held.got first connfd found).2
      · rw [others second same'] at found'
        exact held.exclusive first second connfd connfd' differs found found'

theorem Held.useConnections
    (roles : Roles s)
    (held : Held s)
    {thread : Thread n}
    {connections : State (Thread n) Descriptor}
    (before : RingBuffer.Inv connectionsLayout size s.connections)
    (after : RingBuffer.Inv connectionsLayout size connections)
    (moved : Moved connectionsLayout size s.connections thread connections) :
    Held { s with connections := connections } := by
  have connfd_of_ne : ∀ id, .worker id ≠ thread →
      Server.connfd { s with connections := connections } id = s.connfd id := by
    intro id differs
    unfold Server.connfd
    dsimp only
    rw [moved.others differs]
  cases thread with
  | output => exact absurd roles.noOutput moved.user.1
  | accepting =>
      have connfds := fun id =>
        connfd_of_ne id (show Thread.worker id ≠ .accepting by simp)
      cases moved.effect with
      | quiet put taken offered acquired =>
          exact held.transfer put taken offered connfds rfl fun _ alive => alive
      | put item user put taken offered nothing acquired =>
          exact held.put before.inOrder put taken offered nothing connfds
      | get item user put taken offered nothing acquired =>
          cases roles.accepting .get user
  | worker id =>
      have accepting : connections.phase .accepting =
          s.connections.phase .accepting :=
        moved.others (by simp)
      cases moved.effect with
      | quiet put taken offered acquired =>
          have connfds : ∀ other,
              Server.connfd { s with connections := connections } other =
                s.connfd other := by
            intro other
            by_cases same : other = id
            · subst same
              unfold Server.connfd
              dsimp only
              rw [acquired]
            · exact connfd_of_ne other (by simpa using same)
          exact held.transfer put taken (by rw [accepting]) connfds rfl
            fun _ alive => alive
      | put item user put taken offered nothing acquired =>
          cases (roles.fetching id .put user).1
      | get item user put taken offered nothing acquired =>
          have inOrder := after.inOrder
          rw [put, taken] at inOrder
          have own : Server.connfd { s with connections := connections } id =
              some item := by
            unfold Server.connfd
            dsimp only
            rw [(roles.fetching id .get user).2]
            exact acquired
          apply held.get inOrder put taken accepting own
          intro other differs
          exact connfd_of_ne other (by simpa using differs)

theorem Placed.useConnections
    (placed : Placed s)
    {thread : Thread n}
    {connections : State (Thread n) Descriptor}
    (taken : s.connections.next connectionsLayout size thread =
      some connections) :
    Placed { s with connections := connections } := by
  have moved := moved_of_next taken
  have after := placed.connections.moved moved
  exact
    { connections := after
      opt := placed.opt
      roles := placed.roles.useConnections moved
      held := placed.held.useConnections placed.roles placed.connections after
        moved }

/-- A step with `opt` leaves the roles as they are. -/
theorem Roles.useOpt
    (roles : Roles s)
    {thread : Thread n}
    {opt : State (Thread n) OutPutTask}
    (moved : Moved optLayout size s.opt thread opt) :
    Roles { s with opt := opt } := by
  refine
    { accepting := roles.accepting, fetching := roles.fetching
      noOutput := roles.noOutput
      noAccepting := moved.user_eq_none roles.noAccepting, putting := ?_
      offering := ?_, output := ?_ }
  · intro id side used
    exact roles.putting id side (moved.user_of_user used)
  · intro id task offered
    exact roles.offering id task (moved.offering_of_offering offered)
  · intro side used
    exact roles.output side (moved.user_of_user used)

theorem offering_of_offered
    {α : Type*}
    {phase : Phase α}
    {item : α}
    (offered : phase.offered = some item) :
    phase.offering = some item := by
  cases phase with
  | idle result => cases offered
  | active side point item' =>
      cases side with
      | put => cases point <;> first | exact offered | cases offered
      | get => cases point <;> cases offered

/-- The connection of a message that is being enqueued is open. -/
theorem Placed.alive_of_offered
    (placed : Placed s)
    {id : Fin n}
    {task : OutPutTask}
    (offered : (s.opt.phase (.worker id)).offered = some task) :
    Alive s.table task.sockfd := by
  obtain ⟨s_buf, dealing⟩ :=
    placed.roles.offering id task (offering_of_offered offered)
  have found : s.connfd id = some task.sockfd := by
    unfold connfd
    rw [dealing]
  exact (placed.held.got id task.sockfd found).1

theorem queued_eq
    {opt : State (Thread n) OutPutTask}
    (put : opt.put = s.opt.put)
    (taken : opt.taken = s.opt.taken) :
    Server.queued { s with opt := opt } = s.queued := by
  unfold Server.queued
  dsimp only
  rw [put, taken]

theorem Inv.useOpt
    (inv : Inv s)
    {thread : Thread n}
    {opt : State (Thread n) OutPutTask}
    (stepped : s.opt.next optLayout size thread = some opt) :
    Messages { s with opt := opt } := by
  have moved := moved_of_next stepped
  have messages := inv.messages
  have after := inv.opt.moved moved
  cases thread with
  | accepting => exact absurd inv.roles.noAccepting moved.user.1
  | worker id =>
      have output : opt.phase .output = s.opt.phase .output :=
        moved.others (by simp)
      have unwritten : Server.unwritten { s with opt := opt } =
          s.unwritten := by
        unfold Server.unwritten
        dsimp only
        rw [output]
      cases moved.effect with
      | quiet put taken offered acquired =>
          exact messages.transfer (queued_eq put taken) taken unwritten rfl rfl
            rfl fun _ alive => alive
      | put task user put taken offered nothing acquired =>
          have queued : Server.queued { s with opt := opt } =
              s.queued ++ [task] := by
            unfold Server.queued
            dsimp only
            rw [put, taken, drop_append_of_prefix inv.opt.inOrder]
          refine
            { queued := ?_, unwritten := ?_, unsent := messages.unsent
              inOrder := ?_, written := messages.written
              sent := messages.sent }
          · intro other member
            rw [queued, List.mem_append, List.mem_singleton] at member
            rcases member with member | rfl
            · exact messages.queued other member
            · exact inv.placed.alive_of_offered offered
          · rw [unwritten]
            exact messages.unwritten
          · rw [unwritten]
            change _ = opt.taken
            rw [taken]
            exact messages.inOrder
      | get task user put taken offered nothing acquired =>
          cases inv.roles.putting id .get user
  | output =>
      obtain ⟨side, user⟩ := Option.ne_none_iff_exists'.mp moved.user.1
      obtain ⟨rfl, fetching⟩ := inv.roles.output side user
      have now : Server.unwritten { s with opt := opt } =
          (opt.phase .output).acquired := by
        unfold Server.unwritten
        dsimp only
        rw [fetching]
      have before : s.unwritten = (s.opt.phase .output).acquired := by
        unfold Server.unwritten
        rw [fetching]
      cases moved.effect with
      | quiet put taken offered acquired =>
          have unwritten : Server.unwritten { s with opt := opt } =
              s.unwritten := by
            rw [now, before, acquired]
          exact messages.transfer (queued_eq put taken) taken unwritten rfl rfl
            rfl fun _ alive => alive
      | put task user' put taken offered nothing acquired =>
          rw [user] at user'
          cases user'
      | get task user' put taken offered nothing acquired =>
          have inOrder := after.inOrder
          rw [put, taken] at inOrder
          obtain ⟨next, rest⟩ := next_mem inOrder
          have inMessages := messages.inOrder
          rw [before, nothing, Option.toList_none, List.append_nil]
            at inMessages
          refine
            { queued := ?_, unwritten := ?_, unsent := messages.unsent
              inOrder := ?_, written := messages.written
              sent := messages.sent }
          · intro other member
            change other ∈ opt.put.drop opt.taken.length at member
            rw [put, taken] at member
            exact messages.queued other (rest other member)
          · intro other member
            rw [now, acquired] at member
            obtain rfl : task = other := Option.some.inj member
            exact messages.queued task next
          · rw [now, acquired]
            change s.written.map Delivery.task ++ [task] = opt.taken
            rw [inMessages, taken]

theorem Placed.useOpt
    (placed : Placed s)
    {thread : Thread n}
    {opt : State (Thread n) OutPutTask}
    (taken : s.opt.next optLayout size thread = some opt) :
    Placed { s with opt := opt } := by
  have moved := moved_of_next taken
  exact
    { connections := placed.connections
      opt := placed.opt.moved moved
      roles := placed.roles.useOpt moved
      held := placed.held.transfer rfl rfl rfl (fun _ => rfl) rfl
        fun _ alive => alive }

/-! ## The threads of the pool -/

theorem connfd_setWorker_self
    (s : Server n)
    (id : Fin n)
    (worker : Worker) :
    (s.setWorker id worker).worker id = worker := by
  simp [setWorker]

theorem Roles.not_using
    (roles : Roles s)
    (id : Fin n)
    (elsewhere : s.worker id ≠ .fetching) :
    (s.connections.phase (.worker id)).user = none := by
  cases used : (s.connections.phase (.worker id)).user with
  | none => rfl
  | some side => exact absurd (roles.fetching id side used).2 elsewhere

theorem Roles.not_offering
    (roles : Roles s)
    (id : Fin n)
    (elsewhere : ∀ connfd s_buf, s.worker id ≠ .dealing connfd s_buf) :
    (s.opt.phase (.worker id)).offering = none := by
  cases offered : (s.opt.phase (.worker id)).offering with
  | none => rfl
  | some task =>
      obtain ⟨s_buf, dealing⟩ := roles.offering id task offered
      exact absurd dealing (elsewhere task.sockfd s_buf)

/-- A thread that uses neither queue may go where it likes. -/
theorem Roles.setWorker
    (roles : Roles s)
    {id : Fin n}
    (idle : (s.connections.phase (.worker id)).user = none)
    (nothing : (s.opt.phase (.worker id)).offering = none)
    (worker : Worker) :
    Roles (s.setWorker id worker) where
  accepting := roles.accepting
  fetching := by
    intro other side used
    change (s.connections.phase (.worker other)).user = some side at used
    by_cases same : other = id
    · rw [same, idle] at used
      cases used
    · obtain ⟨side, fetching⟩ := roles.fetching other side used
      refine ⟨side, ?_⟩
      simpa [Server.setWorker, same] using fetching
  noOutput := roles.noOutput
  noAccepting := roles.noAccepting
  putting := roles.putting
  offering := by
    intro other task offered
    change (s.opt.phase (.worker other)).offering = some task at offered
    by_cases same : other = id
    · rw [same, nothing] at offered
      cases offered
    · obtain ⟨s_buf, dealing⟩ := roles.offering other task offered
      refine ⟨s_buf, ?_⟩
      simpa [Server.setWorker, same] using dealing
  output := roles.output

/-- A thread of the pool that keeps its connection. -/
theorem Held.setWorker
    (held : Held s)
    {id : Fin n}
    {worker : Worker}
    (same : (s.setWorker id worker).connfd id = s.connfd id) :
    Held (s.setWorker id worker) := by
  refine held.transfer rfl rfl rfl ?_ rfl fun _ alive => alive
  intro other
  by_cases own : other = id
  · rw [own, same]
  · exact connfd_setWorker_of_ne s own worker

theorem Placed.setWorker
    (placed : Placed s)
    {id : Fin n}
    {worker : Worker}
    (idle : (s.connections.phase (.worker id)).user = none)
    (nothing : (s.opt.phase (.worker id)).offering = none)
    (same : (s.setWorker id worker).connfd id = s.connfd id) :
    Placed (s.setWorker id worker) where
  connections := placed.connections
  opt := placed.opt
  roles := placed.roles.setWorker idle nothing worker
  held := placed.held.setWorker same

theorem Placed.getTask
    (placed : Placed s)
    {id : Fin n}
    (taken : s.step (.getTask id) = some s') :
    Placed s' := by
  simp only [Server.step] at taken
  split at taken
  · rename_i ready
    obtain ⟨connections, started, rfl⟩ := Option.map_eq_some_iff.mp taken
    obtain ⟨⟨result, found⟩, rfl⟩ := start_eq_some started
    have others : ∀ other, other ≠ .worker id →
        (s.connections.go (.worker id) (.active .get .enter ⟨0, 0⟩)).phase
          other = s.connections.phase other := by
      intro other differs
      rw [State.go_phase, Function.update_of_ne differs]
    have idle := placed.roles.not_using id (by rw [ready]; simp)
    have nothing := placed.roles.not_offering id (by rw [ready]; simp)
    have roles := placed.roles.setWorker idle nothing .fetching
    refine
      { connections := placed.connections.start found .get ⟨0, 0⟩
        opt := placed.opt, roles := ?_, held := ?_ }
    · refine
        { accepting := ?_, fetching := ?_, noOutput := ?_
          noAccepting := roles.noAccepting, putting := roles.putting
          offering := roles.offering, output := roles.output }
      · intro side used
        rw [others .accepting (by simp)] at used
        exact roles.accepting side used
      · intro other side used
        by_cases same : other = id
        · subst same
          rw [State.go_phase, Function.update_self] at used
          cases used
          exact ⟨rfl, connfd_setWorker_self s other .fetching⟩
        · rw [others (.worker other) (by simpa using same)] at used
          exact roles.fetching other side used
      · rw [others .output (by simp)]
        exact roles.noOutput
    · refine placed.held.transfer rfl rfl ?_ ?_ rfl fun _ alive => alive
      · rw [others .accepting (by simp)]
      · intro other
        by_cases same : other = id
        · subst same
          simp [connfd, Server.setWorker, ready, Phase.acquired]
        · unfold connfd
          dsimp only
          rw [others (.worker other) (by simpa using same)]
          simp [Server.setWorker, same]
  · cases taken

theorem Placed.gotTask
    (placed : Placed s)
    {id : Fin n}
    (taken : s.step (.gotTask id) = some s') :
    Placed s' := by
  simp only [Server.step] at taken
  split at taken
  · rename_i got fetching idle
    cases taken
    apply placed.setWorker
    · rw [idle]
      rfl
    · exact placed.roles.not_offering id (by rw [fetching]; simp)
    · simp [connfd, Server.setWorker, fetching, idle, Phase.acquired]
  · cases taken

theorem Placed.recv
    (placed : Placed s)
    {id : Fin n}
    {bytes beyond : Bytes}
    (taken : s.step (.recv id bytes beyond) = some s') :
    Placed s' := by
  simp only [Server.step] at taken
  split at taken
  · rename_i connfd receiving
    split at taken
    · cases taken
    · cases taken
      have moved : Placed (s.setWorker id
          (.dealing connfd (dealt (s.recv_buf id) beyond bytes))) := by
        apply placed.setWorker
        · exact placed.roles.not_using id (by rw [receiving]; simp)
        · exact placed.roles.not_offering id (by rw [receiving]; simp)
        · simp [Server.connfd, Server.setWorker, receiving]
      exact
        { connections := moved.connections
          opt := moved.opt
          roles := ⟨moved.roles.accepting, moved.roles.fetching,
            moved.roles.noOutput, moved.roles.noAccepting,
            moved.roles.putting, moved.roles.offering, moved.roles.output⟩
          held := moved.held.transfer rfl rfl rfl (fun _ => rfl) rfl
            fun _ alive => alive }
  · cases taken

/-- The connection that is closed is not in another place. -/
theorem Placed.hangUp
    (placed : Placed s)
    {id : Fin n}
    (taken : s.step (.hangUp id) = some s') :
    Placed s' := by
  simp only [Server.step] at taken
  split at taken
  · rename_i closed receiving
    cases taken
    have own : s.connfd id = some closed := by
      simp [connfd, receiving]
    obtain ⟨alive, got⟩ := placed.held.got id closed own
    have idle := placed.roles.not_using id (by rw [receiving]; simp)
    have nothing := placed.roles.not_offering id
      (by rw [receiving]; simp)
    have roles := placed.roles.setWorker idle nothing .ready
    have closedPut : closed ∈ s.connections.put :=
      placed.connections.inOrder.subset got
    have gone : (s.setWorker id .ready).connfd id = none := by
      simp [connfd, Server.setWorker]
    refine
      { connections := placed.connections, opt := placed.opt
        roles := ⟨roles.accepting, roles.fetching, roles.noOutput,
          roles.noAccepting, roles.putting, roles.offering, roles.output⟩
        held := ?_ }
    refine
      { newest := ?_, numbered := placed.held.numbered
        distinct := placed.held.distinct, waiting := ?_, got := ?_
        exclusive := ?_ }
    · intro connfd offered
      obtain ⟨opened, bound, new⟩ := placed.held.newest connfd offered
      refine ⟨opened.close alive ?_, bound, new⟩
      rintro rfl
      exact new connfd closedPut rfl
    · intro connfd waiting
      refine (placed.held.waiting connfd waiting).close alive ?_
      rintro rfl
      obtain ⟨later, split⟩ := placed.connections.inOrder
      have distinct := placed.held.distinct
      change connfd ∈ s.connections.put.drop s.connections.taken.length
        at waiting
      rw [← split, List.drop_left] at waiting
      rw [← split, List.map_append, List.nodup_append] at distinct
      exact distinct.2.2 _ (List.mem_map_of_mem got) _
        (List.mem_map_of_mem waiting) rfl
    · intro other connfd found
      change (s.setWorker id .ready).connfd other = some connfd at found
      by_cases same : other = id
      · rw [same, gone] at found
        cases found
      · rw [connfd_setWorker_of_ne s same] at found
        obtain ⟨opened, member⟩ := placed.held.got other connfd found
        refine ⟨opened.close alive ?_, member⟩
        rintro rfl
        exact placed.held.exclusive other id connfd connfd same found own rfl
    · intro first second connfd connfd' differs found found'
      change (s.setWorker id .ready).connfd first = some connfd at found
      change (s.setWorker id .ready).connfd second = some connfd' at found'
      by_cases same : first = id
      · rw [same, gone] at found
        cases found
      · by_cases same' : second = id
        · rw [same', gone] at found'
          cases found'
        · rw [connfd_setWorker_of_ne s same] at found
          rw [connfd_setWorker_of_ne s same'] at found'
          exact placed.held.exclusive first second connfd connfd' differs found
            found'
  · cases taken

/-- A connection is closed when no message for it is on its way. -/
theorem Inv.hangUp
    (inv : Inv s)
    {id : Fin n}
    (settled : Settled s (.hangUp id))
    (taken : s.step (.hangUp id) = some s') :
    Messages s' := by
  simp only [Server.step] at taken
  split at taken
  · rename_i closed receiving
    cases taken
    have own : s.connfd id = some closed := by
      simp [connfd, receiving]
    obtain ⟨alive, _⟩ := inv.held.got id closed own
    obtain ⟨queued, unwritten, unsent⟩ := settled closed own
    refine
      { queued := ?_, unwritten := ?_, unsent := ?_
        inOrder := inv.messages.inOrder, written := inv.messages.written
        sent := inv.messages.sent }
    · intro task member
      exact (inv.messages.queued task member).close alive
        (queued task member)
    · intro task member
      exact (inv.messages.unwritten task member).close alive
        (unwritten task member)
    · intro task member
      exact (inv.messages.unsent task member).close alive
        (unsent task member)
  · cases taken

theorem Alive.deal
    {table : Table}
    {connfd : Descriptor}
    (alive : Alive table connfd)
    (task : OutPutTask) :
    Alive (if task.type = 0 then table.install .file else table) connfd := by
  split
  · exact alive.install .file
  · exact alive

theorem Placed.deal
    (placed : Placed s)
    {id : Fin n}
    {files : Files}
    (taken : s.deal id files = some s') :
    Placed s' := by
  unfold Server.deal at taken
  split at taken
  · rename_i connfd s_buf result dealing found
    have idle := placed.roles.not_using id (by rw [dealing]; simp)
    have nothing : (s.opt.phase (.worker id)).offering = none := by
      rw [found]
      rfl
    split at taken
    · cases taken
      apply placed.setWorker idle nothing
      simp [Server.connfd, Server.setWorker, dealing]
    · cases taken
      exact placed
    · cases taken
    · rename_i task rest answered
      obtain ⟨opt, started, rfl⟩ := Option.map_eq_some_iff.mp taken
      obtain ⟨_, rfl⟩ := start_eq_some started
      have sockfd : task.sockfd = connfd := round_sockfd answered
      have others : ∀ other, other ≠ .worker id →
          (s.opt.go (.worker id) (.active .put .enter task)).phase other =
            s.opt.phase other := by
        intro other differs
        rw [State.go_phase, Function.update_of_ne differs]
      have roles := placed.roles.setWorker idle nothing (.dealing connfd rest)
      refine
        { connections := placed.connections
          opt := placed.opt.start found .put task
          roles := ?_, held := ?_ }
      · refine
          { accepting := roles.accepting, fetching := roles.fetching
            noOutput := roles.noOutput, noAccepting := ?_, putting := ?_
            offering := ?_, output := ?_ }
        · rw [others .accepting (by simp)]
          exact roles.noAccepting
        · intro other side used
          by_cases same : other = id
          · subst same
            rw [State.go_phase, Function.update_self] at used
            cases used
            rfl
          · rw [others (.worker other) (by simpa using same)] at used
            exact roles.putting other side used
        · intro other task' offered
          by_cases same : other = id
          · subst same
            rw [State.go_phase, Function.update_self] at offered
            cases offered
            rw [sockfd]
            exact ⟨rest, connfd_setWorker_self s other _⟩
          · rw [others (.worker other) (by simpa using same)] at offered
            exact roles.offering other task' offered
        · intro side used
          rw [others .output (by simp)] at used
          exact roles.output side used
      · refine placed.held.transfer rfl rfl rfl ?_ rfl
          fun _ alive => alive.deal task
        intro other
        by_cases same : other = id
        · subst same
          simp [Server.connfd, Server.setWorker, dealing]
        · exact connfd_setWorker_of_ne s same _
  · cases taken

theorem Messages.deal
    (messages : Messages s)
    {id : Fin n}
    {files : Files}
    (taken : s.deal id files = some s') :
    Messages s' := by
  unfold Server.deal at taken
  split at taken
  · split at taken
    · cases taken
      exact messages.transfer rfl rfl rfl rfl rfl rfl fun _ alive => alive
    · cases taken
      exact messages
    · cases taken
    · rename_i task rest answered
      obtain ⟨opt, started, rfl⟩ := Option.map_eq_some_iff.mp taken
      obtain ⟨_, rfl⟩ := start_eq_some started
      refine messages.transfer rfl rfl ?_ rfl rfl rfl
        fun _ alive => alive.deal task
      have output : (s.opt.go (.worker id) (.active .put .enter task)).phase
          .output = s.opt.phase .output := by
        simp
      unfold Server.unwritten
      dsimp only
      rw [output]
      rfl
  · cases taken

/-! ## The output thread -/

theorem Placed.getTaskOut
    (placed : Placed s)
    (taken : s.step .getTaskOut = some s') :
    Placed s' := by
  simp only [Server.step] at taken
  split at taken
  · obtain ⟨opt, started, rfl⟩ := Option.map_eq_some_iff.mp taken
    obtain ⟨⟨result, found⟩, rfl⟩ := start_eq_some started
    have others : ∀ other, other ≠ .output →
        (s.opt.go .output (.active .get .enter ⟨0, [], ⟨0, 0⟩, []⟩)).phase
          other = s.opt.phase other := by
      intro other differs
      rw [State.go_phase, Function.update_of_ne differs]
    have own : (s.opt.go .output
        (.active .get .enter ⟨0, [], ⟨0, 0⟩, []⟩)).phase .output =
          .active .get .enter ⟨0, [], ⟨0, 0⟩, []⟩ := by
      simp
    refine
      { connections := placed.connections, opt := placed.opt.start found .get _
        roles := ?_, held := ?_ }
    · refine
        { accepting := placed.roles.accepting
          fetching := placed.roles.fetching
          noOutput := placed.roles.noOutput, noAccepting := ?_, putting := ?_
          offering := ?_, output := ?_ }
      · rw [others .accepting (by simp)]
        exact placed.roles.noAccepting
      · intro id side used
        rw [others (.worker id) (by simp)] at used
        exact placed.roles.putting id side used
      · intro id task offered
        rw [others (.worker id) (by simp)] at offered
        exact placed.roles.offering id task offered
      · intro side used
        rw [own] at used
        cases used
        exact ⟨rfl, rfl⟩
    · exact placed.held.transfer rfl rfl rfl (fun _ => rfl) rfl
        fun _ alive => alive
  · cases taken

theorem Messages.getTaskOut
    (messages : Messages s)
    (taken : s.step .getTaskOut = some s') :
    Messages s' := by
  simp only [Server.step] at taken
  split at taken
  · rename_i ready
    obtain ⟨opt, started, rfl⟩ := Option.map_eq_some_iff.mp taken
    obtain ⟨_, rfl⟩ := start_eq_some started
    have own : (s.opt.go .output
        (.active .get .enter ⟨0, [], ⟨0, 0⟩, []⟩)).phase .output =
          .active .get .enter ⟨0, [], ⟨0, 0⟩, []⟩ := by
      simp
    refine messages.transfer rfl rfl ?_ ?_ rfl rfl fun _ alive => alive
    · unfold Server.unwritten
      dsimp only
      rw [own, ready]
      rfl
    · unfold Server.unsent
      dsimp only
      rw [ready]
  · cases taken

/-- Where the output thread does not use the queue it may go on. -/
theorem Roles.setOutput
    (roles : Roles s)
    (idle : (s.opt.phase .output).user = none)
    (output : Output)
    (table : Table)
    (written sent : List Delivery) :
    Roles { s with
      output := output, table := table, written := written, sent := sent } where
  accepting := roles.accepting
  fetching := roles.fetching
  noOutput := roles.noOutput
  noAccepting := roles.noAccepting
  putting := roles.putting
  offering := roles.offering
  output := by
    intro side used
    change (s.opt.phase .output).user = some side at used
    rw [idle] at used
    cases used

theorem Roles.not_fetching
    (roles : Roles s)
    (elsewhere : s.output ≠ .fetching) :
    (s.opt.phase .output).user = none := by
  cases used : (s.opt.phase .output).user with
  | none => rfl
  | some side => exact absurd (roles.output side used).2 elsewhere

/-- Where the output thread does not use the queue, it closes nothing. -/
theorem Placed.setOutput
    (placed : Placed s)
    (idle : (s.opt.phase .output).user = none)
    (output : Output)
    {table : Table}
    (alive : ∀ connfd, Alive s.table connfd → Alive table connfd)
    (written sent : List Delivery) :
    Placed { s with
      output := output, table := table, written := written, sent := sent } where
  connections := placed.connections
  opt := placed.opt
  roles := placed.roles.setOutput idle output table written sent
  held := placed.held.transfer rfl rfl rfl (fun _ => rfl) rfl alive

/-- The steps of the output thread behind `getTaskOut`. -/
theorem Placed.output
    (placed : Placed s)
    {event : ServerEvent n}
    (isOutput : event = .gotTaskOut ∨ event = .write ∨
      (∃ found, event = .openFile found) ∨ event = .sendfile)
    (taken : s.step event = some s') :
    Placed s' := by
  rcases isOutput with rfl | rfl | ⟨found, rfl⟩ | rfl
  · simp only [Server.step] at taken
    split at taken
    · rename_i task fetching found
      cases taken
      apply placed.setOutput (by rw [found]; rfl) (.writing task)
      exact fun _ alive => alive
    · cases taken
  · change s.write = some s' at taken
    unfold Server.write at taken
    split at taken
    · rename_i task writing
      split at taken
      · cases taken
        apply placed.setOutput
          (placed.roles.not_fetching (by rw [writing]; simp))
        exact fun _ alive => alive
      · cases taken
    · cases taken
  · simp only [Server.step] at taken
    split at taken
    · rename_i task opening
      have idle := placed.roles.not_fetching (by rw [opening]; simp)
      split at taken
      · cases taken
        apply placed.setOutput idle (.sending task)
        exact fun _ alive => alive.install .file
      · cases taken
        apply placed.setOutput idle .ready
        exact fun _ alive => alive
    · cases taken
  · simp only [Server.step] at taken
    split at taken
    · rename_i task sending
      cases taken
      apply placed.setOutput
        (placed.roles.not_fetching (by rw [sending]; simp))
      exact fun _ alive => alive
    · cases taken

theorem Messages.gotTaskOut
    (messages : Messages s)
    (taken : s.step .gotTaskOut = some s') :
    Messages s' := by
  simp only [Server.step] at taken
  split at taken
  · rename_i task fetching found
    cases taken
    refine messages.transfer rfl rfl ?_ ?_ rfl rfl fun _ alive => alive
    · unfold Server.unwritten
      dsimp only
      rw [fetching, found]
      rfl
    · unfold Server.unsent
      dsimp only
      rw [fetching]
  · cases taken

theorem unwritten_ready_or_opening
    (s : Server n)
    (task : OutPutTask)
    (written : List Delivery) :
    unwritten { s with
      written := written
      output := if task.type = 0 then .opening task else .ready } = none := by
  unfold unwritten
  by_cases file : task.type = 0
  · simp [file]
  · simp [file]

theorem unsent_ready_or_opening
    {s : Server n}
    {task other : OutPutTask}
    {written : List Delivery}
    (member : other ∈ unsent { s with
      written := written
      output := if task.type = 0 then .opening task else .ready }) :
    other = task := by
  unfold unsent at member
  by_cases file : task.type = 0
  · simpa [file, eq_comm] using member
  · simp [file] at member

/-- The message is written to its connection. -/
theorem Messages.write
    (messages : Messages s)
    (taken : s.write = some s') :
    Messages s' := by
  unfold Server.write at taken
  split at taken
  · rename_i task writing
    split at taken
    · cases taken
      have unwritten : s.unwritten = some task := by
        simp [Server.unwritten, writing]
      have alive : Alive s.table task.sockfd :=
        messages.unwritten task (by rw [unwritten]; rfl)
      refine
        { queued := messages.queued, unwritten := ?_, unsent := ?_
          inOrder := ?_, written := ?_, sent := messages.sent }
      · intro other member
        rw [unwritten_ready_or_opening] at member
        cases member
      · intro other member
        rw [unsent_ready_or_opening member]
        exact alive
      · have before := messages.inOrder
        rw [unwritten] at before
        rw [unwritten_ready_or_opening, List.map_append]
        simpa using before
      · intro delivery member
        rw [List.mem_append, List.mem_singleton] at member
        rcases member with member | rfl
        · exact messages.written delivery member
        · exact alive
    · cases taken
  · cases taken

theorem Messages.openFile
    (messages : Messages s)
    {found : Bool}
    (taken : s.step (.openFile found) = some s') :
    Messages s' := by
  simp only [Server.step] at taken
  split at taken
  · rename_i task opening
    have unwritten : s.unwritten = none := by
      simp [Server.unwritten, opening]
    have unsent : s.unsent = some task := by
      simp [Server.unsent, opening]
    split at taken
    · cases taken
      exact messages.transfer rfl rfl unwritten.symm unsent.symm rfl rfl
        fun _ alive => alive.install .file
    · cases taken
      refine
        { queued := messages.queued, unwritten := ?_, unsent := ?_
          inOrder := ?_, written := messages.written
          sent := messages.sent }
      · intro other member
        cases member
      · intro other member
        cases member
      · have before := messages.inOrder
        rw [unwritten] at before
        exact before
  · cases taken

/-- The file is sent to the connection. -/
theorem Messages.sendfile
    (messages : Messages s)
    (taken : s.step .sendfile = some s') :
    Messages s' := by
  simp only [Server.step] at taken
  split at taken
  · rename_i task sending
    cases taken
    have unwritten : s.unwritten = none := by
      simp [Server.unwritten, sending]
    have alive : Alive s.table task.sockfd :=
      messages.unsent task (by simp [Server.unsent, sending])
    refine
      { queued := messages.queued, unwritten := ?_, unsent := ?_
        inOrder := ?_, written := messages.written, sent := ?_ }
    · intro other member
      cases member
    · intro other member
      cases member
    · have before := messages.inOrder
      rw [unwritten] at before
      exact before
    · intro delivery member
      rw [List.mem_append, List.mem_singleton] at member
      rcases member with member | rfl
      · exact messages.sent delivery member
      · exact alive
  · cases taken

/-! ## Runs -/

/-- Every step leaves each connection in one place. -/
theorem Placed.step
    (placed : Placed s)
    {event : ServerEvent n}
    (taken : s.step event = some s') :
    Placed s' := by
  cases event with
  | accept => exact placed.accept taken
  | useConnections thread =>
      obtain ⟨connections, moved, rfl⟩ := Option.map_eq_some_iff.mp taken
      exact placed.useConnections moved
  | useOpt thread =>
      obtain ⟨opt, moved, rfl⟩ := Option.map_eq_some_iff.mp taken
      exact placed.useOpt moved
  | getTask id => exact placed.getTask taken
  | gotTask id => exact placed.gotTask taken
  | recv id bytes beyond => exact placed.recv taken
  | hangUp id => exact placed.hangUp taken
  | deal id files => exact placed.deal taken
  | getTaskOut => exact placed.getTaskOut taken
  | gotTaskOut => exact placed.output (Or.inl rfl) taken
  | write => exact placed.output (Or.inr (Or.inl rfl)) taken
  | openFile found =>
      exact placed.output (Or.inr (Or.inr (Or.inl ⟨found, rfl⟩))) taken
  | sendfile => exact placed.output (Or.inr (Or.inr (Or.inr rfl))) taken

/-- The steps of a thread of the pool that move no message. -/
theorem Messages.worker
    (messages : Messages s)
    {id : Fin n}
    {event : ServerEvent n}
    (isWorker : event = .getTask id ∨ event = .gotTask id ∨
      ∃ bytes beyond, event = .recv id bytes beyond)
    (taken : s.step event = some s') :
    Messages s' := by
  rcases isWorker with rfl | rfl | ⟨bytes, beyond, rfl⟩
  · simp only [Server.step] at taken
    split at taken
    · obtain ⟨connections, started, rfl⟩ := Option.map_eq_some_iff.mp taken
      exact messages.transfer rfl rfl rfl rfl rfl rfl fun _ alive => alive
    · cases taken
  · simp only [Server.step] at taken
    split at taken
    · cases taken
      exact messages.transfer rfl rfl rfl rfl rfl rfl fun _ alive => alive
    · cases taken
  · simp only [Server.step] at taken
    split at taken
    · split at taken
      · cases taken
      · cases taken
        exact messages.transfer rfl rfl rfl rfl rfl rfl fun _ alive => alive
    · cases taken

/-- Every step at which no connection is closed too early keeps the
messages. -/
theorem Inv.messages_step
    (inv : Inv s)
    {event : ServerEvent n}
    (settled : Settled s event)
    (taken : s.step event = some s') :
    Messages s' := by
  cases event with
  | accept => exact inv.messages.accept taken
  | useConnections thread =>
      obtain ⟨connections, moved, rfl⟩ := Option.map_eq_some_iff.mp taken
      exact inv.messages.transfer rfl rfl rfl rfl rfl rfl fun _ alive => alive
  | useOpt thread =>
      obtain ⟨opt, moved, rfl⟩ := Option.map_eq_some_iff.mp taken
      exact inv.useOpt moved
  | getTask id => exact inv.messages.worker (Or.inl rfl) taken
  | gotTask id => exact inv.messages.worker (Or.inr (Or.inl rfl)) taken
  | recv id bytes beyond =>
      exact inv.messages.worker (Or.inr (Or.inr ⟨bytes, beyond, rfl⟩)) taken
  | hangUp id => exact inv.hangUp settled taken
  | deal id files => exact inv.messages.deal taken
  | getTaskOut => exact inv.messages.getTaskOut taken
  | gotTaskOut => exact inv.messages.gotTaskOut taken
  | write => exact inv.messages.write taken
  | openFile found => exact inv.messages.openFile taken
  | sendfile => exact inv.messages.sendfile taken

theorem Inv.step
    (inv : Inv s)
    {event : ServerEvent n}
    (settled : Settled s event)
    (taken : s.step event = some s') :
    Inv s' :=
  (inv.placed.step taken).inv (inv.messages_step settled taken)

/-- As long as no connection is closed while a message for it is on its way, the
messages are written one by one in the order in which they were enqueued, and
each call of `write` and `sendfile` reaches the connection for which its
message was enqueued. -/
theorem responses_reach
    {connections : Nat → Descriptor}
    {opt : Nat → OutPutTask}
    {events : List (ServerEvent n)}
    (run : Run step Settled (init n connections opt) events s) :
    s.written.map Delivery.task ++ s.unwritten.toList ++ s.queued =
        s.opt.put ∧
      ∀ delivery ∈ s.written ++ s.sent,
        delivery.target =
          some (.connection delivery.task.sockfd.connection) := by
  have inv : Inv s := by
    apply run.preserves _
      ((Placed.init connections opt).inv (Messages.init connections opt))
    intro state event next inv settled taken
    exact inv.step settled taken
  constructor
  · obtain ⟨later, split⟩ := inv.opt.inOrder
    rw [inv.messages.inOrder, queued, ← split, List.drop_left]
  · intro delivery member
    rcases List.mem_append.mp member with member | member
    · exact inv.messages.written delivery member
    · exact inv.messages.sent delivery member

/-- A pool of one thread has a first one. -/
instance : NeZero 1 := ⟨Nat.one_ne_zero⟩

/-- A client connects and sends a request, a thread of the pool enqueues the
answer. -/
def askEvents : List (ServerEvent 1) :=
  ServerEvent.accept ::
      List.replicate 6 (ServerEvent.useConnections Thread.accepting) ++
    ServerEvent.getTask 0 ::
      List.replicate 6 (ServerEvent.useConnections (Thread.worker 0)) ++
    [ServerEvent.gotTask 0,
      ServerEvent.recv 0 (str "PUT / HTTP/1.1\r\n\r\n") [0],
      ServerEvent.deal 0 fun _ => none] ++
    List.replicate 9 (ServerEvent.useOpt (Thread.worker 0)) ++
    [ServerEvent.deal 0 fun _ => none]

/-- The output thread writes a message. -/
def outputEvents : List (ServerEvent 1) :=
  .getTaskOut :: List.replicate 9 (.useOpt .output) ++ [.gotTaskOut, .write]

/-- The client closes its end when it has the answer. -/
def patientEvents : List (ServerEvent 1) :=
  askEvents ++ outputEvents ++ [.hangUp 0]

/-- The client closes its end at once, and another one connects. -/
def hastyEvents : List (ServerEvent 1) :=
  askEvents ++ [.hangUp 0, .accept] ++ outputEvents

/-- A server with one thread in its pool. -/
def small : Server 1 :=
  init 1 (fun _ => ⟨0, 0⟩) fun _ => ⟨0, [], ⟨0, 0⟩, []⟩

/-- Nothing is on its way when a connection is closed. -/
def settledCheck (s : Server n) : ServerEvent n → Bool
  | .hangUp _ => s.queued = [] ∧ s.unwritten = none ∧ s.unsent = none
  | _ => true

theorem settled_of_check
    (s : Server n)
    (event : ServerEvent n)
    (checked : settledCheck s event = true) :
    Settled s event := by
  cases event with
  | hangUp id =>
      obtain ⟨queued, unwritten, unsent⟩ := of_decide_eq_true checked
      intro connfd _
      rw [queued, unwritten, unsent]
      refine ⟨?_, ?_, ?_⟩
      · intro task member
        cases member
      · intro task member
        cases member
      · intro task member
        cases member
  | _ => trivial

/-- A response is written, then the connection is closed. -/
theorem responses_reach_closed :
    ∃ s : Server 1,
      s.written.map Delivery.target = [some (.connection 0)] ∧
      s.written.map Delivery.task ++ s.unwritten.toList ++ s.queued =
        s.opt.put := by
  have executed : (patientEvents.foldlM
      (fun s event => if settledCheck s event then step s event else none)
      small).map (fun s => s.written.map Delivery.target) =
        some [some (Object.connection 0)] := by
    decide +kernel
  obtain ⟨s, executed, written⟩ := Option.map_eq_some_iff.mp executed
  have run := Run.of_checked settled_of_check executed
  exact ⟨s, written, (responses_reach run).1⟩

/-- The connection is closed while its message is queued, and the message is
written to the next connection. -/
theorem response_strays :
    ¬ ∀ (events : List (ServerEvent 1)) (s : Server 1),
      Run step Run.free small events s →
        ∀ delivery ∈ s.written,
          delivery.target =
            some (.connection delivery.task.sockfd.connection) := by
  intro reach
  have executed : (hastyEvents.foldlM step small).map
      (fun s => s.written.map fun delivery =>
        (delivery.task.sockfd.connection, delivery.target)) =
      some [(0, some (Object.connection 1))] := by
    decide +kernel
  obtain ⟨s, executed, written⟩ := Option.map_eq_some_iff.mp executed
  have run := Run.of_executed executed
  obtain ⟨delivery, member, pair⟩ :
      ∃ delivery ∈ s.written,
        (delivery.task.sockfd.connection, delivery.target) =
          (0, some (.connection 1)) := by
    apply List.mem_map.mp
    rw [written]
    exact List.mem_singleton.mpr rfl
  obtain ⟨origin, target⟩ := Prod.mk.inj pair
  have right := reach _ s run delivery member
  rw [origin, target] at right
  cases right

end Server
end Lab2
end CloudComputing
