import CloudComputing.Lab2.Responses

/-!
# Open descriptors

The threads of the pool close the connections that the accepting thread has
accepted.  What `Get_dealer` and the output thread open they leave open, so a
server that has answered one GET request for a file that exists keeps a
descriptor for good.
-/

namespace CloudComputing
namespace Lab2

open RingBuffer Dealer

/-! ## Requests for which no file is opened -/

namespace Dealer

/-- The file of a GET request in front of `s_buf` does not exist. -/
def Missing (files : Files) (s_buf : Bytes) : Prop :=
  ∀ request entityPos rest url later,
    completeRequest s_buf = some (request, entityPos) →
      word request = some (str "GET", rest) →
        word rest = some (url, later) → files (getPath url) = none

variable {files : Files} {sockfd : Descriptor}

theorem postShow_type
    {method url entity : Bytes}
    {task : OutPutTask}
    (answered : postShow method url entity sockfd = some task) :
    task.type = 1 := by
  unfold postShow at answered
  split at answered
  · split at answered
    · cases answered
      rfl
    · obtain ⟨name, _, answered⟩ := Option.bind_eq_some_iff.mp answered
      obtain ⟨ID, _, answered⟩ := Option.bind_eq_some_iff.mp answered
      cases answered
      rfl
  · cases answered
    rfl

theorem errorDealer_type (method url : Bytes) :
    (errorDealer method url sockfd).type ≠ 0 :=
  Int.one_ne_zero

theorem getDealer_type_ne_zero_iff (method url : Bytes) :
    (getDealer files method url sockfd).type ≠ 0 ↔
      files (getPath url) = none := by
  unfold getDealer
  cases files (getPath url) with
  | none => exact iff_of_true (errorDealer_type method url) rfl
  | some size => exact iff_of_false (not_not_intro rfl) (Option.some_ne_none size)

/-- A message has a file exactly if it answers a GET request whose file
exists. -/
theorem answer_type_ne_zero_iff
    {request : Bytes}
    {entityPos : Nat}
    {task : OutPutTask}
    (answered : answer files sockfd request entityPos = some task) :
    task.type ≠ 0 ↔
      ∀ rest url later, word request = some (str "GET", rest) →
        word rest = some (url, later) → files (getPath url) = none := by
  unfold answer at answered
  obtain ⟨⟨method, rest⟩, isMethod, answered⟩ :=
    Option.bind_eq_some_iff.mp answered
  have other : method ≠ str "GET" → ∀ rest' url later,
      word request = some (str "GET", rest') →
        word rest' = some (url, later) → files (getPath url) = none := by
    intro differs rest' url later isGet
    rw [isMethod] at isGet
    cases isGet
    exact absurd rfl differs
  dsimp only at answered
  split at answered
  · rename_i unknown
    cases answered
    exact iff_of_true (errorDealer_type method []) (other unknown.1)
  · obtain ⟨⟨url, later⟩, isUrl, answered⟩ :=
      Option.bind_eq_some_iff.mp answered
    dsimp only at answered
    split at answered
    · rename_i get
      subst get
      cases answered
      rw [getDealer_type_ne_zero_iff]
      constructor
      · intro missing rest' url' later' isGet isUrl'
        rw [isMethod] at isGet
        cases isGet
        rw [isUrl] at isUrl'
        cases isUrl'
        exact missing
      · intro missing
        exact missing rest url later isMethod isUrl
    · rename_i notGet
      split at answered
      · cases answered
        exact iff_of_true (errorDealer_type method url) (other notGet)
      · have isOne := postShow_type answered
        exact iff_of_true (by omega) (other notGet)

theorem round_type_ne_zero_iff
    {s_buf rest : Bytes}
    {task : OutPutTask}
    (answered : Dealer.round files sockfd s_buf = .answered task rest) :
    task.type ≠ 0 ↔ Missing files s_buf := by
  unfold Dealer.round at answered
  split at answered
  · split at answered
    · cases answered
    · rename_i request entityPos complete
      split at answered
      · cases answered
      · rename_i found
        cases answered
        rw [answer_type_ne_zero_iff found]
        unfold Missing
        rw [complete]
        constructor
        · intro missing request' entityPos' rest url later same
          cases same
          exact missing rest url later
        · intro missing rest url later
          exact missing request entityPos rest url later rfl
  · cases answered

theorem hasHttp_of_answered
    {s_buf rest : Bytes}
    {task : OutPutTask}
    (answered : Dealer.round files sockfd s_buf = .answered task rest) :
    hasHttp s_buf = true := by
  by_contra without
  unfold Dealer.round at answered
  rw [if_neg without] at answered
  cases answered

/-- The other rounds with a GET request leave the request. -/
theorem round_of_not_missing
    {s_buf : Bytes}
    (http : hasHttp s_buf = true)
    (present : ¬ Missing files s_buf) :
    Dealer.round files sockfd s_buf = .undefined ∨
      ∃ task rest, Dealer.round files sockfd s_buf = .answered task rest ∧
        task.type = 0 := by
  cases found : Dealer.round files sockfd s_buf with
  | undefined => exact Or.inl rfl
  | answered task rest =>
      refine Or.inr ⟨task, rest, rfl, ?_⟩
      by_contra noFile
      exact present ((round_type_ne_zero_iff found).mp noFile)
  | finished =>
      unfold Dealer.round at found
      rw [if_pos http] at found
      split at found
      · cases found
      · split at found <;> cases found
  | again =>
      refine absurd ?_ present
      unfold Dealer.round at found
      rw [if_pos http] at found
      split at found
      · rename_i incomplete
        intro request entityPos rest url later complete
        rw [incomplete] at complete
        cases complete
      · split at found <;> cases found

end Dealer

/-! ## Files in the table -/

namespace Table

theorem lookup_eq_some_of_install
    {table : Table}
    {object found : Object}
    {number : Nat}
    (opened : (table.install object).lookup number = some found)
    (differs : found ≠ object) :
    table.lookup number = some found := by
  by_cases lowest : number = table.lowest
  · subst lowest
    rw [lookup_install_lowest] at opened
    exact absurd (Option.some.inj opened).symm differs
  · rwa [lookup_install_of_ne object lowest] at opened

theorem lookup_close_self (table : Table) (number : Nat) :
    (table.close number).lookup number = none := by
  unfold lookup close
  rw [List.getElem?_set_self']
  cases table[number]? <;> rfl

end Table

namespace Server

variable {n : Nat} {s s' : Server n}

/-! ## What a step does to the table -/

/-- The table behind a step. -/
inductive Change (s : Server n) : ServerEvent n → Table → Prop
  | same
      {event : ServerEvent n}
      (closesNone : ∀ id, event ≠ .hangUp id) :
      Change s event s.table
  | accept : Change s .accept (s.table.install (.connection s.accepted))
  | deal
      {id : Fin n}
      {files : Files}
      {connfd : Descriptor}
      {s_buf rest : Bytes}
      {task : OutPutTask}
      (dealing : s.worker id = .dealing connfd s_buf)
      (answered : Dealer.round files connfd s_buf = .answered task rest)
      (file : task.type = 0) :
      Change s (.deal id files) (s.table.install .file)
  | openFile
      {task : OutPutTask}
      (opening : s.output = .opening task) :
      Change s (.openFile true) (s.table.install .file)
  | close
      {id : Fin n}
      {closed : Descriptor}
      (own : s.connfd id = some closed) :
      Change s (.hangUp id) (s.table.close closed.number)

theorem change_of_deal
    {id : Fin n}
    {files : Files}
    (taken : s.deal id files = some s') :
    Change s (.deal id files) s'.table := by
  unfold Server.deal at taken
  split at taken
  · rename_i connfd s_buf result dealing found
    split at taken
    · cases taken
      exact .same (by simp)
    · cases taken
      exact .same (by simp)
    · cases taken
    · rename_i task rest answered
      obtain ⟨opt, started, rfl⟩ := Option.map_eq_some_iff.mp taken
      by_cases file : task.type = 0
      · dsimp only
        rw [if_pos file]
        exact .deal dealing answered file
      · dsimp only
        rw [if_neg file]
        exact .same (by simp)
  · cases taken

theorem change_of_write
    (taken : s.write = some s') :
    Change s .write s'.table := by
  unfold Server.write at taken
  split at taken
  · split at taken
    · cases taken
      exact .same (by simp)
    · cases taken
  · cases taken

theorem change_of_step
    {event : ServerEvent n}
    (taken : s.step event = some s') :
    Change s event s'.table := by
  cases event with
  | accept =>
      obtain ⟨connections, started, rfl⟩ := Option.map_eq_some_iff.mp taken
      exact .accept
  | useConnections thread =>
      obtain ⟨connections, moved, rfl⟩ := Option.map_eq_some_iff.mp taken
      exact .same (by simp)
  | useOpt thread =>
      obtain ⟨opt, moved, rfl⟩ := Option.map_eq_some_iff.mp taken
      exact .same (by simp)
  | deal id files => exact change_of_deal taken
  | write => exact change_of_write taken
  | getTask id =>
      simp only [Server.step] at taken
      split at taken
      · obtain ⟨connections, started, rfl⟩ := Option.map_eq_some_iff.mp taken
        exact .same (by simp)
      · cases taken
  | gotTask id =>
      simp only [Server.step] at taken
      split at taken
      · cases taken
        exact .same (by simp)
      · cases taken
  | recv id bytes beyond =>
      simp only [Server.step] at taken
      split at taken
      · split at taken
        · cases taken
        · cases taken
          exact .same (by simp)
      · cases taken
  | hangUp id =>
      simp only [Server.step] at taken
      split at taken
      · rename_i closed receiving
        cases taken
        refine .close ?_
        simp [connfd, receiving]
      · cases taken
  | getTaskOut =>
      simp only [Server.step] at taken
      split at taken
      · obtain ⟨opt, started, rfl⟩ := Option.map_eq_some_iff.mp taken
        exact .same (by simp)
      · cases taken
  | gotTaskOut =>
      simp only [Server.step] at taken
      split at taken
      · cases taken
        exact .same (by simp)
      · cases taken
  | openFile found =>
      simp only [Server.step] at taken
      split at taken
      · rename_i task opening
        cases found with
        | false =>
            cases taken
            exact .same (by simp)
        | true =>
            cases taken
            exact .openFile opening
      · cases taken
  | sendfile =>
      simp only [Server.step] at taken
      split at taken
      · cases taken
        exact .same (by simp)
      · cases taken

/-! ## Every connection is in a place -/

/-- The accepting thread, the queue or a thread of the pool has this
connection, which is still to be closed. -/
def Has (s : Server n) (connfd : Descriptor) : Prop :=
  (s.connections.phase .accepting).offered = some connfd ∨
    connfd ∈ s.connections.put.drop s.connections.taken.length ∨
      ∃ id, s.connfd id = some connfd

/-- The descriptors from the beginning are still open, and a connection that is
open is still to be closed. -/
structure Owned (s : Server n) : Prop where
  others : ∀ number, s.table.lookup number = some .other ↔ number < 4
  covered : ∀ number connection,
    s.table.lookup number = some (.connection connection) →
      s.Has ⟨number, connection⟩

theorem lookup_initialTable (number : Nat) :
    initialTable.lookup number =
      if number < 4 then some .other else none := by
  unfold Table.lookup initialTable
  rw [List.getElem?_replicate]
  split <;> rfl

theorem Owned.init
    (connections : Nat → Descriptor)
    (opt : Nat → OutPutTask) :
    Owned (Server.init n connections opt) where
  others := by
    intro number
    change initialTable.lookup number = _ ↔ _
    rw [lookup_initialTable]
    split <;> simp_all
  covered := by
    intro number connection opened
    change initialTable.lookup number = _ at opened
    rw [lookup_initialTable] at opened
    split at opened <;> cases opened

theorem Has.transfer
    {connfd : Descriptor}
    (has : s.Has connfd)
    (put : s'.connections.put = s.connections.put)
    (taken : s'.connections.taken = s.connections.taken)
    (offered : (s'.connections.phase .accepting).offered =
      (s.connections.phase .accepting).offered)
    (connfds : ∀ id, s'.connfd id = s.connfd id) :
    s'.Has connfd := by
  unfold Has
  rw [put, taken, offered]
  refine has.imp_right (Or.imp_right ?_)
  rintro ⟨id, found⟩
  exact ⟨id, (connfds id).trans found⟩

/-- A thread of the pool that keeps its connection. -/
theorem Has.setWorker
    {connfd : Descriptor}
    (has : s.Has connfd)
    {id : Fin n}
    {worker : Worker}
    (same : (s.setWorker id worker).connfd id = s.connfd id) :
    (s.setWorker id worker).Has connfd := by
  refine has.transfer rfl rfl rfl ?_
  intro other
  by_cases own : other = id
  · rw [own, same]
  · exact connfd_setWorker_of_ne s own worker

/-- A connection goes from the accepting thread through the queue to a thread of
the pool. -/
theorem Has.useConnections
    (placed : Placed s)
    {connfd : Descriptor}
    (has : s.Has connfd)
    {thread : Thread n}
    {connections : State (Thread n) Descriptor}
    (moved : Moved connectionsLayout size s.connections thread connections) :
    Has { s with connections := connections } connfd := by
  have after := (placed.connections.moved moved).inOrder
  have before := placed.connections.inOrder
  have connfd_of_ne : ∀ id, .worker id ≠ thread →
      Server.connfd { s with connections := connections } id = s.connfd id := by
    intro id differs
    unfold Server.connfd
    dsimp only
    rw [moved.others differs]
  cases thread with
  | output => exact absurd placed.roles.noOutput moved.user.1
  | accepting =>
      have connfds := fun id =>
        connfd_of_ne id (show Thread.worker id ≠ .accepting by simp)
      cases moved.effect with
      | quiet put taken offered acquired =>
          exact has.transfer put taken offered connfds
      | put item user put taken offered nothing acquired =>
          have grown : connections.put.drop connections.taken.length =
              s.connections.put.drop s.connections.taken.length ++ [item] := by
            rw [put, taken, drop_append_of_prefix before]
          rcases has with own | waiting | ⟨id, found⟩
          · rw [offered] at own
            cases own
            refine Or.inr (Or.inl ?_)
            change connfd ∈ connections.put.drop connections.taken.length
            rw [grown]
            exact List.mem_append_right _ (List.mem_singleton.mpr rfl)
          · refine Or.inr (Or.inl ?_)
            change connfd ∈ connections.put.drop connections.taken.length
            rw [grown]
            exact List.mem_append_left _ waiting
          · exact Or.inr (Or.inr ⟨id, (connfds id).trans found⟩)
      | get item user put taken offered nothing acquired =>
          cases placed.roles.accepting .get user
  | worker id =>
      have accepting : connections.phase .accepting =
          s.connections.phase .accepting :=
        moved.others (by simp)
      cases moved.effect with
      | quiet put taken offered acquired =>
          refine has.transfer put taken (by rw [accepting]) ?_
          intro other
          by_cases same : other = id
          · subst same
            unfold Server.connfd
            dsimp only
            rw [acquired]
          · exact connfd_of_ne other (by simpa using same)
      | put item user put taken offered nothing acquired =>
          cases (placed.roles.fetching id .put user).1
      | get item user put taken offered nothing acquired =>
          have fetching := (placed.roles.fetching id .get user).2
          have own : Server.connfd { s with connections := connections } id =
              some item := by
            unfold Server.connfd
            dsimp only
            rw [fetching]
            exact acquired
          have gone : s.connfd id = none := by
            unfold Server.connfd
            rw [fetching]
            exact nothing
          rw [put, taken] at after
          obtain ⟨later, split⟩ := after
          have waitingBefore : s.connections.put.drop
              s.connections.taken.length = item :: later := by
            rw [← split, List.append_assoc, List.drop_left]
            rfl
          have waitingAfter : connections.put.drop connections.taken.length =
              later := by
            rw [put, taken, ← split, List.drop_left]
          rcases has with offering | waiting | ⟨other, found⟩
          · refine Or.inl ?_
            change (connections.phase .accepting).offered = some connfd
            rw [accepting]
            exact offering
          · rw [waitingBefore] at waiting
            rcases List.mem_cons.mp waiting with rfl | behind
            · exact Or.inr (Or.inr ⟨id, own⟩)
            · refine Or.inr (Or.inl ?_)
              change connfd ∈ connections.put.drop connections.taken.length
              rw [waitingAfter]
              exact behind
          · refine Or.inr (Or.inr ⟨other, ?_⟩)
            rw [connfd_of_ne other, found]
            rintro same
            cases same
            rw [gone] at found
            cases found

/-- A thread of the pool that begins with the queue has no connection yet. -/
theorem connfd_getTask
    {id : Fin n}
    (taken : s.step (.getTask id) = some s') :
    ∀ other, s'.connfd other = s.connfd other := by
  simp only [Server.step] at taken
  split at taken
  · rename_i ready
    obtain ⟨connections, started, rfl⟩ := Option.map_eq_some_iff.mp taken
    obtain ⟨_, rfl⟩ := start_eq_some started
    intro other
    by_cases same : other = id
    · subst same
      simp [connfd, Server.setWorker, ready, Phase.acquired]
    · simp [connfd, Server.setWorker, same]
  · cases taken

/-- The steps of a thread of the pool that keeps what it has. -/
theorem Has.worker
    {connfd : Descriptor}
    (has : s.Has connfd)
    {id : Fin n}
    {event : ServerEvent n}
    (isWorker : event = .getTask id ∨ event = .gotTask id ∨
      (∃ bytes beyond, event = .recv id bytes beyond) ∨
      ∃ files, event = .deal id files)
    (taken : s.step event = some s') :
    s'.Has connfd := by
  rcases isWorker with rfl | rfl | ⟨bytes, beyond, rfl⟩ | ⟨files, rfl⟩
  · have connfds := connfd_getTask taken
    simp only [Server.step] at taken
    split at taken
    · obtain ⟨connections, started, rfl⟩ := Option.map_eq_some_iff.mp taken
      obtain ⟨_, rfl⟩ := start_eq_some started
      exact has.transfer rfl rfl (by simp) connfds
    · cases taken
  · simp only [Server.step] at taken
    split at taken
    · rename_i got fetching idle
      cases taken
      apply has.setWorker
      simp [Server.connfd, Server.setWorker, fetching, idle, Phase.acquired]
    · cases taken
  · simp only [Server.step] at taken
    split at taken
    · rename_i own receiving
      split at taken
      · cases taken
      · cases taken
        apply has.setWorker
        simp [Server.connfd, Server.setWorker, receiving]
    · cases taken
  · change s.deal id files = some s' at taken
    unfold Server.deal at taken
    split at taken
    · rename_i own s_buf result dealing found
      have kept : ∀ rest,
          (s.setWorker id (.dealing own rest)).Has connfd := by
        intro rest
        apply has.setWorker
        simp [Server.connfd, Server.setWorker, dealing]
      split at taken
      · cases taken
        apply has.setWorker
        simp [Server.connfd, Server.setWorker, dealing]
      · cases taken
        exact has
      · cases taken
      · rename_i task rest answered
        obtain ⟨opt, started, rfl⟩ := Option.map_eq_some_iff.mp taken
        exact kept rest
    · cases taken

/-- The output thread has nothing to do with the connections. -/
theorem Has.output
    {connfd : Descriptor}
    (has : s.Has connfd)
    {event : ServerEvent n}
    (isOutput : event = .getTaskOut ∨ event = .gotTaskOut ∨ event = .write ∨
      (∃ found, event = .openFile found) ∨ event = .sendfile)
    (taken : s.step event = some s') :
    s'.Has connfd := by
  rcases isOutput with rfl | rfl | rfl | ⟨found, rfl⟩ | rfl
  · simp only [Server.step] at taken
    split at taken
    · obtain ⟨opt, started, rfl⟩ := Option.map_eq_some_iff.mp taken
      exact has
    · cases taken
  · simp only [Server.step] at taken
    split at taken
    · cases taken
      exact has
    · cases taken
  · change s.write = some s' at taken
    unfold Server.write at taken
    split at taken
    · split at taken
      · cases taken
        exact has
      · cases taken
    · cases taken
  · simp only [Server.step] at taken
    split at taken
    · split at taken
      · cases taken
        exact has
      · cases taken
        exact has
    · cases taken
  · simp only [Server.step] at taken
    split at taken
    · cases taken
      exact has
    · cases taken

theorem Has.accept
    {connfd : Descriptor}
    (has : s.Has connfd)
    (taken : s.accept = some s') :
    s'.Has connfd := by
  unfold Server.accept at taken
  obtain ⟨connections, started, rfl⟩ := Option.map_eq_some_iff.mp taken
  obtain ⟨⟨result, idle⟩, rfl⟩ := start_eq_some started
  rcases has with offered | waiting | ⟨id, found⟩
  · rw [idle] at offered
    cases offered
  · exact Or.inr (Or.inl waiting)
  · refine Or.inr (Or.inr ⟨id, ?_⟩)
    rw [← found]
    simp [Server.connfd]

/-- The accepting thread has the new connection. -/
theorem has_accepted (taken : s.accept = some s') :
    s'.Has ⟨s.table.lowest, s.accepted⟩ := by
  unfold Server.accept at taken
  obtain ⟨connections, started, rfl⟩ := Option.map_eq_some_iff.mp taken
  obtain ⟨_, rfl⟩ := start_eq_some started
  apply Or.inl
  rw [State.go_phase, Function.update_self]
  rfl

/-- A connection stays in a place until its thread closes it. -/
theorem Has.step
    (placed : Placed s)
    {connfd : Descriptor}
    (has : s.Has connfd)
    {event : ServerEvent n}
    (kept : ∀ id, event = .hangUp id → s.connfd id ≠ some connfd)
    (taken : s.step event = some s') :
    s'.Has connfd := by
  cases event with
  | accept => exact has.accept taken
  | useConnections thread =>
      obtain ⟨connections, moved, rfl⟩ := Option.map_eq_some_iff.mp taken
      exact has.useConnections placed (moved_of_next moved)
  | useOpt thread =>
      obtain ⟨opt, moved, rfl⟩ := Option.map_eq_some_iff.mp taken
      exact has
  | getTask id => exact has.worker (Or.inl rfl) taken
  | gotTask id => exact has.worker (Or.inr (Or.inl rfl)) taken
  | recv id bytes beyond =>
      exact has.worker (Or.inr (Or.inr (Or.inl ⟨bytes, beyond, rfl⟩))) taken
  | hangUp id =>
      simp only [Server.step] at taken
      split at taken
      · cases taken
        refine has.imp_right (Or.imp_right ?_)
        rintro ⟨other, found⟩
        refine ⟨other, ?_⟩
        rw [← found]
        apply connfd_setWorker_of_ne
        rintro rfl
        exact kept other rfl found
      · cases taken
  | deal id files =>
      exact has.worker (Or.inr (Or.inr (Or.inr ⟨files, rfl⟩))) taken
  | getTaskOut => exact has.output (Or.inl rfl) taken
  | gotTaskOut => exact has.output (Or.inr (Or.inl rfl)) taken
  | write => exact has.output (Or.inr (Or.inr (Or.inl rfl))) taken
  | openFile found =>
      exact has.output (Or.inr (Or.inr (Or.inr (Or.inl ⟨found, rfl⟩)))) taken
  | sendfile =>
      exact has.output (Or.inr (Or.inr (Or.inr (Or.inr rfl)))) taken

/-- Opening something else keeps what is open under the other numbers. -/
theorem Table.lookup_install_iff
    {table : Table}
    {object found : Object}
    (differs : found ≠ object)
    (number : Nat) :
    (table.install object).lookup number = some found ↔
      table.lookup number = some found :=
  ⟨fun opened => Table.lookup_eq_some_of_install opened differs,
    fun opened => Table.lookup_install opened object⟩

theorem Owned.step
    (placed : Placed s)
    (owned : Owned s)
    {event : ServerEvent n}
    (taken : s.step event = some s') :
    Owned s' := by
  obtain ⟨table, isTable⟩ : ∃ table, s'.table = table := ⟨_, rfl⟩
  have change := change_of_step taken
  have has := fun connfd (has : s.Has connfd) kept =>
    has.step placed kept taken
  rw [isTable] at change
  cases change with
  | same closesNone =>
      constructor
      · rw [isTable]
        exact owned.others
      · intro number connection opened
        rw [isTable] at opened
        exact has _ (owned.covered number connection opened)
          fun id same => absurd same (closesNone id)
  | accept =>
      constructor
      · intro number
        rw [isTable, Table.lookup_install_iff (by simp)]
        exact owned.others number
      · intro number connection opened
        rw [isTable] at opened
        by_cases lowest : number = s.table.lowest
        · subst lowest
          rw [Table.lookup_install_lowest] at opened
          cases opened
          exact has_accepted taken
        · rw [Table.lookup_install_of_ne _ lowest] at opened
          refine has _ (owned.covered number connection opened) ?_
          rintro id ⟨⟩
  | deal dealing answered file =>
      constructor
      · intro number
        rw [isTable, Table.lookup_install_iff (by simp)]
        exact owned.others number
      · intro number connection opened
        rw [isTable, Table.lookup_install_iff (by simp)] at opened
        refine has _ (owned.covered number connection opened) ?_
        rintro id ⟨⟩
  | openFile opening =>
      constructor
      · intro number
        rw [isTable, Table.lookup_install_iff (by simp)]
        exact owned.others number
      · intro number connection opened
        rw [isTable, Table.lookup_install_iff (by simp)] at opened
        refine has _ (owned.covered number connection opened) ?_
        rintro id ⟨⟩
  | @close id closed own =>
      have alive := (placed.held.got id closed own).1
      constructor
      · intro number
        rw [isTable, ← owned.others number]
        by_cases same : number = closed.number
        · subst same
          refine iff_of_false ?_ ?_
          · rw [Table.lookup_close_self]
            intro none
            cases none
          · rw [alive]
            intro other
            cases other
        · rw [Table.lookup_close_of_ne s.table same]
      · intro number connection opened
        rw [isTable] at opened
        by_cases same : number = closed.number
        · subst same
          rw [Table.lookup_close_self] at opened
          cases opened
        · rw [Table.lookup_close_of_ne s.table same] at opened
          refine has _ (owned.covered number connection opened) ?_
          intro other event found
          cases event
          rw [own] at found
          cases found
          exact same rfl

/-! ## Files are not closed -/

/-- A file is open. -/
def HasFile (s : Server n) : Prop :=
  ∃ number, s.table.lookup number = some .file

/-- No file is opened for the request that is dealt with. -/
def FilesMissing (s : Server n) : ServerEvent n → Prop
  | .deal id files => ∀ connfd s_buf,
      s.worker id = .dealing connfd s_buf → hasHttp s_buf = true →
        Missing files s_buf
  | _ => True

/-- Once a file is open, one is open for good. -/
theorem HasFile.step
    (placed : Placed s)
    (hasFile : HasFile s)
    {event : ServerEvent n}
    (taken : s.step event = some s') :
    HasFile s' := by
  obtain ⟨number, opened⟩ := hasFile
  obtain ⟨table, isTable⟩ : ∃ table, s'.table = table := ⟨_, rfl⟩
  have change := change_of_step taken
  rw [isTable] at change
  refine ⟨number, ?_⟩
  rw [isTable]
  cases change with
  | same closesNone => exact opened
  | accept => exact Table.lookup_install opened _
  | deal dealing answered file => exact Table.lookup_install opened _
  | openFile opening => exact Table.lookup_install opened _
  | @close id closed own =>
      rw [Table.lookup_close_of_ne]
      · exact opened
      · rintro rfl
        rw [(placed.held.got id closed own).1] at opened
        cases opened

/-- Answering a GET request for a file that exists opens it. -/
theorem hasFile_of_not_missing
    {event : ServerEvent n}
    (present : ¬ FilesMissing s event)
    (taken : s.step event = some s') :
    HasFile s' := by
  cases event with
  | deal id files =>
      unfold FilesMissing at present
      push Not at present
      obtain ⟨connfd, s_buf, dealing, http, present⟩ := present
      change s.deal id files = some s' at taken
      unfold Server.deal at taken
      rw [dealing] at taken
      split at taken
      · rename_i connfd' s_buf' result same found
        cases same
        have outcome : Dealer.round files connfd s_buf = .undefined ∨
            ∃ task rest,
              Dealer.round files connfd s_buf = .answered task rest ∧
                task.type = 0 :=
          round_of_not_missing http present
        rcases outcome with undefined | ⟨task, rest, answered, file⟩
        · rw [undefined] at taken
          cases taken
        · rw [answered] at taken
          obtain ⟨opt, started, rfl⟩ := Option.map_eq_some_iff.mp taken
          refine ⟨s.table.lowest, ?_⟩
          dsimp only
          rw [if_pos file, Table.lookup_install_lowest]
      · cases taken
  | _ => exact absurd trivial present

/-- The messages have no files. -/
structure Plain (s : Server n) : Prop where
  offered : ∀ id task,
    (s.opt.phase (.worker id)).offered = some task → task.type ≠ 0
  put : ∀ task ∈ s.opt.put, task.type ≠ 0
  unwritten : ∀ task ∈ s.unwritten, task.type ≠ 0
  unsent : s.unsent = none

theorem Plain.init
    (connections : Nat → Descriptor)
    (opt : Nat → OutPutTask) :
    Plain (Server.init n connections opt) where
  offered := by
    intro id task offered
    cases offered
  put := by
    intro task member
    cases member
  unwritten := by
    intro task member
    cases member
  unsent := rfl

/-- A step of another thread. -/
theorem Plain.transfer
    (plain : Plain s)
    (opt : s'.opt = s.opt)
    (output : s'.output = s.output) :
    Plain s' where
  offered := by
    rw [opt]
    exact plain.offered
  put := by
    rw [opt]
    exact plain.put
  unwritten := by
    unfold Server.unwritten
    rw [opt, output]
    exact plain.unwritten
  unsent := by
    unfold Server.unsent
    rw [output]
    exact plain.unsent

theorem Plain.useOpt
    (placed : Placed s)
    (plain : Plain s)
    {thread : Thread n}
    {opt : State (Thread n) OutPutTask}
    (moved : Moved optLayout size s.opt thread opt) :
    Plain { s with opt := opt } := by
  have after := (placed.opt.moved moved).inOrder
  have put : ∀ task ∈ opt.put, task.type ≠ 0 := by
    cases moved.effect with
    | quiet put taken offered acquired =>
        rw [put]
        exact plain.put
    | get item user put taken offered nothing acquired =>
        rw [put]
        exact plain.put
    | put item user put taken offered nothing acquired =>
        rw [put]
        intro task member
        rcases List.mem_append.mp member with old | new
        · exact plain.put task old
        · cases List.mem_singleton.mp new
          cases thread with
          | accepting => exact absurd placed.roles.noAccepting moved.user.1
          | worker id => exact plain.offered id item offered
          | output =>
              cases (placed.roles.output .put user).1
  refine
    { offered := ?_, put := put, unwritten := ?_, unsent := plain.unsent }
  · intro id task offered
    by_cases own : Thread.worker id = thread
    · subst own
      cases moved.effect with
      | quiet put taken same acquired =>
          exact plain.offered id task (same.symm.trans offered)
      | put item user put taken before nothing acquired =>
          rw [nothing] at offered
          cases offered
      | get item user put taken same nothing acquired =>
          exact plain.offered id task (same.symm.trans offered)
    · rw [moved.others own] at offered
      exact plain.offered id task offered
  · intro task member
    by_cases own : Thread.output = thread
    · subst own
      obtain ⟨side, user⟩ := Option.ne_none_iff_exists'.mp moved.user.1
      obtain ⟨rfl, fetching⟩ := placed.roles.output side user
      have now : Server.unwritten { s with opt := opt } =
          (opt.phase .output).acquired := by
        unfold Server.unwritten
        dsimp only
        rw [fetching]
      have before : s.unwritten = (s.opt.phase .output).acquired := by
        unfold Server.unwritten
        rw [fetching]
      rw [now] at member
      cases moved.effect with
      | quiet put taken offered acquired =>
          apply plain.unwritten
          rw [before, ← acquired]
          exact member
      | put item user' put taken offered nothing acquired =>
          rw [user] at user'
          cases user'
      | get item user' put' taken offered nothing acquired =>
          rw [acquired] at member
          cases member
          apply put
          apply after.subset
          rw [taken]
          exact List.mem_append_right _ (List.mem_singleton.mpr rfl)
    · have same : Server.unwritten { s with opt := opt } = s.unwritten := by
        unfold Server.unwritten
        dsimp only
        rw [moved.others own]
      rw [same] at member
      exact plain.unwritten task member

theorem Plain.deal
    (plain : Plain s)
    {id : Fin n}
    {files : Files}
    (missing : FilesMissing s (.deal id files))
    (taken : s.deal id files = some s') :
    Plain s' := by
  unfold Server.deal at taken
  split at taken
  · rename_i connfd s_buf result dealing found
    split at taken
    · cases taken
      exact plain.transfer rfl rfl
    · cases taken
      exact plain
    · cases taken
    · rename_i task rest answered
      obtain ⟨opt, started, rfl⟩ := Option.map_eq_some_iff.mp taken
      obtain ⟨_, rfl⟩ := start_eq_some started
      have http := hasHttp_of_answered answered
      have noFile := (round_type_ne_zero_iff answered).mpr
        (missing connfd s_buf dealing http)
      refine
        { offered := ?_, put := plain.put, unwritten := ?_
          unsent := plain.unsent }
      · intro other task' offered
        by_cases same : other = id
        · subst same
          rw [State.go_phase, Function.update_self] at offered
          cases offered
          exact noFile
        · rw [State.go_phase, Function.update_of_ne (by simpa using same)]
            at offered
          exact plain.offered other task' offered
      · have output : (s.opt.go (.worker id) (.active .put .enter task)).phase
            .output = s.opt.phase .output := by
          simp
        intro other member
        apply plain.unwritten
        unfold Server.unwritten at member ⊢
        dsimp only at member
        rw [output] at member
        exact member
  · cases taken

/-- The output thread opens no file. -/
theorem Plain.output
    (plain : Plain s)
    {event : ServerEvent n}
    (isOutput : event = .getTaskOut ∨ event = .gotTaskOut ∨ event = .write ∨
      (∃ found, event = .openFile found) ∨ event = .sendfile)
    (taken : s.step event = some s') :
    Plain s' := by
  rcases isOutput with rfl | rfl | rfl | ⟨found, rfl⟩ | rfl
  · simp only [Server.step] at taken
    split at taken
    · obtain ⟨opt, started, rfl⟩ := Option.map_eq_some_iff.mp taken
      obtain ⟨_, rfl⟩ := start_eq_some started
      refine
        { offered := ?_, put := plain.put, unwritten := ?_, unsent := rfl }
      · intro id task offered
        rw [State.go_phase, Function.update_of_ne (by simp)] at offered
        exact plain.offered id task offered
      · intro task member
        simp [Server.unwritten, Phase.acquired] at member
    · cases taken
  · simp only [Server.step] at taken
    split at taken
    · rename_i task fetching found
      cases taken
      refine
        { offered := plain.offered, put := plain.put, unwritten := ?_
          unsent := rfl }
      intro other member
      apply plain.unwritten
      unfold Server.unwritten
      rw [fetching, found]
      exact member
    · cases taken
  · change s.write = some s' at taken
    unfold Server.write at taken
    split at taken
    · rename_i task writing
      split at taken
      · cases taken
        have noFile : task.type ≠ 0 := by
          apply plain.unwritten
          simp [Server.unwritten, writing]
        refine
          { offered := plain.offered, put := plain.put, unwritten := ?_
            unsent := ?_ }
        · intro other member
          rw [unwritten_ready_or_opening] at member
          cases member
        · unfold Server.unsent
          dsimp only
          rw [if_neg noFile]
      · cases taken
    · cases taken
  · simp only [Server.step] at taken
    split at taken
    · rename_i task opening
      have unsent := plain.unsent
      unfold Server.unsent at unsent
      rw [opening] at unsent
      cases unsent
    · cases taken
  · simp only [Server.step] at taken
    split at taken
    · rename_i task sending
      have unsent := plain.unsent
      unfold Server.unsent at unsent
      rw [sending] at unsent
      cases unsent
    · cases taken

theorem Plain.step
    (placed : Placed s)
    (plain : Plain s)
    {event : ServerEvent n}
    (missing : FilesMissing s event)
    (taken : s.step event = some s') :
    Plain s' := by
  cases event with
  | accept =>
      obtain ⟨connections, started, rfl⟩ := Option.map_eq_some_iff.mp taken
      exact plain.transfer rfl rfl
  | useConnections thread =>
      obtain ⟨connections, moved, rfl⟩ := Option.map_eq_some_iff.mp taken
      exact plain.transfer rfl rfl
  | useOpt thread =>
      obtain ⟨opt, moved, rfl⟩ := Option.map_eq_some_iff.mp taken
      exact plain.useOpt placed (moved_of_next moved)
  | getTask id =>
      simp only [Server.step] at taken
      split at taken
      · obtain ⟨connections, started, rfl⟩ := Option.map_eq_some_iff.mp taken
        exact plain.transfer rfl rfl
      · cases taken
  | gotTask id =>
      simp only [Server.step] at taken
      split at taken
      · cases taken
        exact plain.transfer rfl rfl
      · cases taken
  | recv id bytes beyond =>
      simp only [Server.step] at taken
      split at taken
      · split at taken
        · cases taken
        · cases taken
          exact plain.transfer rfl rfl
      · cases taken
  | hangUp id =>
      simp only [Server.step] at taken
      split at taken
      · cases taken
        exact plain.transfer rfl rfl
      · cases taken
  | deal id files => exact plain.deal missing taken
  | getTaskOut => exact plain.output (Or.inl rfl) taken
  | gotTaskOut => exact plain.output (Or.inr (Or.inl rfl)) taken
  | write => exact plain.output (Or.inr (Or.inr (Or.inl rfl))) taken
  | openFile found =>
      exact plain.output (Or.inr (Or.inr (Or.inr (Or.inl ⟨found, rfl⟩)))) taken
  | sendfile =>
      exact plain.output (Or.inr (Or.inr (Or.inr (Or.inr rfl)))) taken

/-- Without messages that have files no file is opened. -/
theorem not_hasFile_step
    (plain : Plain s)
    (noFile : ¬ HasFile s)
    {event : ServerEvent n}
    (missing : FilesMissing s event)
    (taken : s.step event = some s') :
    ¬ HasFile s' := by
  rintro ⟨number, opened⟩
  obtain ⟨table, isTable⟩ : ∃ table, s'.table = table := ⟨_, rfl⟩
  have change := change_of_step taken
  rw [isTable] at change opened
  cases change with
  | same closesNone => exact noFile ⟨number, opened⟩
  | accept =>
      rw [Table.lookup_install_iff (by simp)] at opened
      exact noFile ⟨number, opened⟩
  | deal dealing answered file =>
      have unopened := missing _ _ dealing (hasHttp_of_answered answered)
      exact (round_type_ne_zero_iff answered).mpr unopened file
  | openFile opening =>
      have unsent := plain.unsent
      unfold Server.unsent at unsent
      rw [opening] at unsent
      cases unsent
  | @close id closed own =>
      by_cases same : number = closed.number
      · subst same
        rw [Table.lookup_close_self] at opened
        cases opened
      · rw [Table.lookup_close_of_ne s.table same] at opened
        exact noFile ⟨number, opened⟩

/-! ## Runs -/

/-- What holds in every state of a run. -/
theorem placed_owned_of_run
    {guard : Server n → ServerEvent n → Prop}
    {events : List (ServerEvent n)}
    (run : Run step guard s events s')
    (placed : Placed s)
    (owned : Owned s) :
    Placed s' ∧ Owned s' := by
  have keeps : ∀ state event next, Placed state ∧ Owned state →
      guard state event → step state event = some next →
        Placed next ∧ Owned next := by
    intro state event next both _ taken
    exact ⟨both.1.step taken, both.2.step both.1 taken⟩
  exact run.preserves keeps ⟨placed, owned⟩

/-- Behind a run that ends without a file, no file has been opened. -/
theorem filesMissing_of_run
    {events : List (ServerEvent n)}
    (run : Run step Run.free s events s')
    (placed : Placed s)
    (noFile : ¬ HasFile s') :
    Run step FilesMissing s events s' := by
  induction run with
  | nil => exact .nil _
  | @cons state next last event events allowed taken rest inductionHypothesis =>
      have placedNext := placed.step taken
      refine .cons ?_ taken (inductionHypothesis placedNext noFile)
      by_contra present
      apply noFile
      have keeps : ∀ (state : Server n) event next,
          Placed state ∧ HasFile state →
          Run.free state event → step state event = some next →
            Placed next ∧ HasFile next := by
        intro state event next both _ taken
        exact ⟨both.1.step taken, both.2.step both.1 taken⟩
      have kept := rest.preserves keeps
        ⟨placedNext, hasFile_of_not_missing present taken⟩
      exact kept.2

theorem not_hasFile_of_run
    {events : List (ServerEvent n)}
    (run : Run step FilesMissing s events s')
    (placed : Placed s)
    (plain : Plain s)
    (noFile : ¬ HasFile s) :
    ¬ HasFile s' := by
  have keeps : ∀ (state : Server n) event next,
      Placed state ∧ Plain state ∧ ¬ HasFile state →
        FilesMissing state event → step state event = some next →
          Placed next ∧ Plain next ∧ ¬ HasFile next := by
    rintro state event next ⟨placed, plain, noFile⟩ missing taken
    exact ⟨placed.step taken, plain.step placed missing taken,
      not_hasFile_step plain noFile missing taken⟩
  exact (run.preserves keeps ⟨placed, plain, noFile⟩).2.2

/-- All connections that have been accepted are closed, both queues are empty,
and the output thread has nothing to do. -/
structure Quiet (s : Server n) : Prop where
  closed : ∀ connfd, ¬ s.Has connfd
  connections : s.connections.put.drop s.connections.taken.length = []
  opt : s.queued = []
  unwritten : s.unwritten = none
  unsent : s.unsent = none

/-- In a quiet state only the descriptors from the beginning are open, exactly
if the run has never answered a GET request for a file that exists. -/
theorem descriptors_iff
    {connections : Nat → Descriptor}
    {opt : Nat → OutPutTask}
    {events : List (ServerEvent n)}
    (run : Run step Run.free (init n connections opt) events s)
    (quiet : Quiet s) :
    (∀ number, s.table.lookup number = initialTable.lookup number) ↔
      Run step FilesMissing (init n connections opt) events s := by
  have placed : Placed (init n connections opt) := .init connections opt
  obtain ⟨_, owned⟩ := placed_owned_of_run run placed (.init connections opt)
  constructor
  · intro same
    apply filesMissing_of_run run placed
    rintro ⟨number, opened⟩
    rw [same, lookup_initialTable] at opened
    split at opened <;> cases opened
  · intro missing number
    have noFile : ¬ HasFile s := by
      apply not_hasFile_of_run missing placed (.init connections opt)
      rintro ⟨number, opened⟩
      change initialTable.lookup number = some .file at opened
      rw [lookup_initialTable] at opened
      split at opened <;> cases opened
    rw [lookup_initialTable]
    cases opened : s.table.lookup number with
    | none =>
        rw [if_neg]
        intro standard
        have other := (owned.others number).mpr standard
        rw [opened] at other
        cases other
    | some object =>
        cases object with
        | other => rw [if_pos ((owned.others number).mp opened)]
        | connection connection =>
            exact absurd (owned.covered number connection opened)
              (quiet.closed _)
        | file => exact absurd ⟨number, opened⟩ noFile

/-- Nothing is left of a server with one thread in its pool. -/
def quietCheck (s : Server 1) : Bool :=
  (s.connections.phase .accepting).offered = none ∧
    s.connections.put.drop s.connections.taken.length = [] ∧
    s.connfd 0 = none ∧ s.queued = [] ∧ s.unwritten = none ∧ s.unsent = none

theorem quiet_of_check
    {s : Server 1}
    (checked : quietCheck s = true) :
    Quiet s := by
  obtain ⟨offered, connections, connfd, queued, unwritten, unsent⟩ :=
    of_decide_eq_true checked
  refine ⟨?_, connections, queued, unwritten, unsent⟩
  rintro closed (own | waiting | ⟨id, own⟩)
  · rw [offered] at own
    cases own
  · rw [connections] at waiting
    cases waiting
  · rw [Subsingleton.elim id 0, connfd] at own
    cases own

/-- The request that is dealt with is not a GET request. -/
def noGetCheck (s : Server n) : ServerEvent n → Bool
  | .deal id _ =>
      match s.worker id with
      | .dealing _ s_buf =>
          (completeRequest s_buf).all fun request =>
            (word request.1).all fun method => method.1 ≠ str "GET"
      | _ => true
  | _ => true

theorem filesMissing_of_check
    (s : Server n)
    (event : ServerEvent n)
    (checked : noGetCheck s event = true) :
    FilesMissing s event := by
  cases event with
  | deal id files =>
      intro connfd s_buf dealing _ request entityPos rest url later complete get
      unfold noGetCheck at checked
      simp [dealing, complete, get] at checked
  | _ => trivial

/-- A connection is closed behind its answer. -/
theorem descriptors_iff_closed :
    ∃ s : Server 1, Quiet s ∧ s.accepted = 1 ∧
      ∀ number, s.table.lookup number = initialTable.lookup number := by
  have executed : (patientEvents.foldlM
      (fun s event => if noGetCheck s event then step s event else none)
      small).map (fun s => (quietCheck s, s.accepted)) = some (true, 1) := by
    decide +kernel
  obtain ⟨s, executed, result⟩ := Option.map_eq_some_iff.mp executed
  obtain ⟨checked, accepted⟩ := Prod.mk.inj result
  have run := Run.of_checked filesMissing_of_check executed
  have quiet := quiet_of_check checked
  have free : Run step Run.free small patientEvents s :=
    run.mono fun _ _ _ => trivial
  exact ⟨s, quiet, accepted, (descriptors_iff free quiet).mpr run⟩

/-- A client gets a file that exists, and closes its end when it has it. -/
def fetchEvents : List (ServerEvent 1) :=
  ServerEvent.accept ::
      List.replicate 6 (ServerEvent.useConnections Thread.accepting) ++
    ServerEvent.getTask 0 ::
      List.replicate 6 (ServerEvent.useConnections (Thread.worker 0)) ++
    [ServerEvent.gotTask 0,
      ServerEvent.recv 0 (str "GET / HTTP/1.1\r\n\r\n") [0],
      ServerEvent.deal 0 fun _ => some 5] ++
    List.replicate 9 (ServerEvent.useOpt (Thread.worker 0)) ++
    [ServerEvent.deal 0 fun _ => some 5] ++
    outputEvents ++
    [ServerEvent.openFile true, ServerEvent.sendfile, ServerEvent.hangUp 0]

/-- The file is still open, twice. -/
theorem descriptors_leak :
    ¬ ∀ (events : List (ServerEvent 1)) (s : Server 1),
      Run step Run.free small events s → Quiet s →
        ∀ number, s.table.lookup number = initialTable.lookup number := by
  intro closed
  have executed : (fetchEvents.foldlM step small).map
      (fun s => (quietCheck s, s.table)) =
        some (true, initialTable ++ [none, some .file, some .file]) := by
    decide +kernel
  obtain ⟨s, executed, result⟩ := Option.map_eq_some_iff.mp executed
  obtain ⟨checked, table⟩ := Prod.mk.inj result
  have same := closed _ s (Run.of_executed executed) (quiet_of_check checked) 5
  rw [table] at same
  exact absurd same (by decide)

end Server
end Lab2
end CloudComputing
