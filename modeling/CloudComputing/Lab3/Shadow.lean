import CloudComputing.Lab3.Flights
import CloudComputing.Lab3.Promotions
import CloudComputing.Lab3.Results

/-!
# The threads and an execution with prompt workers

Behind the threads runs an execution in which a worker does its task at once,
with the fates that the exchanges turn out to have.  A task that its worker has
not done yet has been done there, whatever its fate will be; apart from such
tasks and from what happens without the coordinator, the two agree (`Lags`).
So whatever holds at the end of every such execution of the rest of the program
holds at the end of the program (`Sim`).
-/

namespace CloudComputing
namespace Lab3

open CloudComputing.Lab3.Parser Network

/-- Whether a worker has a task that it has not done yet. -/
def WorkerPc.undone (port : Port) : WorkerPc → Nat
  | .locking rest => if .wait (port, .task) .full ∈ rest then 0 else 1
  | .exchange _ _ => 1
  | .releasing _ => 0

theorem WorkerPc.undone_le_token (port : Port) (pc : WorkerPc) :
    pc.undone port ≤ pc.token port := by
  cases pc with
  | locking rest => exact le_rfl
  | exchange number text => exact le_rfl
  | releasing rest => exact Nat.zero_le _

/-- The worker of a port does its task. -/
def Port.run (port : Port) (peer : Entry × Node) : Entry × Node :=
  (port.body peer.1 peer.2).getD peer

namespace Threads

/-- A task is posted for the port, and its worker has not done it. -/
def Busy (t : Threads) (port : Port) : Prop :=
  t.sems (port, .task) .full + (t.worker port).undone port = 1

instance (t : Threads) (port : Port) : Decidable (t.Busy port) :=
  inferInstanceAs (Decidable (_ = _))

/-- A participant after its tasks. -/
def promptPeer
    (t : Threads)
    (base : Coordinator)
    (node : Nat → Node)
    (fates : Nat → List Fate)
    (id : Nat) : Entry × Node :=
  let peer := (base.entry id, (node id).withFates (fates id))
  if t.Busy (.work id) then (Port.work id).run peer
  else if t.Busy (.recov id) then (Port.recov id).run peer
  else peer

/-- The state of the execution with prompt workers, when the exchanges to come
have these fates. -/
def prompt
    (t : Threads)
    (base : Coordinator)
    (node : Nat → Node)
    (fates : Nat → List Fate) : Sys where
  co := { base with entry := fun id => (t.promptPeer base node fates id).1 }
  node := fun id => (t.promptPeer base node fates id).2

/-- The threads lag behind an execution with prompt workers; `base` and `node`
are its state without the tasks that are not done yet. -/
structure Lags
    (mode : Mode)
    (t : Threads)
    (base : Coordinator)
    (node : Nat → Node) : Prop where
  txid : t.co.txid = base.txid
  lg : t.co.lg = base.lg
  pnum : t.co.pnum = base.pnum
  isLocal : t.prog.Local mode (fun _ phase => phase = postedOn []) t.phase
  uses : mode = .work → ∀ id, t.phase (.recov id) = .idle
  admitted : ∀ port, t.Busy port →
    (base.entry port.id).admits port ≠ none
  stands : ∀ id, (∀ port : Port, port.id = id → (t.worker port).Outside) →
    Stands mode (base.entry id) (node id) (t.co.entry id) (t.line id)
  flies : ∀ port number text, t.worker port = .exchange number text →
    InFlight mode port text (base.entry port.id) (node port.id)
      (t.co.entry port.id) (t.line port.id)
  waits : mode = .recovery → t.co.Waits
  done : mode = .recovery → ∀ port, t.phase port = .posted →
    ¬ t.Busy port → Answered port t.co
  leads : mode = .recovery → ∀ id, t.phase (.work id) = .posted →
    (t.co.entry id).Unlisted
  seen : mode = .recovery → ∃ seen, Rely t.phase seen t.co ∧
    t.prog.Guarded (fun _ _ _ => True) t.phase seen

/-- Every execution of the rest of the program with prompt workers succeeds
and has this postcondition. -/
def Sim (mode : Mode) (post : Sys → Prop) (t : Threads) : Prop :=
  ∃ base node, t.Lags mode base node ∧
    ∀ fates, ∃ s, t.prog.exec (t.prompt base node fates) = some ((), s) ∧
      post s

variable
  {mode : Mode}
  {t t' : Threads}
  {port : Port}
  {base : Coordinator}
  {node : Nat → Node}

/-! ## Tasks that are not done -/

/-- The coordinating thread waits for a task that is not done. -/
theorem PortOk.of_busy
    (ok : t.PortOk port)
    (busy : t.Busy port) :
    t.phase port = .posted ∧ t.holds port = 0 := by
  have sum := ok.token
  have undone := WorkerPc.undone_le_token port (t.worker port)
  unfold Busy at busy
  have none : t.holds port = 0 := by omega
  refine ⟨?_, none⟩
  by_contra other
  rw [holds_of_not_posted other] at none
  cases none

theorem PortOk.not_busy
    (ok : t.PortOk port)
    (holds : t.holds port = 1) :
    ¬ t.Busy port := by
  intro busy
  have none := (ok.of_busy busy).2
  omega

/-- A worker with a task is busy until it is done. -/
theorem PortOk.busy
    (ok : t.PortOk port)
    (undone : (t.worker port).undone port = 1) :
    t.Busy port := by
  have sum := ok.token
  have le := WorkerPc.undone_le_token port (t.worker port)
  unfold Busy
  omega

theorem PortOk.busy_of_exchange
    (ok : t.PortOk port)
    {number : Nat}
    {text : Bytes}
    (exchange : t.worker port = .exchange number text) :
    t.Busy port :=
  ok.busy (by rw [exchange]; rfl)

/-- Without a posted task no worker of the participant is at work. -/
theorem Ok.unposted
    (ok : t.Ok)
    {id : Nat}
    (unposted : Unposted t.phase id)
    {port : Port}
    (own : port.id = id) :
    ¬ t.Busy port := by
  intro busy
  have posted := ((ok.ports port).of_busy busy).1
  cases port with
  | work other => exact unposted.1 (own ▸ posted)
  | recov other => exact unposted.2 (own ▸ posted)

theorem Ok.outside_of_unposted
    (ok : t.Ok)
    {id : Nat}
    (unposted : Unposted t.phase id)
    {port : Port}
    (own : port.id = id) :
    (t.worker port).Outside := by
  intro number text exchange
  exact ok.unposted unposted own ((ok.ports port).busy_of_exchange exchange)

/-- At most one of the two workers of a participant has a task. -/
theorem Ok.sibling_not_busy
    (ok : t.Ok)
    (busy : t.Busy port) :
    ¬ t.Busy port.sibling := by
  intro other
  have posted := ((ok.ports port).of_busy busy).1
  have posted' := ((ok.ports port.sibling).of_busy other).1
  rcases ok.single port with idle | idle
  · rw [posted] at idle
    cases idle
  · rw [posted'] at idle
    cases idle

/-! ## The execution with prompt workers -/

theorem promptPeer_of_idle
    {id : Nat}
    (idle : ∀ port : Port, port.id = id → ¬ t.Busy port)
    (base : Coordinator)
    (node : Nat → Node)
    (fates : Nat → List Fate) :
    t.promptPeer base node fates id =
      (base.entry id, (node id).withFates (fates id)) := by
  rw [promptPeer, if_neg (idle (.work id) rfl), if_neg (idle (.recov id) rfl)]

theorem promptPeer_of_busy
    (ok : t.Ok)
    (busy : t.Busy port)
    (base : Coordinator)
    (node : Nat → Node)
    (fates : Nat → List Fate) :
    t.promptPeer base node fates port.id =
      port.run (base.entry port.id,
        (node port.id).withFates (fates port.id)) := by
  cases port with
  | work id => exact if_pos busy
  | recov id =>
      have sibling : ¬ t.Busy (.work id) := ok.sibling_not_busy busy
      change (if t.Busy (.work id) then _
        else if t.Busy (.recov id) then _ else _) = _
      rw [if_neg sibling]
      exact if_pos busy

/-- The same tasks are not done, for the same participant. -/
theorem promptPeer_congr
    {id : Nat}
    (busy : ∀ port : Port, port.id = id → (t'.Busy port ↔ t.Busy port))
    {base base' : Coordinator}
    (entry : base'.entry id = base.entry id)
    {node node' : Nat → Node}
    (same : node' id = node id)
    {fates fates' : Nat → List Fate}
    (coming : fates' id = fates id) :
    t'.promptPeer base' node' fates' id = t.promptPeer base node fates id := by
  simp only [promptPeer, busy (.work id) rfl, busy (.recov id) rfl, entry, same,
    coming]

theorem prompt_congr
    (busy : ∀ port, t'.Busy port ↔ t.Busy port)
    (base : Coordinator)
    (node : Nat → Node)
    (fates : Nat → List Fate) :
    t'.prompt base node fates = t.prompt base node fates := by
  have same : t'.promptPeer base node fates = t.promptPeer base node fates := by
    funext id
    exact promptPeer_congr (fun port _ => busy port) rfl rfl rfl
  rw [prompt, prompt, same]

/-- What the program may read of the execution is in `base`. -/
theorem Ok.agree_prompt
    (ok : t.Ok)
    (base : Coordinator)
    (node : Nat → Node)
    (fates : Nat → List Fate) :
    Agree .recovery t.phase base (t.prompt base node fates).co := by
  have entry : ∀ id, Unposted t.phase id →
      (t.prompt base node fates).co.entry id = base.entry id := by
    intro id unposted
    have idle := promptPeer_of_idle (fun _ own => ok.unposted unposted own)
      base node fates
    exact congrArg Prod.fst idle
  exact ⟨rfl, rfl, rfl, fun id unposted => by rw [entry id unposted],
    fun _ id unposted => entry id unposted⟩

theorem Lags.agree
    (lags : t.Lags mode base node)
    (ok : t.Ok) :
    Agree mode t.phase t.co base := by
  have stands : ∀ id, Unposted t.phase id →
      Stands mode (base.entry id) (node id) (t.co.entry id) (t.line id) :=
    fun id unposted => lags.stands id
      fun _ own => ok.outside_of_unposted unposted own
  refine ⟨lags.txid.symm, lags.lg.symm, lags.pnum.symm,
    fun id unposted => ?_, fun isRecovery id unposted => ?_⟩
  · obtain ⟨node', behind, _⟩ := stands id unposted
    exact behind.slots.symm
  · subst isRecovery
    obtain ⟨node', behind, _⟩ := stands id unposted
    exact behind.exact.symm

/-- The program reads the same from the threads and from the execution. -/
theorem Lags.agree_prompt
    (lags : t.Lags mode base node)
    (ok : t.Ok)
    (fates : Nat → List Fate) :
    Agree mode t.phase t.co (t.prompt base node fates).co := by
  have first := lags.agree ok
  have second := ok.agree_prompt base node fates
  exact ⟨second.txid.trans first.txid, second.lg.trans first.lg,
    second.pnum.trans first.pnum,
    fun id unposted =>
      (second.slots id unposted).trans (first.slots id unposted),
    fun isRecovery id unposted =>
      (second.entry rfl id unposted).trans
        (first.entry isRecovery id unposted)⟩

end Threads
end Lab3
end CloudComputing
