import CloudComputing.Lab3.Recovery
import CloudComputing.Lab3.Threads

/-!
# Whom a program addresses

The programs of the coordinating thread use the locks of existing participants
only: their loops run over the participants, and a leader is one of them.
-/

namespace CloudComputing
namespace Lab3

open CloudComputing.Lab3.Parser

namespace Prog

variable {α β : Type}

/-- A program that uses the locks of these participants only, when they are
all there are. -/
def Among (ids : List Nat) : Prog α → Prop
  | .ret _ => True
  | .fail => True
  | .get next => ∀ co, co.ids = ids → (next co).Among ids
  | .modify _ next => next.Among ids
  | .lock _ port next => port.id ∈ ids ∧ next.Among ids

namespace Among

variable {ids : List Nat}

theorem pure (value : α) : (Pure.pure value : Prog α).Among ids :=
  trivial

/-- The rule of sequential composition. -/
theorem bind
    {first : Prog α}
    {second : α → Prog β}
    (before : first.Among ids)
    (after : ∀ value, (second value).Among ids) :
    (first >>= second).Among ids := by
  change (Prog.bind first second).Among ids
  induction first with
  | ret value => exact after value
  | fail => trivial
  | get next inductionHypothesis =>
      exact fun co same => inductionHypothesis co (before co same)
  | modify change next inductionHypothesis => exact inductionHypothesis before
  | lock op port next inductionHypothesis =>
      exact ⟨before.1, inductionHypothesis before.2⟩

theorem read
    {next : Coordinator → Prog α}
    (after : ∀ co, co.ids = ids → (next co).Among ids) :
    (Prog.read >>= next).Among ids :=
  after

theorem write
    {change : Coordinator → Coordinator}
    {next : Unit → Prog α}
    (after : (next ()).Among ids) :
    (Prog.write change >>= next).Among ids :=
  after

theorem post
    (port : Port)
    (member : port.id ∈ ids)
    (text : Bytes) :
    (Lab3.post port text).Among ids :=
  ⟨member, member, trivial⟩

theorem collect
    (port : Port)
    (member : port.id ∈ ids) :
    (Lab3.collect port).Among ids :=
  ⟨member, fun _ _ => ⟨member, trivial⟩⟩

theorem postAll
    {port : Nat → Port}
    (own : ∀ id, (port id).id = id)
    (text : Bytes)
    {part : List Nat}
    (members : part ⊆ ids) :
    (Lab3.postAll port text part).Among ids := by
  induction part with
  | nil => trivial
  | cons id part inductionHypothesis =>
      obtain ⟨member, rest⟩ := List.cons_subset.mp members
      rw [Lab3.postAll]
      refine bind (post _ ?_ text) fun _ => inductionHypothesis rest
      rw [own]
      exact member

theorem collectVotes
    {part : List Nat}
    (members : part ⊆ ids)
    (vote : Bool) :
    (Lab3.collectVotes part vote).Among ids := by
  induction part generalizing vote with
  | nil => trivial
  | cons id part inductionHypothesis =>
      obtain ⟨member, rest⟩ := List.cons_subset.mp members
      rw [Lab3.collectVotes]
      exact bind (collect (.work id) member)
        fun _ => inductionHypothesis rest _

theorem collectCommits
    {part : List Nat}
    (members : part ⊆ ids)
    (done : Bool × Bytes) :
    (Lab3.collectCommits part done).Among ids := by
  induction part generalizing done with
  | nil => trivial
  | cons id part inductionHypothesis =>
      obtain ⟨member, rest⟩ := List.cons_subset.mp members
      rw [Lab3.collectCommits]
      exact bind (collect (.work id) member)
        fun _ => inductionHypothesis rest _

theorem collectTxids
    {part : List Nat}
    (members : part ⊆ ids)
    (consistance : Bool) :
    (Lab3.collectTxids part consistance).Among ids := by
  induction part generalizing consistance with
  | nil => trivial
  | cons id part inductionHypothesis =>
      obtain ⟨member, rest⟩ := List.cons_subset.mp members
      rw [Follows.collectTxids_cons]
      refine bind (collect (.recov id) member) fun outcome => ?_
      refine bind (read fun co _ => ?_) fun _ => inductionHypothesis rest _
      split
      · trivial
      · trivial

theorem updateDB (resp : Bytes) : (Lab3.updateDB resp).Among ids := by
  refine read fun co same => write ?_
  rw [same]
  refine bind (postAll (fun _ => rfl) _ (List.Subset.refl ids)) fun _ => ?_
  refine bind (collectVotes (List.Subset.refl ids) false) fun vote => ?_
  split
  · refine bind (postAll (fun _ => rfl) _ (List.Subset.refl ids)) fun _ => ?_
    refine bind (collectCommits (List.Subset.refl ids) _) fun done => ?_
    dsimp only
    split
    · refine read fun co _ => ?_
      split
      · trivial
      · trivial
    · trivial
  · trivial

theorem requestFrom
    (resp : Bytes)
    {part : List Nat}
    (members : part ⊆ ids) :
    (Lab3.requestFrom resp part).Among ids := by
  induction part with
  | nil => trivial
  | cons id part inductionHypothesis =>
      obtain ⟨member, rest⟩ := List.cons_subset.mp members
      rw [Lab3.requestFrom]
      refine bind (post (.work id) member _) fun _ => ?_
      refine bind (collect (.work id) member) fun outcome => ?_
      dsimp only
      split
      · trivial
      · exact inductionHypothesis rest

theorem request (resp : Bytes) : (Lab3.request resp).Among ids :=
  read fun _ same => requestFrom resp (same ▸ List.Subset.refl _)

theorem pushAll
    (text : Bytes)
    {part : List Nat}
    (members : part ⊆ ids) :
    (Lab3.pushAll text part).Among ids := by
  induction part with
  | nil => trivial
  | cons id part inductionHypothesis =>
      obtain ⟨member, rest⟩ := List.cons_subset.mp members
      rw [Lab3.pushAll]
      refine bind (post (.recov id) member _) fun _ => ?_
      exact bind (collect (.recov id) member)
        fun _ => inductionHypothesis rest

theorem pushRecord
    (tid : Nat)
    {part : List Nat}
    (members : part ⊆ ids) :
    (Lab3.pushRecord tid part).Among ids := by
  induction part with
  | nil => trivial
  | cons id part inductionHypothesis =>
      obtain ⟨member, rest⟩ := List.cons_subset.mp members
      refine read fun co _ => ?_
      split
      · trivial
      · refine bind (post (.recov id) member _) fun _ => ?_
        exact bind (collect (.recov id) member)
          fun _ => inductionHypothesis rest

theorem recoveryFromCLoop (count tid : Nat) :
    (Lab3.recoveryFromCLoop ids count tid).Among ids := by
  induction count generalizing tid with
  | zero => trivial
  | succ count inductionHypothesis =>
      exact bind (pushRecord tid (List.Subset.refl ids))
        fun _ => inductionHypothesis (tid + 1)

theorem recoveryFromC : Lab3.recoveryFromC.Among ids := by
  refine read fun co same => ?_
  rw [same]
  exact recoveryFromCLoop _ _

theorem fetchLoop
    {leader : Nat}
    (member : leader ∈ ids)
    (count minID : Nat) :
    (Lab3.fetchLoop leader ids count minID).Among ids := by
  induction count generalizing minID with
  | zero => trivial
  | succ count inductionHypothesis =>
      rw [Lab3.fetchLoop]
      refine bind (post (.work leader) member _) fun _ => ?_
      refine bind (collect (.work leader) member) fun outcome => ?_
      dsimp only
      split
      · split
        · trivial
        · exact write (bind (pushAll _ (List.Subset.refl ids))
            fun _ => inductionHypothesis (minID + 1))
      · trivial

/-- A leader is in the table, so it is a participant. -/
theorem recoveryFromPLoop (rounds minID : Nat) :
    (Lab3.recoveryFromPLoop ids rounds minID).Among ids := by
  induction rounds generalizing minID with
  | zero => trivial
  | succ rounds inductionHypothesis =>
      refine read fun co same => ?_
      dsimp only
      split
      · exact recoveryFromC
      · rename_i isLeader
        obtain ⟨max, leader, found, _, choice⟩ := getRecoveryLeader_spec co
        rw [found] at isLeader ⊢
        have member : leader ∈ ids := by
          rcases choice with ⟨none, _⟩ | ⟨_, member, _⟩
          · exact absurd none isLeader
          · exact same ▸ member
        exact write (bind (fetchLoop member _ _)
          fun minID => inductionHypothesis minID)

theorem recoveryFromP (min : Nat) : (Lab3.recoveryFromP min).Among ids := by
  refine read fun co same => ?_
  rw [same]
  exact recoveryFromPLoop _ _

theorem recoveryBody (minID : Nat) : (Lab3.recoveryBody minID).Among ids := by
  refine write (read fun co same => ?_)
  rw [same]
  refine bind (postAll (fun _ => rfl) _ (List.Subset.refl ids)) fun _ => ?_
  refine bind (collectTxids (List.Subset.refl ids) true) fun consistance => ?_
  split
  · trivial
  · exact read fun co _ => bind (recoveryFromP _) fun _ => trivial

end Among
end Prog

/-- Every function that is called addresses existing participants. -/
theorem among_call (ids : List Nat) (call : Call) : call.prog.Among ids := by
  cases call with
  | update resp => exact .bind (.updateDB resp) fun _ => trivial
  | request resp => exact .bind (.request resp) fun _ => trivial
  | recovery minID => exact .recoveryBody minID

/-- A step of the coordinating thread keeps to existing participants. -/
theorem Threads.among_coordinate
    {t t' : Threads}
    (among : t.prog.Among t.co.ids)
    (taken : t.coordinate = some t') :
    t'.prog.Among t.co.ids := by
  unfold Threads.coordinate at taken
  split at taken
  · cases taken
  · cases taken
  · rename_i next isGet
    cases taken
    rw [isGet] at among
    exact among t.co rfl
  · rename_i change next isModify
    cases taken
    rw [isModify] at among
    exact among
  · rename_i op port next isLock
    rw [isLock] at among
    split at taken
    · obtain ⟨sems, _, isNext⟩ := Option.bind_eq_some_iff.mp taken
      cases isNext
      exact isLock ▸ among
    · obtain ⟨sems, _, isNext⟩ := Option.bind_eq_some_iff.mp taken
      cases isNext
      have same : (complete { t with sems := sems, prog := next } op
          port).prog = next := by
        cases op <;> rfl
      rw [same]
      exact among.2

end Lab3
end CloudComputing
