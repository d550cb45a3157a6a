import Mathlib.Data.List.Chain
import Mathlib.Data.List.Nodup
import Mathlib.Logic.Function.Basic
import Mathlib.Tactic

/-!
# Circular doubly linked lists

A ring of nodes is given by the functions that lead from a node to the next one
and to the one before.  A node that is taken out keeps its own two links, so
putting it back restores the functions as they were.  A loop along a ring
visits its members one after the other, as long as its body leaves their links
alone.
-/

namespace CloudComputing

variable {α : Type*}

/-- The nodes are neighbours. -/
def Linked (next prev : α → α) (first second : α) : Prop :=
  next first = second ∧ prev second = first

/-- The members, with their head, are a ring. -/
structure Ring (next prev : α → α) (head : α) (members : List α) : Prop where
  nodup : (head :: members).Nodup
  chain : (head :: (members ++ [head])).IsChain (Linked next prev)

/-- A list without one of its nodes. -/
theorem filter_ne_append
    [DecidableEq α]
    {node : α}
    {before after : List α}
    (nodup : (before ++ node :: after).Nodup) :
    (before ++ node :: after).filter (· ≠ node) = before ++ after := by
  have absent := (List.nodup_cons.mp (List.nodup_middle.mp nodup)).1
  rw [List.filter_append, List.filter_cons_of_neg (by simp),
    ← List.filter_append]
  apply List.filter_eq_self.mpr
  intro other member
  apply decide_eq_true
  rintro rfl
  exact absent member

/-- Neighbours are neighbours by the links of the first one and of the second
one. -/
theorem chain_transport
    {next prev next' prev' : α → α}
    {nodes : List α}
    (chain : nodes.IsChain (Linked next prev))
    (sameNext : ∀ node ∈ nodes.dropLast, next' node = next node)
    (samePrev : ∀ node ∈ nodes.tail, prev' node = prev node) :
    nodes.IsChain (Linked next' prev') := by
  induction nodes with
  | nil => exact List.isChain_nil
  | cons first rest inductionHypothesis =>
      cases rest with
      | nil => exact List.isChain_singleton first
      | cons second rest =>
          obtain ⟨⟨forward, backward⟩, chain⟩ := List.isChain_cons_cons.mp chain
          refine List.isChain_cons_cons.mpr ⟨⟨?_, ?_⟩, ?_⟩
          · rw [sameNext first (by simp), forward]
          · rw [samePrev second (by simp), backward]
          · apply inductionHypothesis chain
            · intro node member
              exact sameNext node (by
                rw [List.dropLast_cons_of_ne_nil (List.cons_ne_nil _ _)]
                exact List.mem_cons_of_mem first member)
            · intro node member
              exact samePrev node (List.mem_cons_of_mem second member)

namespace Ring

variable {next prev next' prev' : α → α} {head : α} {members : List α}

/-- A ring depends on the links of its nodes only. -/
theorem transport
    (ring : Ring next prev head members)
    (sameNext : ∀ node ∈ head :: members, next' node = next node)
    (samePrev : ∀ node ∈ head :: members, prev' node = prev node) :
    Ring next' prev' head members where
  nodup := ring.nodup
  chain := by
    apply chain_transport ring.chain
    · intro node member
      rw [← List.cons_append, List.dropLast_concat] at member
      exact sameNext node member
    · intro node member
      rw [List.tail_cons, List.mem_append, List.mem_singleton] at member
      rcases member with member | rfl
      · exact samePrev node (List.mem_cons_of_mem head member)
      · exact samePrev node List.mem_cons_self

/-- A node that is linked to itself. -/
theorem singleton
    (forward : next head = head)
    (backward : prev head = head) :
    Ring next prev head [] where
  nodup := List.nodup_singleton head
  chain := List.isChain_pair.mpr ⟨forward, backward⟩

/-- The ring the other way round. -/
theorem reverse (ring : Ring next prev head members) :
    Ring prev next head members.reverse where
  nodup := by
    have nodup := ring.nodup
    rw [List.nodup_cons] at nodup ⊢
    exact ⟨by simpa using nodup.1, List.nodup_reverse.mpr nodup.2⟩
  chain := by
    have reversed : head :: (members.reverse ++ [head]) =
        (head :: (members ++ [head])).reverse := by
      simp
    rw [reversed, List.isChain_reverse]
    apply ring.chain.imp
    intro first second linked
    exact ⟨linked.2, linked.1⟩

/-- The ring from another of its nodes. -/
theorem rotate
    {node : α}
    {before after : List α}
    (ring : Ring next prev head (before ++ node :: after)) :
    Ring next prev node (after ++ head :: before) where
  nodup := by
    have shuffled : (head :: (before ++ node :: after)).Perm
        (node :: (after ++ head :: before)) := by
      rw [← List.cons_append, ← List.cons_append]
      exact List.perm_append_comm
    exact shuffled.nodup_iff.mp ring.nodup
  chain := by
    have chain := ring.chain
    rw [List.append_assoc, List.cons_append, List.isChain_cons_split] at chain
    rw [List.append_assoc, List.cons_append, List.isChain_cons_split]
    exact ⟨chain.2, chain.1⟩

/-- Two nodes of the ring with nothing between them are neighbours. -/
theorem linked
    (ring : Ring next prev head members)
    {before after : List α}
    {first second : α}
    (split : head :: (members ++ [head]) =
      before ++ first :: second :: after) :
    Linked next prev first second :=
  List.isChain_iff_forall_rel_of_append_cons_cons.mp ring.chain split

/-- Behind the last node there is the head. -/
theorem last
    (ring : Ring next prev head members)
    {node : α}
    (isLast : node ∈ (head :: members).getLast?) :
    Linked next prev node head := by
  have chain := ring.chain
  rw [← List.cons_append, List.isChain_append] at chain
  exact chain.2.2 node isLast head rfl

/-- Behind the head there is the first node. -/
theorem first
    (ring : Ring next prev head members)
    {node : α}
    (isFirst : node ∈ (members ++ [head]).head?) :
    Linked next prev head node :=
  (List.isChain_cons.mp ring.chain).1 node isFirst

/-- The head has its neighbours in the ring. -/
theorem head_neighbours (ring : Ring next prev head members) :
    next head ∈ head :: members ∧ prev head ∈ head :: members ∧
      prev (next head) = head ∧ next (prev head) = head := by
  have nonempty : members ++ [head] ≠ [] := by simp
  obtain ⟨forward, backward⟩ := ring.first (List.head_mem_head? nonempty)
  have isLast := List.getLast_mem_getLast? (List.cons_ne_nil head members)
  obtain ⟨forward', backward'⟩ := ring.last isLast
  refine ⟨?_, ?_, ?_, ?_⟩
  · rw [forward]
    have member := List.head_mem nonempty
    rw [List.mem_append, List.mem_singleton] at member
    rw [List.mem_cons]
    exact member.symm
  · rw [backward']
    exact List.getLast_mem _
  · rw [forward, backward]
  · rw [backward', forward']

/-- Every node has its neighbours in the ring. -/
theorem neighbours
    (ring : Ring next prev head members)
    {node : α}
    (member : node ∈ head :: members) :
    next node ∈ head :: members ∧ prev node ∈ head :: members ∧
      prev (next node) = node ∧ next (prev node) = node := by
  rcases List.mem_cons.mp member with rfl | member
  · exact ring.head_neighbours
  · obtain ⟨before, after, rfl⟩ := List.append_of_mem member
    have same : ∀ other, other ∈ node :: (after ++ head :: before) ↔
        other ∈ head :: (before ++ node :: after) := by
      intro other
      simp only [List.mem_cons, List.mem_append]
      tauto
    obtain ⟨forward, backward, both⟩ := ring.rotate.head_neighbours
    exact ⟨(same _).mp forward, (same _).mp backward, both⟩

variable [DecidableEq α]

/-- Take a node out: the link of the node before. -/
def unlinkNext (next prev : α → α) (node : α) : α → α :=
  Function.update next (prev node) (next node)

/-- Put a node back where it was: the link of the node before. -/
def relinkNext (next prev : α → α) (node : α) : α → α :=
  Function.update next (prev node) node

/-- A node that is taken out keeps its own link. -/
theorem unlinkNext_self (next prev : α → α) (node : α) :
    unlinkNext next prev node node = next node := by
  unfold unlinkNext
  rw [Function.update_apply]
  split
  · rfl
  · rfl

/-- A node that has been taken out can be put back. -/
theorem relink_unlink
    (ring : Ring next prev head members)
    {node : α}
    (member : node ∈ head :: members) :
    relinkNext (unlinkNext next prev node) prev node = next := by
  obtain ⟨_, _, _, forward⟩ := ring.neighbours member
  unfold relinkNext unlinkNext
  rw [Function.update_idem]
  nth_rewrite 2 [← forward]
  exact Function.update_eq_self (prev node) next

/-- Taking a node out of a ring. -/
theorem unlink
    {node : α}
    {before after : List α}
    (ring : Ring next prev head (before ++ node :: after)) :
    Ring (unlinkNext next prev node) (unlinkNext prev next node) head
      (before ++ after) where
  nodup := by
    have nodup := ring.nodup
    refine nodup.sublist (List.Sublist.cons_cons head ?_)
    exact List.Sublist.append_left (List.sublist_cons_self node after) before
  chain := by
    have chain := ring.chain
    have split : head :: (before ++ node :: after ++ [head]) =
        (head :: before) ++ node :: (after ++ [head]) := by simp
    rw [split, List.isChain_append] at chain
    obtain ⟨front, back, joint⟩ := chain
    obtain ⟨behind, back⟩ := List.isChain_cons.mp back
    have apart : ∀ other ∈ head :: before, other ≠ node ∧ other ∉ after := by
      have nodup := ring.nodup
      rw [← List.cons_append, List.nodup_append] at nodup
      intro other member
      exact ⟨nodup.2.2 other member node (by simp), fun inside =>
        nodup.2.2 other member other (List.mem_cons_of_mem node inside) rfl⟩
    have nodupFront : (head :: before).Nodup := by
      have nodup := ring.nodup
      rw [← List.cons_append, List.nodup_append] at nodup
      exact nodup.1
    have nodupAfter : after.Nodup := by
      have nodup := ring.nodup
      rw [← List.cons_append, List.nodup_append] at nodup
      exact (List.nodup_cons.mp nodup.2.1).2
    have nonempty : head :: before ≠ [] := List.cons_ne_nil head before
    have nonempty' : after ++ [head] ≠ [] := by simp
    have previous : prev node = (head :: before).getLast nonempty :=
      (joint _ (List.getLast_mem_getLast? nonempty) node rfl).2
    have following : next node = (after ++ [head]).head nonempty' :=
      (behind _ (List.head_mem_head? nonempty')).1
    have split' : head :: (before ++ after ++ [head]) =
        (head :: before) ++ (after ++ [head]) := by simp
    rw [split', List.isChain_append]
    refine ⟨chain_transport front ?_ ?_, chain_transport back ?_ ?_, ?_⟩
    · intro other member
      apply Function.update_of_ne
      rw [previous]
      rintro rfl
      rw [← List.dropLast_append_getLast nonempty, List.nodup_append]
        at nodupFront
      exact nodupFront.2.2 _ member _ (by simp) rfl
    · intro other member
      apply Function.update_of_ne
      rw [following]
      rintro rfl
      have inside := List.head_mem nonempty'
      rw [List.mem_append, List.mem_singleton] at inside
      rcases inside with inside | isHead
      · exact (apart _ (List.mem_cons_of_mem head member)).2 inside
      · rw [List.tail_cons, isHead] at member
        exact (List.nodup_cons.mp nodupFront).1 member
    · intro other member
      rw [List.dropLast_concat] at member
      apply Function.update_of_ne
      rw [previous]
      rintro rfl
      exact (apart _ (List.getLast_mem nonempty)).2 member
    · intro other member
      apply Function.update_of_ne
      rw [following]
      rintro rfl
      have nodup : (after ++ [head]).Nodup := by
        rw [List.nodup_append]
        refine ⟨nodupAfter, List.nodup_singleton head, ?_⟩
        rintro other inside _ isHead rfl
        rw [List.mem_singleton] at isHead
        exact (apart head List.mem_cons_self).2 (isHead ▸ inside)
      rw [← List.cons_head_tail nonempty', List.nodup_cons] at nodup
      exact nodup.1 member
    · intro first isLast second isFirst
      rw [List.getLast?_eq_some_getLast nonempty] at isLast
      rw [List.head?_eq_some_head nonempty'] at isFirst
      cases isLast
      cases isFirst
      unfold unlinkNext
      rw [← previous, ← following]
      exact ⟨Function.update_self _ _ _, Function.update_self _ _ _⟩

/-- Put a new node in front of the head: the links to the next nodes. -/
def insertNext (next prev : α → α) (head node : α) : α → α :=
  Function.update (Function.update next node head) (prev head) node

/-- Put a new node in front of the head: the links to the nodes before. -/
def insertPrev (prev : α → α) (head node : α) : α → α :=
  Function.update (Function.update prev node (prev head)) head node

/-- A new node changes the links of the ring only: those to the next nodes. -/
theorem insertNext_of_notMem
    (ring : Ring next prev head members)
    {node other : α}
    (differs : other ≠ node)
    (outside : other ∉ head :: members) :
    insertNext next prev head node other = next other := by
  have inside := ring.head_neighbours.2.1
  have notLast : other ≠ prev head := by
    rintro rfl
    exact outside inside
  unfold insertNext
  rw [Function.update_of_ne notLast, Function.update_of_ne differs]

/-- A new node changes the links of the ring only: those to the nodes before. -/
theorem insertPrev_of_notMem
    {node other : α}
    (differs : other ≠ node)
    (outside : other ∉ head :: members) :
    insertPrev prev head node other = prev other := by
  have notHead : other ≠ head := by
    rintro rfl
    exact outside List.mem_cons_self
  unfold insertPrev
  rw [Function.update_of_ne notHead, Function.update_of_ne differs]

/-- A new node in front of the head is the last one of the ring. -/
theorem insert
    (ring : Ring next prev head members)
    {node : α}
    (fresh : node ∉ head :: members) :
    Ring (insertNext next prev head node) (insertPrev prev head node) head
      (members ++ [node]) where
  nodup := by
    rw [← List.cons_append, List.nodup_append]
    refine ⟨ring.nodup, List.nodup_singleton node, ?_⟩
    rintro other member _ isNode rfl
    rw [List.mem_singleton] at isNode
    exact fresh (isNode ▸ member)
  chain := by
    have nonempty : head :: members ≠ [] := List.cons_ne_nil head members
    have previous : prev head = (head :: members).getLast nonempty :=
      (ring.last (List.getLast_mem_getLast? nonempty)).2
    have differs : head ≠ node := by
      rintro rfl
      exact fresh List.mem_cons_self
    have other : prev head ≠ node := by
      intro same
      rw [← same] at fresh
      exact fresh ring.head_neighbours.2.1
    have front : (head :: members).IsChain (Linked next prev) := by
      have chain := ring.chain
      rw [← List.cons_append, List.isChain_append] at chain
      exact chain.1
    have split : head :: (members ++ [node] ++ [head]) =
        (head :: members) ++ [node, head] := by simp
    rw [split, List.isChain_append]
    refine ⟨chain_transport front ?_ ?_, List.isChain_pair.mpr ⟨?_, ?_⟩, ?_⟩
    · intro inner member
      have inside : inner ∈ head :: members := List.mem_of_mem_dropLast member
      have notLast : inner ≠ prev head := by
        rw [previous]
        rintro rfl
        have nodup := ring.nodup
        rw [← List.dropLast_append_getLast nonempty, List.nodup_append]
          at nodup
        exact nodup.2.2 _ member _ (by simp) rfl
      have notNode : inner ≠ node := by
        rintro rfl
        exact fresh inside
      unfold insertNext
      rw [Function.update_of_ne notLast, Function.update_of_ne notNode]
    · intro inner member
      rw [List.tail_cons] at member
      have notHead : inner ≠ head := by
        rintro rfl
        exact (List.nodup_cons.mp ring.nodup).1 member
      have notNode : inner ≠ node := by
        rintro rfl
        exact fresh (List.mem_cons_of_mem head member)
      unfold insertPrev
      rw [Function.update_of_ne notHead, Function.update_of_ne notNode]
    · unfold insertNext
      rw [Function.update_of_ne other.symm, Function.update_self]
    · exact Function.update_self _ _ _
    · intro inner isLast second isFirst
      rw [List.getLast?_eq_some_getLast nonempty] at isLast
      cases isLast
      cases isFirst
      unfold insertNext insertPrev
      rw [← previous]
      refine ⟨Function.update_self _ _ _, ?_⟩
      rw [Function.update_of_ne differs.symm, Function.update_self]

end Ring

/-! ## Several rings -/

/-- Rings without a common node, each with its head. -/
structure Rings
    (next prev : α → α)
    (heads : List α)
    (members : α → List α) : Prop where
  ring : ∀ head ∈ heads, Ring next prev head (members head)
  apart : ∀ head ∈ heads, ∀ other ∈ heads, head ≠ other →
    ∀ node ∈ head :: members head, node ∉ other :: members other

namespace Rings

variable {next prev : α → α} {heads : List α} {members : α → List α}

/-- Some of the rings. -/
theorem subset
    {heads' : List α}
    (rings : Rings next prev heads members)
    (fewer : heads' ⊆ heads) :
    Rings next prev heads' members where
  ring := fun head member => rings.ring head (fewer member)
  apart := fun head member other member' =>
    rings.apart head (fewer member) other (fewer member')

/-- Rings depend on the links of their nodes only. -/
theorem transport
    {next' prev' : α → α}
    (rings : Rings next prev heads members)
    (sameNext : ∀ head ∈ heads, ∀ node ∈ head :: members head,
      next' node = next node)
    (samePrev : ∀ head ∈ heads, ∀ node ∈ head :: members head,
      prev' node = prev node) :
    Rings next' prev' heads members where
  ring := fun head listed =>
    (rings.ring head listed).transport (sameNext head listed)
      (samePrev head listed)
  apart := rings.apart

/-- The members matter for the heads only. -/
theorem congr
    {members' : α → List α}
    (rings : Rings next prev heads members)
    (same : ∀ head ∈ heads, members' head = members head) :
    Rings next prev heads members' where
  ring := by
    intro head listed
    rw [same head listed]
    exact rings.ring head listed
  apart := by
    intro head listed other listed' differs
    rw [same head listed, same other listed']
    exact rings.apart head listed other listed' differs

variable [DecidableEq α]

/-- Taking a node out of one of the rings. -/
theorem unlink
    (rings : Rings next prev heads members)
    {head node : α}
    (listed : head ∈ heads)
    (member : node ∈ members head) :
    Rings (Ring.unlinkNext next prev node) (Ring.unlinkNext prev next node)
      heads (fun other => (members other).filter (· ≠ node)) where
  ring := by
    intro other listed'
    have ring := rings.ring head listed
    by_cases same : other = head
    · subst same
      obtain ⟨before, after, split⟩ := List.append_of_mem member
      rw [split] at ring ⊢
      rw [filter_ne_append (List.nodup_cons.mp ring.nodup).2]
      exact ring.unlink
    · have differs : ∀ inner ∈ head :: members head,
          inner ∉ other :: members other :=
        rings.apart head listed other listed' (Ne.symm same)
      have inside : node ∈ head :: members head :=
        List.mem_cons_of_mem head member
      obtain ⟨forward, backward, _⟩ := ring.neighbours inside
      have kept : (members other).filter (· ≠ node) = members other := by
        apply List.filter_eq_self.mpr
        intro inner innerMember
        apply decide_eq_true
        rintro rfl
        exact differs _ inside (List.mem_cons_of_mem other innerMember)
      rw [kept]
      apply (rings.ring other listed').transport
      · intro inner innerMember
        apply Function.update_of_ne
        rintro rfl
        exact differs _ backward innerMember
      · intro inner innerMember
        apply Function.update_of_ne
        rintro rfl
        exact differs _ forward innerMember
  apart := by
    intro first listed' second listed'' differs inner innerMember
    have weaker : ∀ other, inner ∈ other :: (members other).filter (· ≠ node) →
        inner ∈ other :: members other := by
      intro other found
      rcases List.mem_cons.mp found with rfl | found
      · exact List.mem_cons_self
      · exact List.mem_cons_of_mem other (List.mem_of_mem_filter found)
    intro found
    exact rings.apart first listed' second listed'' differs inner
      (weaker first innerMember) (weaker second found)

/-- A new node at the end of one of the rings. -/
theorem insert
    (rings : Rings next prev heads members)
    {head node : α}
    (listed : head ∈ heads)
    (fresh : ∀ other ∈ heads, node ∉ other :: members other) :
    Rings (Ring.insertNext next prev head node)
      (Ring.insertPrev prev head node) heads
      (fun other =>
        if other = head then members other ++ [node] else members other) where
  ring := by
    intro other listed'
    have ring := rings.ring head listed
    split
    case isTrue same =>
      subst same
      exact ring.insert (fresh other listed)
    case isFalse differs =>
      have outside := rings.apart other listed' head listed differs
      apply (rings.ring other listed').transport
      · intro inner inside
        apply ring.insertNext_of_notMem _ (outside inner inside)
        rintro rfl
        exact fresh other listed' inside
      · intro inner inside
        apply Ring.insertPrev_of_notMem _ (outside inner inside)
        rintro rfl
        exact fresh other listed' inside
  apart := by
    have weaker : ∀ (other inner : α),
        inner ∈ other :: (if other = head then members other ++ [node]
          else members other) →
        (other = head ∧ inner = node) ∨ inner ∈ other :: members other := by
      intro other inner inside
      split at inside
      case isTrue same =>
        rw [List.mem_cons, List.mem_append, List.mem_singleton] at inside
        rw [List.mem_cons]
        tauto
      case isFalse differs =>
        exact Or.inr inside
    intro first listed' second listed'' differs inner inside inside'
    rcases weaker first inner inside with ⟨isHead, rfl⟩ | found
    · rcases weaker second inner inside' with ⟨isHead', _⟩ | found'
      · exact differs (isHead.trans isHead'.symm)
      · exact fresh second listed'' found'
    · rcases weaker second inner inside' with ⟨_, rfl⟩ | found'
      · exact fresh first listed' found
      · exact rings.apart first listed' second listed'' differs inner found
          found'

end Rings

/-! ## Loops over a list -/

/-- A property of what a loop has come to and of its state holds at its end. -/
theorem foldlM_spec
    {σ : Type*}
    {body : σ → α → Option σ}
    {invariant : List α → σ → Prop}
    {items : List α}
    (steps : ∀ done item rest s, items = done ++ item :: rest →
      invariant done s →
      ∃ next, body s item = some next ∧ invariant (done ++ [item]) next)
    {s : σ}
    (start : invariant [] s) :
    ∃ last, items.foldlM body s = some last ∧ invariant items last := by
  have go : ∀ (rest done : List α) (s : σ), items = done ++ rest →
      invariant done s →
        ∃ last, rest.foldlM body s = some last ∧ invariant items last := by
    intro rest
    induction rest with
    | nil =>
        intro done s split kept
        rw [List.append_nil] at split
        exact ⟨s, rfl, split ▸ kept⟩
    | cons item rest inductionHypothesis =>
        intro done s split kept
        obtain ⟨next, executed, kept⟩ := steps done item rest s split kept
        obtain ⟨last, further, final⟩ := inductionHypothesis (done ++ [item])
          next (by rw [split, List.append_assoc]; rfl) kept
        refine ⟨last, ?_, final⟩
        rw [List.foldlM_cons, executed]
        exact further
  exact go items [] s rfl start

/-- What each step of a loop keeps holds at its end. -/
theorem foldlM_kept
    {σ : Type*}
    {body : σ → α → Option σ}
    {kept : σ → Prop}
    (steps : ∀ s item next, body s item = some next → kept s → kept next)
    {items : List α}
    {s last : σ}
    (executed : items.foldlM body s = some last)
    (start : kept s) :
    kept last := by
  induction items generalizing s with
  | nil =>
      cases executed
      exact start
  | cons item items inductionHypothesis =>
      rw [List.foldlM_cons] at executed
      obtain ⟨next, stepped, further⟩ := Option.bind_eq_some_iff.mp executed
      exact inductionHypothesis further (steps s item next stepped start)

/-- Nested loops are one loop. -/
theorem foldlM_flatMap
    {σ β : Type*}
    (body : σ → β → Option σ)
    (inner : α → List β)
    (items : List α)
    (s : σ) :
    (items.flatMap inner).foldlM body s =
      items.foldlM (fun s item => (inner item).foldlM body s) s := by
  induction items generalizing s with
  | nil => rfl
  | cons item items inductionHypothesis =>
      rw [List.flatMap_cons, List.foldlM_append, List.foldlM_cons]
      congr 1
      funext next
      exact inductionHypothesis next

/-! ## Loops along a ring -/

/-- A loop that starts at a node and goes on to the next one, until it comes
to `stop`. -/
def loop {σ : Type*} [DecidableEq α]
    (next : σ → α → α)
    (stop : α)
    (body : α → σ → Option σ) : Nat → α → σ → Option σ
  | 0, _, _ => none
  | fuel + 1, node, s =>
      if node = stop then some s
      else
        (body node s).bind fun s => loop next stop body fuel (next s node) s

/-- Behind a member there is the next one, and behind the last one the head. -/
theorem Ring.next_eq
    {forward backward : α → α}
    {head node : α}
    {before after : List α}
    (ring : Ring forward backward head (before ++ node :: after)) :
    forward node = after.headD head := by
  cases after with
  | nil =>
      have split : head :: (before ++ [node] ++ [head]) =
          (head :: before) ++ node :: head :: [] := by simp
      exact (ring.linked split).1
  | cons second after =>
      have split : head :: (before ++ node :: second :: after ++ [head]) =
          (head :: before) ++ node :: second :: (after ++ [head]) := by simp
      exact (ring.linked split).1

theorem Ring.next_head
    {forward backward : α → α}
    {head : α}
    {members : List α}
    (ring : Ring forward backward head members) :
    forward head = members.headD head := by
  cases members with
  | nil => exact (ring.first rfl).1
  | cons node members => exact (ring.first rfl).1

/-- In front of a member there is the one before, and in front of the first one
the head. -/
theorem Ring.prev_eq
    {forward backward : α → α}
    {head node : α}
    {before after : List α}
    (ring : Ring forward backward head (before ++ node :: after)) :
    backward node = before.getLastD head := by
  have reversed := ring.reverse
  have split : (before ++ node :: after).reverse =
      after.reverse ++ node :: before.reverse := by
    simp
  rw [split] at reversed
  rw [reversed.next_eq, List.headD_eq_head?_getD, List.head?_reverse,
    List.getLastD_eq_getLast?]

/-- In front of the head there is the last member. -/
theorem Ring.prev_head
    {forward backward : α → α}
    {head : α}
    {members : List α}
    (ring : Ring forward backward head members) :
    backward head = members.getLastD head := by
  rw [ring.reverse.next_head, List.headD_eq_head?_getD, List.head?_reverse,
    List.getLastD_eq_getLast?]

/-- The next node of any node of the ring. -/
theorem Ring.next_of_split
    {forward backward : α → α}
    {head node : α}
    {members before after : List α}
    (ring : Ring forward backward head members)
    (split : head :: members = before ++ node :: after) :
    forward node = after.headD head := by
  cases before with
  | nil =>
      obtain ⟨rfl, rfl⟩ := List.cons.inj split
      exact ring.next_head
  | cons first before =>
      obtain ⟨rfl, rfl⟩ := List.cons.inj split
      exact ring.next_eq

/-- The next node does not depend on anything but the members. -/
theorem Ring.next_unique
    {forward backward forward' backward' : α → α}
    {head : α}
    {members : List α}
    (ring : Ring forward backward head members)
    (ring' : Ring forward' backward' head members)
    {node : α}
    (member : node ∈ head :: members) :
    forward node = forward' node := by
  rcases List.mem_cons.mp member with rfl | member
  · rw [ring.next_head, ring'.next_head]
  · obtain ⟨before, after, rfl⟩ := List.append_of_mem member
    rw [ring.next_eq, ring'.next_eq]

/-- The node before does not depend on anything but the members. -/
theorem Ring.prev_unique
    {forward backward forward' backward' : α → α}
    {head : α}
    {members : List α}
    (ring : Ring forward backward head members)
    (ring' : Ring forward' backward' head members)
    {node : α}
    (member : node ∈ head :: members) :
    backward node = backward' node :=
  ring.reverse.next_unique ring'.reverse (by simpa using member)

/-- A change of the state that the loop does not depend on. -/
theorem loop_map
    {σ : Type*}
    [DecidableEq α]
    {next : σ → α → α}
    {stop : α}
    {body : α → σ → Option σ}
    {change : σ → σ}
    (sameNext : ∀ s, next (change s) = next s)
    (sameBody : ∀ node s, body node (change s) = (body node s).map change)
    (fuel : Nat)
    (node : α)
    (s : σ) :
    loop next stop body fuel node (change s) =
      (loop next stop body fuel node s).map change := by
  induction fuel generalizing node s with
  | zero => rfl
  | succ fuel inductionHypothesis =>
      unfold loop
      split
      · rfl
      · rw [sameBody]
        cases body node s with
        | none => rfl
        | some t =>
            rw [Option.map_some, Option.bind_some, Option.bind_some, sameNext]
            exact inductionHypothesis _ t

/-- A loop along a ring executes its body for each member, if the bodies leave
the links of the members alone. -/
theorem Ring.loop_eq
    {σ : Type*}
    [DecidableEq α]
    {forward backward : α → α}
    {head : α}
    {members : List α}
    (ring : Ring forward backward head members)
    {next : σ → α → α}
    {body : α → σ → Option σ}
    {effect : σ → α → σ}
    {invariant : List α → σ → Prop}
    (steps : ∀ node rest s, invariant (node :: rest) s →
      body node s = some (effect s node) ∧ invariant rest (effect s node))
    (links : ∀ rest s, invariant rest s →
      ∀ node ∈ head :: members, next s node = forward node)
    {s : σ}
    (start : invariant members s)
    {fuel : Nat}
    (enough : members.length < fuel) :
    loop next head body fuel (next s head) s =
        some (members.foldl effect s) ∧
      invariant [] (members.foldl effect s) := by
  have go : ∀ (rest done : List α) (s : σ) (fuel : Nat),
      members = done ++ rest → invariant rest s → rest.length < fuel →
        loop next head body fuel (rest.headD head) s =
            some (rest.foldl effect s) ∧
          invariant [] (rest.foldl effect s) := by
    intro rest
    induction rest with
    | nil =>
        intro done s fuel _ kept enough
        cases fuel with
        | zero => cases enough
        | succ fuel => exact ⟨if_pos rfl, kept⟩
    | cons node rest inductionHypothesis =>
        intro done s fuel split kept enough
        cases fuel with
        | zero => cases enough
        | succ fuel =>
            have nodup := ring.nodup
            rw [split] at nodup
            have notHead : node ≠ head := by
              rintro rfl
              exact (List.nodup_cons.mp nodup).1 (by simp)
            obtain ⟨executed, kept⟩ := steps node rest s kept
            have onward : next (effect s node) node = rest.headD head := by
              rw [links rest _ kept node (by rw [split]; simp)]
              rw [split] at ring
              exact ring.next_eq
            have further := inductionHypothesis (done ++ [node])
              (effect s node) fuel (by rw [split, List.append_assoc]; rfl)
              kept (Nat.lt_of_succ_lt_succ enough)
            rw [List.headD_cons, loop, if_neg notHead, executed,
              Option.bind_some, onward]
            exact further
  rw [links members s start head List.mem_cons_self, ring.next_head]
  exact go members [] s fuel rfl start enough

/-- A loop the other way round that undoes the effects one after the other. -/
theorem Ring.loop_undo
    {σ : Type*}
    [DecidableEq α]
    {forward backward : α → α}
    {head : α}
    {members : List α}
    (ring : Ring forward backward head members)
    {prev : σ → α → α}
    {undo : α → σ → Option σ}
    {effect : σ → α → σ}
    {invariant : List α → σ → Prop}
    (steps : ∀ node rest s, invariant (node :: rest) s →
      invariant rest (effect s node))
    (undone : ∀ node rest s, invariant (node :: rest) s →
      undo node (effect s node) = some s)
    (links : ∀ rest s, invariant rest s →
      ∀ node ∈ head :: members, prev s node = backward node)
    {s t : σ}
    (start : invariant members s)
    (final : t = members.foldl effect s)
    {fuel : Nat}
    (enough : members.length < fuel) :
    loop prev head undo fuel (prev t head) t = some s := by
  have reached : ∀ done rest, members = done ++ rest →
      invariant rest (done.foldl effect s) := by
    intro done
    induction done using List.reverseRecOn with
    | nil =>
        intro rest split
        rw [List.nil_append] at split
        exact split ▸ start
    | append_singleton done node inductionHypothesis =>
        intro rest split
        rw [List.append_assoc] at split
        rw [List.foldl_append]
        exact steps node rest _ (inductionHypothesis (node :: rest) split)
  have go : ∀ (done rest : List α) (fuel : Nat),
      members = done ++ rest → done.length < fuel →
        loop prev head undo fuel (done.getLastD head)
          (done.foldl effect s) = some s := by
    intro done
    induction done using List.reverseRecOn with
    | nil =>
        intro rest fuel _ enough
        cases fuel with
        | zero => cases enough
        | succ fuel => exact if_pos rfl
    | append_singleton done node inductionHypothesis =>
        intro rest fuel split enough
        rw [List.append_assoc, List.singleton_append] at split
        have start := reached done (node :: rest) split
        cases fuel with
        | zero => cases enough
        | succ fuel =>
            have nodup := ring.nodup
            rw [split] at nodup
            have notHead : node ≠ head := by
              rintro rfl
              exact (List.nodup_cons.mp nodup).1 (by simp)
            have onward : prev (done.foldl effect s) node =
                done.getLastD head := by
              rw [links _ _ start node (by rw [split]; simp)]
              rw [split] at ring
              exact ring.prev_eq
            rw [List.foldl_append, List.foldl_cons, List.foldl_nil,
              List.getLastD_concat, loop, if_neg notHead,
              undone node rest _ start, Option.bind_some, onward]
            apply inductionHypothesis (node :: rest) fuel split
            rw [List.length_append, List.length_singleton] at enough
            omega
  have last := reached members [] (List.append_nil members).symm
  rw [final, links [] _ last head List.mem_cons_self, ring.prev_head]
  exact go members [] fuel (List.append_nil members).symm enough

/-! ## Loops along the rings of the members of a ring -/

section Nested

variable
    {σ : Type*}
    [DecidableEq α]
    {down up right left : α → α}
    {head : α}
    {rows : List α}
    {mates : α → List α}
    {effect : σ → α → σ}
    {invariant : List α → σ → Prop}

/-- A loop along the ring of each member of a ring executes its effect for all
of them. -/
theorem Ring.loops_eq
    (ring : Ring down up head rows)
    (inner : ∀ row ∈ rows, Ring right left row (mates row))
    {nextRow next : σ → α → α}
    (steps : ∀ node rest s, invariant (node :: rest) s →
      invariant rest (effect s node))
    (rowLinks : ∀ rest s, invariant rest s →
      ∀ row ∈ head :: rows, nextRow s row = down row)
    (links : ∀ rest s, invariant rest s →
      ∀ row ∈ rows, ∀ node ∈ row :: mates row, next s node = right node)
    {s : σ}
    (start : invariant (rows.flatMap mates) s)
    {fuel : Nat}
    (enough : rows.length < fuel)
    (enough' : ∀ row ∈ rows, (mates row).length < fuel) :
    loop nextRow head
          (fun row s =>
            loop next row (fun node s => some (effect s node)) fuel
              (next s row) s)
          fuel (nextRow s head) s =
        some ((rows.flatMap mates).foldl effect s) ∧
      invariant [] ((rows.flatMap mates).foldl effect s) := by
  let outer : List α → σ → Prop := fun rest s =>
    (∀ row ∈ rest, row ∈ rows) ∧ invariant (rest.flatMap mates) s
  have rowSteps : ∀ row rest s, outer (row :: rest) s →
      loop next row (fun node s => some (effect s node)) fuel (next s row) s =
          some ((mates row).foldl effect s) ∧
        outer rest ((mates row).foldl effect s) := by
    intro row rest s kept
    obtain ⟨listed, kept⟩ := kept
    have member := listed row List.mem_cons_self
    let body : List α → σ → Prop := fun remaining s =>
      invariant (remaining ++ rest.flatMap mates) s
    have nodeSteps : ∀ node remaining s, body (node :: remaining) s →
        some (effect s node) = some (effect s node) ∧
          body remaining (effect s node) := by
      intro node remaining s kept
      exact ⟨rfl, steps node _ s kept⟩
    have bodyLinks : ∀ remaining s, body remaining s →
        ∀ node ∈ row :: mates row, next s node = right node := by
      intro remaining s kept
      exact links _ s kept row member
    rw [List.flatMap_cons] at kept
    obtain ⟨executed, after⟩ := (inner row member).loop_eq nodeSteps bodyLinks
      kept (enough' row member)
    refine ⟨executed, ?_, after⟩
    intro other inside
    exact listed other (List.mem_cons_of_mem row inside)
  have outerLinks : ∀ rest s, outer rest s →
      ∀ row ∈ head :: rows, nextRow s row = down row := by
    intro rest s kept
    exact rowLinks _ s kept.2
  obtain ⟨executed, after⟩ := ring.loop_eq rowSteps outerLinks
    ⟨fun row member => member, start⟩ enough
  rw [List.foldl_flatMap]
  exact ⟨executed, after.2⟩

/-- The loops the other way round undo the effects. -/
theorem Ring.loops_undo
    (ring : Ring down up head rows)
    (inner : ∀ row ∈ rows, Ring right left row (mates row))
    {prevRow prev : σ → α → α}
    {undo : σ → α → σ}
    (steps : ∀ node rest s, invariant (node :: rest) s →
      invariant rest (effect s node))
    (undone : ∀ node rest s, invariant (node :: rest) s →
      undo (effect s node) node = s)
    (rowLinks : ∀ rest s, invariant rest s →
      ∀ row ∈ head :: rows, prevRow s row = up row)
    (links : ∀ rest s, invariant rest s →
      ∀ row ∈ rows, ∀ node ∈ row :: mates row, prev s node = left node)
    {s t : σ}
    (start : invariant (rows.flatMap mates) s)
    (final : t = (rows.flatMap mates).foldl effect s)
    {fuel : Nat}
    (enough : rows.length < fuel)
    (enough' : ∀ row ∈ rows, (mates row).length < fuel) :
    loop prevRow head
        (fun row s =>
          loop prev row (fun node s => some (undo s node)) fuel
            (prev s row) s)
        fuel (prevRow t head) t = some s := by
  let outer : List α → σ → Prop := fun rest s =>
    (∀ row ∈ rest, row ∈ rows) ∧ invariant (rest.flatMap mates) s
  let body : List α → List α → σ → Prop := fun rest remaining s =>
    invariant (remaining ++ rest.flatMap mates) s
  have bodySteps : ∀ rest node remaining s, body rest (node :: remaining) s →
      body rest remaining (effect s node) := by
    intro rest node remaining s kept
    exact steps node _ s kept
  have rowSteps : ∀ row rest s, outer (row :: rest) s →
      outer rest ((mates row).foldl effect s) := by
    rintro row rest s ⟨listed, kept⟩
    refine ⟨fun other inside => listed other (List.mem_cons_of_mem row inside),
      ?_⟩
    rw [List.flatMap_cons] at kept
    have run : ∀ (nodes : List α) (s : σ), body rest nodes s →
        body rest [] (nodes.foldl effect s) := by
      intro nodes
      induction nodes with
      | nil => exact fun s kept => kept
      | cons node nodes inductionHypothesis =>
          intro s kept
          exact inductionHypothesis _ (bodySteps rest node nodes s kept)
    exact run (mates row) s kept
  have rowUndone : ∀ row rest s, outer (row :: rest) s →
      loop prev row (fun node s => some (undo s node)) fuel
          (prev ((mates row).foldl effect s) row)
          ((mates row).foldl effect s) = some s := by
    rintro row rest s ⟨listed, kept⟩
    have member := listed row List.mem_cons_self
    rw [List.flatMap_cons] at kept
    have nodeUndone : ∀ node remaining s, body rest (node :: remaining) s →
        some (undo (effect s node) node) = some s := by
      intro node remaining s kept
      rw [undone node _ s kept]
    have bodyLinks : ∀ remaining s, body rest remaining s →
        ∀ node ∈ row :: mates row, prev s node = left node := by
      intro remaining s kept
      exact links _ s kept row member
    exact (inner row member).loop_undo (bodySteps rest) nodeUndone bodyLinks
      kept rfl (enough' row member)
  have outerLinks : ∀ rest s, outer rest s →
      ∀ row ∈ head :: rows, prevRow s row = up row := by
    intro rest s kept
    exact rowLinks _ s kept.2
  refine ring.loop_undo rowSteps rowUndone outerLinks
    ⟨fun row member => member, start⟩ ?_ enough
  rw [final, List.foldl_flatMap]

end Nested

end CloudComputing
