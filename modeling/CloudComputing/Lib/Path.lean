import Mathlib

/-!
# Lexical paths

Where a path leads when its `.` and `..` components are removed without a look
at the file system: so many steps up from where it begins, and from there down
through names.  A path behind another one leads on from where that one leads.
-/

namespace CloudComputing

/-- What a component of a path does. -/
inductive PathStep (Name : Type*)
  | stay
  | up
  | down (name : Name)
  deriving DecidableEq, Repr

/-- Where a path leads. -/
structure Place (Name : Type*) where
  ups : Nat
  names : List Name
  deriving DecidableEq, Repr

namespace Place

variable {Name : Type*}

/-- Where every path begins. -/
def here : Place Name := ⟨0, []⟩

/-- One component further. -/
def move (place : Place Name) : PathStep Name → Place Name
  | .stay => place
  | .up =>
      match place.names with
      | [] => ⟨place.ups + 1, []⟩
      | name :: rest => ⟨place.ups, (name :: rest).dropLast⟩
  | .down name => ⟨place.ups, place.names ++ [name]⟩

/-- So many components further. -/
def walk (place : Place Name) (steps : List (PathStep Name)) : Place Name :=
  steps.foldl move place

/-- Where the second path leads from the end of the first. -/
def andThen (first second : Place Name) : Place Name where
  ups := first.ups + (second.ups - first.names.length)
  names :=
    first.names.take (first.names.length - second.ups) ++ second.names

@[simp] theorem andThen_here (place : Place Name) :
    place.andThen here = place := by
  unfold andThen here
  simp

@[simp] theorem here_andThen (place : Place Name) :
    here.andThen place = place := by
  unfold andThen here
  simp

theorem andThen_of_below
    (first : Place Name)
    {second : Place Name}
    (below : second.ups = 0) :
    first.andThen second =
      ⟨first.ups, first.names ++ second.names⟩ := by
  unfold andThen
  rw [below, Nat.zero_sub, Nat.sub_zero, List.take_length]
  rfl

theorem move_up_of_nil (ups : Nat) :
    move (⟨ups, []⟩ : Place Name) .up = ⟨ups + 1, []⟩ :=
  rfl

theorem move_up_of_ne_nil
    (ups : Nat)
    {names : List Name}
    (nonempty : names ≠ []) :
    move ⟨ups, names⟩ .up = ⟨ups, names.dropLast⟩ := by
  cases names with
  | nil => exact absurd rfl nonempty
  | cons name rest => rfl

/-- A component is taken behind the first path as it is behind the second. -/
theorem move_andThen
    (first second : Place Name)
    (step : PathStep Name) :
    (first.andThen second).move step = first.andThen (second.move step) := by
  obtain ⟨ups, names⟩ := first
  obtain ⟨ups', names'⟩ := second
  cases step with
  | stay => rfl
  | down name => exact congrArg (Place.mk _) (List.append_assoc _ _ _)
  | up =>
      unfold andThen
      by_cases own : names' = []
      · subst own
        dsimp only
        rw [move_up_of_nil, List.append_nil, List.append_nil]
        by_cases climbs : names.length ≤ ups'
        · rw [Nat.sub_eq_zero_of_le climbs, List.take_zero, move_up_of_nil,
            Nat.sub_eq_zero_of_le (Nat.le_succ_of_le climbs), List.take_zero,
            Nat.succ_sub climbs]
          rfl
        · have stays : names.take (names.length - ups') ≠ [] := by
            intro empty
            have length := congrArg List.length empty
            rw [List.length_take, List.length_nil] at length
            omega
          rw [move_up_of_ne_nil _ stays, List.dropLast_eq_take,
            List.take_take, List.length_take,
            Nat.sub_eq_zero_of_le (by omega : ups' ≤ names.length),
            Nat.sub_eq_zero_of_le (by omega : ups' + 1 ≤ names.length)]
          congr 2
          dsimp only
          omega
      · dsimp only
        rw [move_up_of_ne_nil _ (List.append_ne_nil_of_right_ne_nil _ own),
          move_up_of_ne_nil _ own, List.dropLast_append_of_ne_nil own]

/-- A path is walked from the end of another as from anywhere. -/
theorem walk_andThen
    (first second : Place Name)
    (steps : List (PathStep Name)) :
    (first.andThen second).walk steps = first.andThen (second.walk steps) := by
  induction steps generalizing second with
  | nil => rfl
  | cons step rest inductionHypothesis =>
      change ((first.andThen second).move step).walk rest =
        first.andThen ((second.move step).walk rest)
      rw [move_andThen, inductionHypothesis]

theorem walk_append
    (place : Place Name)
    (steps later : List (PathStep Name)) :
    place.walk (steps ++ later) =
      (place.walk steps).andThen (here.walk later) := by
  rw [← walk_andThen, andThen_here]
  exact List.foldl_append

/-- Without steps up a path stays below where it begins. -/
theorem walk_ups_eq_zero
    {place : Place Name}
    (below : place.ups = 0)
    {steps : List (PathStep Name)}
    (noUp : .up ∉ steps) :
    (place.walk steps).ups = 0 := by
  induction steps generalizing place with
  | nil => exact below
  | cons step rest inductionHypothesis =>
      rw [List.mem_cons, not_or] at noUp
      change ((place.move step).walk rest).ups = 0
      apply inductionHypothesis _ noUp.2
      cases step with
      | stay => exact below
      | up => exact absurd rfl noUp.1
      | down name => exact below

/-! ## Directories -/

/-- The place is in this directory, or is the directory. -/
def Under (directory : List Name) (place : Place Name) : Prop :=
  place.ups = 0 ∧ directory <+: place.names

/-- A path from a directory stays in it exactly if it leads no higher than to
where the directory's names begin, and back through those it has left. -/
theorem under_andThen_iff
    (directory : List Name)
    (place : Place Name) :
    Under directory (andThen ⟨0, directory⟩ place) ↔
      place.ups ≤ directory.length ∧
        directory.drop (directory.length - place.ups) <+: place.names := by
  unfold Under andThen
  dsimp only
  rw [Nat.zero_add, Nat.sub_eq_zero_iff_le]
  apply and_congr_right
  intro _
  nth_rewrite 1 [← List.take_append_drop (directory.length - place.ups)
    directory]
  exact List.prefix_append_right_inj _

end Place

/-! ## Texts -/

namespace Path

variable {α : Type*} [DecidableEq α] {separator dot : α}

/-- What a component does: `dot` and the empty one nothing. -/
def step (dot : α) (component : List α) : PathStep (List α) :=
  if component = [] ∨ component = [dot] then .stay
  else if component = [dot, dot] then .up
  else .down component

/-- Where a path leads that is written with `separator` between its
components. -/
def lexical (separator dot : α) (text : List α) : Place (List α) :=
  Place.here.walk ((text.splitOn separator).map (step dot))

@[simp] theorem lexical_nil : lexical separator dot [] = Place.here := by
  unfold lexical
  rw [List.splitOn_nil]
  rfl

theorem lexical_append_cons (text later : List α) :
    lexical separator dot (text ++ separator :: later) =
      (lexical separator dot text).andThen (lexical separator dot later) := by
  unfold lexical
  rw [List.splitOn_append_cons_self, List.map_append, Place.walk_append]

@[simp] theorem lexical_cons_separator (text : List α) :
    lexical separator dot (separator :: text) = lexical separator dot text := by
  have split : lexical separator dot ([] ++ separator :: text) =
      (lexical separator dot []).andThen (lexical separator dot text) :=
    lexical_append_cons [] text
  rwa [List.nil_append, lexical_nil, Place.here_andThen] at split

/-- A name leads to itself. -/
theorem lexical_name
    {name : List α}
    (whole : separator ∉ name)
    (isName : step dot name = .down name) :
    lexical separator dot name = ⟨0, [name]⟩ := by
  unfold lexical
  rw [List.splitOn_eq_singleton whole, List.map_singleton, isName]
  rfl

theorem step_of_not_mem
    {component : List α}
    (noDot : dot ∉ component)
    (nonempty : component ≠ []) :
    step dot component = .down component := by
  unfold step
  rw [if_neg, if_neg]
  · rintro rfl
    exact noDot List.mem_cons_self
  · rintro (empty | rfl)
    · exact nonempty empty
    · exact noDot List.mem_cons_self

theorem step_ne_up
    {component : List α}
    (noDot : dot ∉ component) :
    step dot component ≠ .up := by
  by_cases empty : component = []
  · subst empty
    unfold step
    rw [if_pos (Or.inl rfl)]
    intro same
    cases same
  · rw [step_of_not_mem noDot empty]
    intro same
    cases same

theorem mem_of_mem_splitOn
    {text component : List α}
    (member : component ∈ text.splitOn separator)
    {letter : α}
    (inside : letter ∈ component) :
    letter ∈ text := by
  induction text generalizing component with
  | nil =>
      rw [List.splitOn_nil, List.mem_singleton] at member
      subst member
      exact inside
  | cons first rest inductionHypothesis =>
      rw [List.splitOn_cons_eq_if_modifyHead] at member
      split at member
      · rcases List.mem_cons.mp member with rfl | later
        · cases inside
        · exact List.mem_cons_of_mem _ (inductionHypothesis later inside)
      · cases split : rest.splitOn separator with
        | nil => exact absurd split (List.splitOn_ne_nil _ _)
        | cons head tail =>
            rw [split, List.modifyHead_cons, List.mem_cons] at member
            rcases member with rfl | later
            · rcases List.mem_cons.mp inside with rfl | behind
              · exact List.mem_cons_self
              · refine List.mem_cons_of_mem _
                  (inductionHypothesis ?_ behind)
                rw [split]
                exact List.mem_cons_self
            · refine List.mem_cons_of_mem _
                (inductionHypothesis ?_ inside)
              rw [split]
              exact List.mem_cons_of_mem _ later

/-- A path without `dot` goes down only. -/
theorem lexical_ups_eq_zero
    {text : List α}
    (noDot : dot ∉ text) :
    (lexical separator dot text).ups = 0 := by
  apply Place.walk_ups_eq_zero rfl
  intro climbs
  obtain ⟨component, member, isUp⟩ := List.mem_map.mp climbs
  exact step_ne_up (fun inside => noDot (mem_of_mem_splitOn member inside)) isUp

end Path
end CloudComputing
