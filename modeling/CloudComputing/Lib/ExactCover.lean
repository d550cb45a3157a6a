import Mathlib.Data.Set.Insert
import Mathlib.Tactic

/-!
# Exact covers

Each row covers some columns.  An exact cover of a set of columns is a set of
rows that covers each of them once, and no other column.
-/

namespace CloudComputing

variable {ρ κ : Type*}

/-- The chosen rows cover each column once. -/
structure IsExactCover
    (covers : ρ → Set κ)
    (rows : Set ρ)
    (columns : Set κ)
    (chosen : Set ρ) : Prop where
  rows : chosen ⊆ rows
  within : ∀ row ∈ chosen, covers row ⊆ columns
  once : ∀ column ∈ columns, ∃! row, row ∈ chosen ∧ column ∈ covers row

/-- There is an exact cover. -/
def Coverable
    (covers : ρ → Set κ)
    (rows : Set ρ)
    (columns : Set κ) : Prop :=
  ∃ chosen, IsExactCover covers rows columns chosen

namespace IsExactCover

variable
    {covers : ρ → Set κ}
    {rows : Set ρ}
    {columns : Set κ}
    {chosen : Set ρ}

/-- Without columns no row is needed. -/
theorem empty : IsExactCover covers rows ∅ ∅ where
  rows := Set.empty_subset rows
  within := by
    intro row member
    cases member
  once := by
    intro column member
    cases member

/-- A row and an exact cover of the other columns. -/
theorem insert
    {row : ρ}
    (cover : IsExactCover covers rows (columns \ covers row) chosen)
    (listed : row ∈ rows)
    (inside : covers row ⊆ columns) :
    IsExactCover covers rows columns (Insert.insert row chosen) where
  rows := Set.insert_subset listed cover.rows
  within := by
    intro other member
    rcases member with rfl | member
    · exact inside
    · exact (cover.within other member).trans Set.sdiff_subset
  once := by
    intro column member
    by_cases covered : column ∈ covers row
    · refine ⟨row, ⟨Set.mem_insert row chosen, covered⟩, ?_⟩
      rintro other ⟨rfl | inChosen, also⟩
      · rfl
      · exact absurd covered (cover.within other inChosen also).2
    · obtain ⟨other, ⟨inChosen, also⟩, unique⟩ :=
        cover.once column ⟨member, covered⟩
      refine ⟨other, ⟨Set.mem_insert_of_mem row inChosen, also⟩, ?_⟩
      rintro third ⟨rfl | inChosen', also'⟩
      · exact absurd also' covered
      · exact unique third ⟨inChosen', also'⟩

/-- Without one of its rows, a cover covers the other columns. -/
theorem remove
    {row : ρ}
    (cover : IsExactCover covers rows columns chosen)
    (member : row ∈ chosen) :
    IsExactCover covers rows (columns \ covers row) (chosen \ {row}) where
  rows := Set.sdiff_subset.trans cover.rows
  within := by
    rintro other ⟨inChosen, differs⟩ column covered
    have inside := cover.within other inChosen covered
    refine ⟨inside, ?_⟩
    intro also
    obtain ⟨_, _, unique⟩ := cover.once column inside
    exact differs ((unique other ⟨inChosen, covered⟩).trans
      (unique row ⟨member, also⟩).symm)
  once := by
    rintro column ⟨inside, uncovered⟩
    obtain ⟨other, ⟨inChosen, covered⟩, unique⟩ := cover.once column inside
    refine ⟨other, ⟨⟨inChosen, ?_⟩, covered⟩, ?_⟩
    · rintro rfl
      exact uncovered covered
    · rintro third ⟨⟨inChosen', _⟩, covered'⟩
      exact unique third ⟨inChosen', covered'⟩

end IsExactCover

namespace Coverable

variable
    {covers : ρ → Set κ}
    {rows : Set ρ}
    {columns : Set κ}

/-- Choosing a column: some row that covers it begins the cover. -/
theorem branch
    {column : κ}
    (member : column ∈ columns) :
    Coverable covers rows columns ↔
      ∃ row ∈ rows, column ∈ covers row ∧ covers row ⊆ columns ∧
        Coverable covers rows (columns \ covers row) := by
  constructor
  · rintro ⟨chosen, cover⟩
    obtain ⟨row, ⟨inChosen, covered⟩, _⟩ := cover.once column member
    exact ⟨row, cover.rows inChosen, covered, cover.within row inChosen,
      chosen \ {row}, cover.remove inChosen⟩
  · rintro ⟨row, listed, _, inside, chosen, cover⟩
    exact ⟨insert row chosen, cover.insert listed inside⟩

end Coverable

end CloudComputing
