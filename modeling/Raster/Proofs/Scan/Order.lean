import Raster.Scan.Sweep

/-!
# The order of crossings

Sorting keeps the edges and puts their crossings, rounded down, in order.  Columns
follow that order except in one case: two crossings that round down to the same sample
center, of which the first lies right of the center and the second exactly on it.
-/

namespace Raster

namespace Sweep

/-- The edges are in the order of their crossings, rounded down. -/
def IsSorted (edges : List Edge) : Prop :=
  edges.Pairwise fun first second => first.x ≤ second.x

theorem insert_perm (edge : Edge) (edges : List Edge) :
    (insert edge edges).Perm (edge :: edges) := by
  induction edges with
  | nil => exact .refl _
  | cons next rest inductionHypothesis =>
      simp only [insert]
      split
      · exact .refl _
      · exact (inductionHypothesis.cons next).trans (.swap edge next rest)

/-- Sorting neither adds nor drops an edge. -/
theorem sort_perm (edges : List Edge) : (sort edges).Perm edges := by
  induction edges with
  | nil => exact .refl _
  | cons edge rest inductionHypothesis =>
      exact (insert_perm edge (sort rest)).trans (inductionHypothesis.cons edge)

theorem isSorted_insert (edge : Edge) {edges : List Edge} (sorted : IsSorted edges) :
    IsSorted (insert edge edges) := by
  induction edges with
  | nil => exact List.pairwise_singleton _ _
  | cons next rest inductionHypothesis =>
      have ⟨nextLe, restSorted⟩ := List.pairwise_cons.mp sorted
      simp only [insert]
      split
      · rename_i le
        refine List.pairwise_cons.mpr ⟨?_, sorted⟩
        intro later member
        rcases List.mem_cons.mp member with rfl | member
        · exact le
        · exact Int.le_trans le (nextLe later member)
      · rename_i notLe
        refine List.pairwise_cons.mpr ⟨?_, inductionHypothesis restSorted⟩
        intro later member
        rcases List.mem_cons.mp ((insert_perm edge rest).mem_iff.mp member) with rfl | member
        · omega
        · exact nextLe later member

theorem isSorted_sort (edges : List Edge) : IsSorted (sort edges) := by
  induction edges with
  | nil => exact List.Pairwise.nil
  | cons edge rest inductionHypothesis => exact isSorted_insert edge inductionHypothesis

end Sweep

namespace Edge

/-- Two edges whose crossings round down to the same sample center, while the first
crosses right of the center and the second exactly at it.  Rounded down they are in
order, yet the first has the greater column. -/
def Overtakes (first second : Edge) : Prop :=
  first.x = second.x ∧ first.x % 65536 = 32768 ∧ 0 < first.remainder ∧ ¬ 0 < second.remainder

instance (first second : Edge) : Decidable (first.Overtakes second) :=
  inferInstanceAs (Decidable (_ ∧ _))

/-- Overtaking is the only way in which columns disagree with the order of crossings
rounded down. -/
theorem column_lt_iff_overtakes {first second : Edge} (ordered : first.x ≤ second.x) :
    second.column < first.column ↔ first.Overtakes second := by
  unfold column Overtakes
  split <;> split <;> omega

end Edge

end Raster
