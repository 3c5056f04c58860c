import Mathlib
import Raster.Proofs.Scan.Order

/-!
# Spans of a sample row

The edges of a row split it into gaps between neighbors.  If columns do not decrease
along the row, a sample lies in exactly one span or in none, as the winding number
around it decides.  In general two spans share a sample exactly if the edge that ends
the first one overtakes the edge that begins the second one.
-/

namespace Raster

/-- Where a path does not wind is outside. -/
@[simp]
theorem WindingRule.isInside_zero (rule : WindingRule) : rule.isInside 0 = false := by
  cases rule <;> rfl

namespace Span

/-- The span has a sample. -/
def contains (span : Span) (column : Nat) : Bool :=
  span.first ≤ column && column < span.stop

/-- The spans have no sample in common. -/
def Disjoint (first second : Span) : Prop :=
  first.stop ≤ second.first ∨ second.stop ≤ first.first

instance (first second : Span) : Decidable (first.Disjoint second) :=
  inferInstanceAs (Decidable (_ ∨ _))

theorem not_contains_of_disjoint {first second : Span} (disjoint : first.Disjoint second)
    {column : Nat} (member : first.contains column = true) : second.contains column = false := by
  simp only [contains, Bool.and_eq_true, decide_eq_true_eq, Bool.and_eq_false_iff,
    decide_eq_false_iff_not] at member ⊢
  unfold Disjoint at disjoint
  omega

/-- The samples of a span in a pixel are the columns of the pixel that it contains. -/
theorem samplesIn_eq_countP (span : Span) (columns pixel : Nat) :
    span.samplesIn columns pixel =
      (List.range' (pixel * columns) columns).countP span.contains := by
  have count : ∀ start length : Nat, (List.range' start length).countP span.contains =
      min span.stop (start + length) - max span.first start := by
    intro start length
    induction length with
    | zero =>
        simp only [List.range'_zero, List.countP_nil]
        omega
    | succ length inductionHypothesis =>
        rw [List.range'_concat, List.countP_append, inductionHypothesis, List.countP_singleton]
        simp only [contains, Bool.and_eq_true, decide_eq_true_eq]
        split <;> omega
  rw [count, samplesIn, Nat.add_mul, Nat.one_mul]

/-- Of spans without common samples at most one contains a given sample. -/
theorem countP_contains_le_one {spans : List Span} (disjoint : spans.Pairwise Disjoint)
    (column : Nat) : spans.countP (·.contains column) ≤ 1 := by
  induction disjoint with
  | nil => simp
  | @cons span rest apart _ inductionHypothesis =>
      rw [List.countP_cons]
      split
      · rename_i member
        have none : rest.countP (·.contains column) = 0 := by
          rw [List.countP_eq_zero]
          intro other otherMember
          simp [not_contains_of_disjoint (apart other otherMember) member]
        omega
      · omega

theorem countP_eq_sum (member : Nat → Bool) (columns : List Nat) :
    columns.countP member = (columns.map fun column => if member column then 1 else 0).sum := by
  induction columns with
  | nil => rfl
  | cons column rest inductionHypothesis =>
      rw [List.countP_cons, inductionHypothesis, List.map_cons, List.sum_cons, Nat.add_comm]

/-- Samples may be counted span by span or column by column. -/
theorem sum_countP_contains (spans : List Span) (columns : List Nat) :
    (spans.map fun span => columns.countP span.contains).sum =
      (columns.map fun column => spans.countP (·.contains column)).sum := by
  induction spans with
  | nil => simp
  | cons span rest inductionHypothesis =>
      simp only [List.map_cons, List.sum_cons, inductionHypothesis, List.countP_cons,
        List.sum_map_add, countP_eq_sum span.contains]
      exact Nat.add_comm _ _

end Span

namespace Sweep

/-! ## Gaps -/

/-- The pairs of neighboring edges between which a span lies, given the winding number
left of some sorted edges. -/
def gaps (frame : ScanFrame) (winding : Int) : List Edge → List (Edge × Edge)
  | left :: right :: rest =>
      let winding := winding + left.direction
      let here :=
        if frame.rule.isInside winding && (spanBetween? frame left right).isSome then
          [(left, right)]
        else
          []
      here ++ gaps frame winding (right :: rest)
  | _ => []

/-- Every span belongs to a gap. -/
theorem spans_eq_filterMap_gaps (frame : ScanFrame) (winding : Int) (edges : List Edge) :
    spans frame winding edges =
      (gaps frame winding edges).filterMap fun gap => spanBetween? frame gap.1 gap.2 := by
  induction edges generalizing winding with
  | nil => rfl
  | cons left rest inductionHypothesis =>
      cases rest with
      | nil => rfl
      | cons right rest =>
          simp only [spans, gaps, List.filterMap_append, inductionHypothesis]
          congr 1
          cases inside : frame.rule.isInside (winding + left.direction) with
          | false => rfl
          | true => cases span : spanBetween? frame left right <;> simp [span]

/-- A gap has a span. -/
theorem isSome_of_mem_gaps {frame : ScanFrame} {winding : Int} {edges : List Edge}
    {gap : Edge × Edge} (member : gap ∈ gaps frame winding edges) :
    (spanBetween? frame gap.1 gap.2).isSome = true := by
  induction edges generalizing winding with
  | nil => cases member
  | cons left rest inductionHypothesis =>
      cases rest with
      | nil => cases member
      | cons right rest =>
          simp only [gaps, List.mem_append] at member
          rcases member with here | later
          · split at here
            · rename_i inside
              obtain rfl := List.mem_singleton.mp here
              exact (Bool.and_eq_true_iff.mp inside).2
            · cases here
          · exact inductionHypothesis later

/-- Gaps lie between edges of the row, of which `first` is not right of the left one. -/
theorem le_of_mem_gaps {frame : ScanFrame} {winding : Int} {first : Edge} {edges : List Edge}
    (sorted : IsSorted (first :: edges)) {gap : Edge × Edge}
    (member : gap ∈ gaps frame winding (first :: edges)) : first.x ≤ gap.1.x := by
  induction edges generalizing winding first with
  | nil => cases member
  | cons right rest inductionHypothesis =>
      have ⟨firstLe, restSorted⟩ := List.pairwise_cons.mp sorted
      simp only [gaps, List.mem_append] at member
      rcases member with here | later
      · split at here
        · obtain rfl := List.mem_singleton.mp here
          exact Int.le_refl _
        · cases here
      · exact Int.le_trans (firstLe right List.mem_cons_self)
          (inductionHypothesis restSorted later)

/-- A gap ends before a later one begins. -/
theorem pairwise_gaps {frame : ScanFrame} {winding : Int} {edges : List Edge}
    (sorted : IsSorted edges) :
    (gaps frame winding edges).Pairwise fun first second => first.2.x ≤ second.1.x := by
  induction edges generalizing winding with
  | nil => exact List.Pairwise.nil
  | cons left rest inductionHypothesis =>
      cases rest with
      | nil => exact List.Pairwise.nil
      | cons right rest =>
          have restSorted := (List.pairwise_cons.mp sorted).2
          simp only [gaps]
          refine List.pairwise_append.mpr ⟨?_, inductionHypothesis restSorted, ?_⟩
          · split
            · exact List.pairwise_singleton _ _
            · exact List.Pairwise.nil
          · intro first here second later
            split at here
            · obtain rfl := List.mem_singleton.mp here
              exact le_of_mem_gaps restSorted later
            · cases here

/-! ## Common samples -/

/-- Two spans share a sample exactly if the edge that ends the first overtakes the edge
that begins the second. -/
theorem disjoint_iff_not_overtakes {frame : ScanFrame} {left right left' right' : Edge}
    {first second : Span} (firstSpan : spanBetween? frame left right = some first)
    (secondSpan : spanBetween? frame left' right' = some second)
    (ordered : right.x ≤ left'.x) :
    first.Disjoint second ↔ ¬ right.Overtakes left' := by
  rw [← Edge.column_lt_iff_overtakes ordered]
  -- An overtaking edge is one column ahead, so that the shared sample is the last one
  -- of the first span and the first one of the second.
  have near : right.column ≤ left'.column + 1 := by
    unfold Edge.column
    split <;> split <;> omega
  simp only [spanBetween?] at firstSpan secondSpan
  split at firstSpan
  · split at secondSpan
    · obtain rfl := Option.some.inj firstSpan
      obtain rfl := Option.some.inj secondSpan
      unfold Span.Disjoint
      simp only
      omega
    · cases secondSpan
  · cases firstSpan

/-- The spans of sorted edges are pairwise disjoint exactly if no edge that ends one of
them overtakes an edge that begins a later one. -/
theorem pairwise_disjoint_spans_iff {frame : ScanFrame} {winding : Int} {edges : List Edge}
    (sorted : IsSorted edges) :
    (spans frame winding edges).Pairwise Span.Disjoint ↔
      (gaps frame winding edges).Pairwise fun first second => ¬ first.2.Overtakes second.1 := by
  rw [spans_eq_filterMap_gaps, List.pairwise_filterMap]
  have ordered : (gaps frame winding edges).Pairwise fun first second =>
      first.2.x ≤ second.1.x := pairwise_gaps sorted
  constructor
  · intro apart
    refine (apart.and ordered).imp_of_mem ?_
    rintro first second firstMember secondMember ⟨disjoint, le⟩
    obtain ⟨firstSpan, firstEq⟩ := Option.isSome_iff_exists.mp (isSome_of_mem_gaps firstMember)
    obtain ⟨secondSpan, secondEq⟩ :=
      Option.isSome_iff_exists.mp (isSome_of_mem_gaps secondMember)
    exact (disjoint_iff_not_overtakes firstEq secondEq le).mp
      (disjoint firstSpan firstEq secondSpan secondEq)
  · intro apart
    refine (apart.and ordered).imp ?_
    rintro first second ⟨separate, le⟩ firstSpan firstEq secondSpan secondEq
    exact (disjoint_iff_not_overtakes firstEq secondEq le).mpr separate

/-! ## Winding numbers -/

/-- The winding number of a column: each edge at or left of it counts its direction. -/
def windingAt (edges : List Edge) (column : Int) : Int :=
  (edges.map fun edge => if edge.column ≤ column then edge.direction else 0).sum

theorem windingAt_perm {first second : List Edge} (perm : first.Perm second) (column : Int) :
    windingAt first column = windingAt second column :=
  (perm.map _).sum_eq

theorem windingAt_eq_zero {edges : List Edge} {column : Int}
    (right : ∀ edge ∈ edges, column < edge.column) : windingAt edges column = 0 := by
  apply List.sum_eq_zero
  intro value member
  obtain ⟨edge, edgeMember, rfl⟩ := List.mem_map.mp member
  have later := right edge edgeMember
  rw [if_neg (by omega)]

theorem windingAt_eq_sum {edges : List Edge} {column : Int}
    (left : ∀ edge ∈ edges, edge.column ≤ column) :
    windingAt edges column = (edges.map Edge.direction).sum := by
  unfold windingAt
  congr 1
  apply List.map_congr_left
  intro edge member
  rw [if_pos (left edge member)]

theorem windingAt_cons_of_le {left : Edge} {rest : List Edge} {column : Int}
    (le : left.column ≤ column) :
    windingAt (left :: rest) column = left.direction + windingAt rest column := by
  simp [windingAt, le]

/-- The gap between two edges contributes a column of the clip box exactly if the gap
is inside and the column lies between its edges. -/
theorem countP_gap {frame : ScanFrame} {left right : Edge} {column : Int}
    (inClip : frame.clip.left * frame.grid.columns ≤ column ∧
      column < frame.clip.right * frame.grid.columns) (inside : Bool) :
    (if inside then (spanBetween? frame left right).toList else []).countP
        (·.contains (column - frame.clip.left * frame.grid.columns).toNat) =
      if inside = true ∧ left.column ≤ column ∧ column < right.column then 1 else 0 := by
  cases inside with
  | false => simp
  | true =>
      simp only [spanBetween?, if_true, true_and]
      split
      · simp only [Option.toList_some, List.countP_singleton, Span.contains, Bool.and_eq_true,
          decide_eq_true_eq]
        split <;> split <;> omega
      · simp only [Option.toList_none, List.countP_nil]
        split <;> omega

section Columns

variable {frame : ScanFrame} {column : Int}

/-- No span contains a column left of all edges. -/
theorem countP_spans_of_right {edges : List Edge}
    (inClip : frame.clip.left * frame.grid.columns ≤ column ∧
      column < frame.clip.right * frame.grid.columns)
    (right : ∀ edge ∈ edges, column < edge.column) (winding : Int) :
    (spans frame winding edges).countP
      (·.contains (column - frame.clip.left * frame.grid.columns).toNat) = 0 := by
  induction edges generalizing winding with
  | nil => rfl
  | cons left rest inductionHypothesis =>
      cases rest with
      | nil => rfl
      | cons next rest =>
          have after := right left List.mem_cons_self
          rw [spans, List.countP_append, countP_gap inClip, if_neg (by omega)]
          rw [inductionHypothesis fun edge member => right edge (List.mem_cons_of_mem _ member)]

/-- The number of spans that contain a column which is not left of the first edge. -/
theorem countP_spans_cons {left : Edge} {rest : List Edge}
    (inClip : frame.clip.left * frame.grid.columns ≤ column ∧
      column < frame.clip.right * frame.grid.columns)
    (sorted : (left :: rest).Pairwise fun first second => first.column ≤ second.column)
    (begun : left.column ≤ column) (winding : Int) :
    (spans frame winding (left :: rest)).countP
        (·.contains (column - frame.clip.left * frame.grid.columns).toNat) =
      if frame.rule.isInside (winding + windingAt (left :: rest) column) = true ∧
          ∃ edge ∈ rest, column < edge.column then
        1
      else
        0 := by
  induction rest generalizing left winding with
  | nil => simp [spans]
  | cons next rest inductionHypothesis =>
      have restSorted := (List.pairwise_cons.mp sorted).2
      have nextLe := (List.pairwise_cons.mp restSorted).1
      rw [spans, List.countP_append, countP_gap inClip, windingAt_cons_of_le begun]
      by_cases passed : next.column ≤ column
      · -- The column lies right of the first gap.
        rw [if_neg (by omega), Nat.zero_add, inductionHypothesis restSorted passed,
          ← Int.add_assoc]
        simp only [List.mem_cons, exists_eq_or_imp]
        have notLt : ¬ column < next.column := by omega
        simp only [notLt, false_or]
      · -- The column lies in the first gap, and all later ones are right of it.
        have allRight : ∀ edge ∈ next :: rest, column < edge.column := by
          intro edge member
          rcases List.mem_cons.mp member with rfl | member
          · omega
          · have le := nextLe edge member
            omega
        have later : ∃ edge ∈ next :: rest, column < edge.column :=
          ⟨next, List.mem_cons_self, by omega⟩
        have within : left.column ≤ column ∧ column < next.column := by omega
        rw [countP_spans_of_right inClip allRight, windingAt_eq_zero allRight]
        simp only [within, later, and_true, Int.add_zero, Nat.add_zero]

/-- If columns do not decrease along a balanced row, a sample of the clip box lies in
one span or in none, as the winding number around it decides. -/
theorem countP_spans {edges : List Edge}
    (inClip : frame.clip.left * frame.grid.columns ≤ column ∧
      column < frame.clip.right * frame.grid.columns)
    (sorted : edges.Pairwise fun first second => first.column ≤ second.column)
    (balanced : (edges.map Edge.direction).sum = 0) :
    (spans frame 0 edges).countP
        (·.contains (column - frame.clip.left * frame.grid.columns).toNat) =
      if frame.rule.isInside (windingAt edges column) then 1 else 0 := by
  cases edges with
  | nil => simp [spans, windingAt]
  | cons left rest =>
      by_cases begun : left.column ≤ column
      · rw [countP_spans_cons inClip sorted begun, Int.zero_add]
        by_cases later : ∃ edge ∈ rest, column < edge.column
        · simp only [later, and_true]
        · -- Right of all edges the winding number is that of the whole row.
          have allLeft : ∀ edge ∈ left :: rest, edge.column ≤ column := by
            intro edge member
            rcases List.mem_cons.mp member with rfl | member
            · exact begun
            · by_contra notLe
              exact later ⟨edge, member, by omega⟩
          rw [windingAt_eq_sum allLeft, balanced, WindingRule.isInside_zero]
          simp
      · have allRight : ∀ edge ∈ left :: rest, column < edge.column := by
          intro edge member
          rcases List.mem_cons.mp member with rfl | member
          · omega
          · have le := (List.pairwise_cons.mp sorted).1 edge member
            omega
        rw [countP_spans_of_right inClip allRight, windingAt_eq_zero allRight,
          WindingRule.isInside_zero]
        rfl

end Columns

end Sweep

end Raster
