import Raster.Proofs.Scan.Counting
import Raster.Scan.Scanner

/-!
# The loop of a sweep

The loop is an implementation of the sweep: on each row it has the active edges that cross the row,
in order, and before each line its buffer is clear.  Whatever the buffers of a path before hold, the
loop does not see it.
-/

namespace Raster

namespace Sweep

/-! ## Sorting in place -/

/-- Inserts an edge behind the last one that does not cross right of it. -/
def insertAfter (edge : Edge) : List Edge → List Edge
  | [] => [edge]
  | next :: rest =>
      if edge.x < next.x then edge :: next :: rest else next :: insertAfter edge rest

theorem insertAfter_of_le {edge : Edge} {edges : List Edge}
    (left : ∀ other ∈ edges, other.x ≤ edge.x) : insertAfter edge edges = edges ++ [edge] := by
  induction edges with
  | nil => rfl
  | cons next rest inductionHypothesis =>
      have nextLeft := left next List.mem_cons_self
      rw [insertAfter, if_neg (by omega),
        inductionHypothesis fun other member => left other (List.mem_cons_of_mem _ member)]
      rfl

theorem insertAfter_append_singleton {edge last : Edge} (right : edge.x < last.x)
    (edges : List Edge) :
    insertAfter edge (edges ++ [last]) = insertAfter edge edges ++ [last] := by
  induction edges with
  | nil => simp only [List.nil_append, insertAfter, if_pos right, List.cons_append]
  | cons next rest inductionHypothesis =>
      simp only [List.cons_append, insertAfter, inductionHypothesis]
      split <;> rfl

/-- Edges with the same crossing keep their order, from whichever side they are inserted. -/
theorem insertAfter_insert (first last : Edge) (edges : List Edge) :
    insertAfter last (insert first edges) = insert first (insertAfter last edges) := by
  induction edges with
  | nil =>
      simp only [insert, insertAfter]
      split <;> split <;> first | rfl | omega
  | cons next rest inductionHypothesis =>
      by_cases before : first.x ≤ next.x <;> by_cases behind : last.x < next.x
      · simp only [insert, insertAfter, if_pos before, if_pos behind]
        split <;> split <;> first | rfl | omega
      · simp only [insert, insertAfter, if_pos before, if_neg behind]
        rw [if_neg (by omega)]
      · simp only [insert, insertAfter, if_neg before, if_pos behind]
        rw [if_neg (by omega)]
      · simp only [insert, insertAfter, if_neg before, if_neg behind, inductionHypothesis]

theorem sort_append_singleton (edges : List Edge) (last : Edge) :
    sort (edges ++ [last]) = insertAfter last (sort edges) := by
  induction edges with
  | nil => rfl
  | cons first rest inductionHypothesis =>
      change insert first (sort (rest ++ [last])) = insertAfter last (insert first (sort rest))
      rw [inductionHypothesis, insertAfter_insert]

/-- An edge that sinks into sorted edges ends up behind the last one that does not cross right of
it. -/
theorem toList_sink {front : List Edge} (sorted : IsSorted front) (edge : Edge)
    (back : List Edge) :
    (sink (front ++ edge :: back).toArray front.length).toList =
      insertAfter edge front ++ back := by
  induction front using List.reverseRecOn generalizing back with
  | nil => rfl
  | append_singleton front last inductionHypothesis =>
      obtain ⟨frontSorted, _, below⟩ := List.pairwise_append.mp sorted
      have left : (front ++ [last] ++ edge :: back).toArray[front.length]? = some last := by simp
      have right : (front ++ [last] ++ edge :: back).toArray[front.length + 1]? = some edge := by
        simp
      rw [List.length_append, List.length_singleton, sink, left, right]
      simp only
      split
      · rename_i passes
        have swapped : ((front ++ [last] ++ edge :: back).toArray.setIfInBounds front.length
            edge).setIfInBounds (front.length + 1) last =
              (front ++ edge :: last :: back).toArray := by
          simp
        rw [swapped, inductionHypothesis frontSorted, insertAfter_append_singleton passes,
          List.append_assoc]
        rfl
      · rename_i stays
        rw [insertAfter_of_le]
        · simp
        · intro other member
          rcases List.mem_append.mp member with inFront | isLast
          · exact (below other inFront last List.mem_cons_self).trans (Int.not_lt.mp stays)
          · obtain rfl := List.mem_singleton.mp isLast
            exact Int.not_lt.mp stays

theorem toList_foldl_sink (front back : List Edge) :
    ((List.range' front.length back.length).foldl sink (sort front ++ back).toArray).toList =
      sort (front ++ back) := by
  induction back generalizing front with
  | nil => simp
  | cons edge rest inductionHypothesis =>
      have sunk := toList_sink (isSorted_sort front) edge rest
      rw [(sort_perm front).length_eq, ← sort_append_singleton] at sunk
      have next := inductionHypothesis (front ++ [edge])
      rw [List.length_append, List.length_singleton, List.append_assoc] at next
      rw [List.length_cons, List.range'_succ, List.foldl_cons, ← (sink _ _).toArray_toList, sunk]
      exact next

/-- Sorting in place is sorting. -/
theorem toList_sortInPlace (active : Array Edge) :
    (sortInPlace active).toList = sort active.toList := by
  obtain ⟨edges⟩ := active
  cases edges with
  | nil => rfl
  | cons first rest => exact toList_foldl_sink [first] rest

end Sweep

namespace SweepLoop

/-! ## The cursor -/

theorem enqueue_perm (edge : Edge) (edges : List Edge) :
    (enqueue edge edges).Perm (edge :: edges) := by
  induction edges with
  | nil => exact .refl _
  | cons next rest inductionHypothesis =>
      rw [enqueue]
      split
      · exact .refl _
      · exact (inductionHypothesis.cons next).trans (.swap edge next rest)

theorem byFirstRow_perm (edges : List Edge) : (byFirstRow edges).Perm edges := by
  induction edges with
  | nil => exact .refl _
  | cons edge rest inductionHypothesis =>
      exact (enqueue_perm edge (byFirstRow rest)).trans (inductionHypothesis.cons edge)

theorem pairwise_enqueue {edges : List Edge}
    (sorted : edges.Pairwise fun first second => first.firstRow ≤ second.firstRow) (edge : Edge) :
    (enqueue edge edges).Pairwise fun first second => first.firstRow ≤ second.firstRow := by
  induction edges with
  | nil => exact List.pairwise_singleton _ edge
  | cons next rest inductionHypothesis =>
      obtain ⟨nextFirst, restSorted⟩ := List.pairwise_cons.mp sorted
      rw [enqueue]
      split
      · rename_i before
        refine List.pairwise_cons.mpr ⟨fun other member => ?_, sorted⟩
        rcases List.mem_cons.mp member with rfl | later
        · exact before
        · exact before.trans (nextFirst other later)
      · rename_i behind
        refine List.pairwise_cons.mpr ⟨fun other member => ?_, inductionHypothesis restSorted⟩
        rcases List.mem_cons.mp ((enqueue_perm edge rest).mem_iff.mp member) with rfl | later
        · exact (Int.not_le.mp behind).le
        · exact nextFirst other later

theorem pairwise_byFirstRow (edges : List Edge) :
    (byFirstRow edges).Pairwise fun first second => first.firstRow ≤ second.firstRow := by
  induction edges with
  | nil => exact .nil
  | cons edge rest inductionHypothesis => exact pairwise_enqueue inductionHypothesis edge

/-- An edge is put in front of those that begin on its row. -/
theorem filter_enqueue (edge : Edge) (edges : List Edge) (row : Int) :
    (enqueue edge edges).filter (fun edge => edge.firstRow = row) =
      (edge :: edges).filter fun edge => edge.firstRow = row := by
  induction edges with
  | nil => rfl
  | cons next rest inductionHypothesis =>
      rw [enqueue]
      split
      · rfl
      · rename_i behind
        rw [List.filter_cons, inductionHypothesis]
        by_cases here : edge.firstRow = row
        · have notNext : ¬ next.firstRow = row := by omega
          simp only [List.filter_cons, here, notNext, decide_true, decide_false, if_true,
            Bool.false_eq_true, if_false]
        · simp only [List.filter_cons, here, decide_false, Bool.false_eq_true, if_false]

theorem filter_byFirstRow (edges : List Edge) (row : Int) :
    (byFirstRow edges).filter (fun edge => edge.firstRow = row) =
      edges.filter fun edge => edge.firstRow = row := by
  induction edges with
  | nil => rfl
  | cons edge rest inductionHypothesis =>
      change (enqueue edge (byFirstRow rest)).filter _ = _
      rw [filter_enqueue, List.filter_cons, List.filter_cons, inductionHypothesis]

/-- The cursor stops exactly before the edges that begin below a row. -/
theorem span_eq_filter {edges : List Edge}
    (sorted : edges.Pairwise fun first second => first.firstRow ≤ second.firstRow) (row : Int) :
    (edges.takeWhile fun edge => edge.firstRow ≤ row) =
        edges.filter (fun edge => edge.firstRow ≤ row) ∧
      (edges.dropWhile fun edge => edge.firstRow ≤ row) =
        edges.filter fun edge => row + 1 ≤ edge.firstRow := by
  induction edges with
  | nil => exact ⟨rfl, rfl⟩
  | cons edge rest inductionHypothesis =>
      obtain ⟨edgeFirst, restSorted⟩ := List.pairwise_cons.mp sorted
      obtain ⟨taken, left⟩ := inductionHypothesis restSorted
      by_cases begun : edge.firstRow ≤ row
      · have notBelow : ¬ row + 1 ≤ edge.firstRow := by omega
        simp only [List.takeWhile_cons, List.dropWhile_cons, List.filter_cons, begun, notBelow,
          decide_true, decide_false, if_true, Bool.false_eq_true, if_false, taken, left, and_self]
      · have below : ∀ other ∈ edge :: rest, row + 1 ≤ other.firstRow := by
          intro other member
          rcases List.mem_cons.mp member with rfl | later
          · omega
          · have := edgeFirst other later
            omega
        constructor
        · rw [List.takeWhile_cons, if_neg (by simpa using begun), List.filter_eq_nil_iff.mpr]
          intro other member
          have := below other member
          simp only [decide_eq_true_eq]
          omega
        · rw [List.dropWhile_cons, if_neg (by simpa using begun), List.filter_eq_self.mpr]
          intro other member
          exact decide_eq_true (below other member)

/-! ## Counters -/

/-- The spans of a row are counted one by one. -/
theorem foldl_count (columns : Nat) (spans : List Span) (loop : SweepLoop) :
    spans.foldl (count columns) loop =
      { loop with
        coverage := spans.foldl (Sweep.accumulate columns) loop.coverage
        touched := spans.foldl (touch columns) loop.touched } := by
  induction spans generalizing loop with
  | nil => rfl
  | cons span rest inductionHypothesis =>
      rw [List.foldl_cons, inductionHypothesis]
      rfl

theorem touched?_append_singleton (columns : Nat) (spans : List Span) (span : Span) :
    Sweep.touched? columns (spans ++ [span]) =
      touch columns (Sweep.touched? columns spans) span := by
  cases spans with
  | nil => rfl
  | cons first rest =>
      simp only [Sweep.touched?, touch, List.cons_append, List.map_cons, List.map_append,
        List.map_nil, List.min?_cons', List.max?_cons', List.foldl_append, List.foldl_cons,
        List.foldl_nil]

theorem touched?_append (columns : Nat) (first second : List Span) :
    Sweep.touched? columns (first ++ second) =
      second.foldl (touch columns) (Sweep.touched? columns first) := by
  induction second generalizing first with
  | nil => rw [List.append_nil, List.foldl_nil]
  | cons span rest inductionHypothesis =>
      rw [List.foldl_cons, ← touched?_append_singleton, ← inductionHypothesis, List.append_assoc]
      rfl

theorem eq_nil_of_touched? {columns : Nat} {spans : List Span}
    (untouched : Sweep.touched? columns spans = none) : spans = [] := by
  by_contra nonempty
  obtain ⟨first, last, touched⟩ := Sweep.exists_touched? columns nonempty
  rw [untouched] at touched
  cases touched

/-- A pixel beside all spans keeps its counter. -/
theorem getElem?_foldl_accumulate_of_outside {columns pixel : Nat} {spans : List Span}
    (outside : ∀ span ∈ spans, pixel < span.firstPixel columns ∨ span.lastPixel columns < pixel)
    (coverage : Array Nat) :
    (spans.foldl (Sweep.accumulate columns) coverage)[pixel]? = coverage[pixel]? := by
  induction spans generalizing coverage with
  | nil => rfl
  | cons span rest inductionHypothesis =>
      have beside := outside span List.mem_cons_self
      rw [List.foldl_cons,
        inductionHypothesis fun other member => outside other (List.mem_cons_of_mem _ member)]
      simp only [Sweep.accumulate]
      rw [Sweep.getElem?_foldl_modify fun pixel samples =>
        (samples + span.samplesIn columns pixel) % 256, if_neg (by omega)]

/-- Clearing the touched pixels clears the buffer. -/
theorem clear_foldl_accumulate {columns first last : Nat} {spans : List Span}
    (touched : Sweep.touched? columns spans = some (first, last)) (width : Nat) :
    clear (spans.foldl (Sweep.accumulate columns) (Array.replicate width 0)) first last =
      Array.replicate width 0 := by
  apply Array.ext_getElem?
  intro pixel
  rw [clear, Sweep.getElem?_foldl_modify fun _ _ => 0]
  split
  · rw [Array.getElem?_replicate]
    split
    · rename_i inside
      rw [Array.getElem?_eq_getElem (by rwa [Sweep.size_foldl_accumulate, Array.size_replicate])]
      rfl
    · rename_i beyond
      rw [Array.getElem?_eq_none
        (by rwa [Sweep.size_foldl_accumulate, Array.size_replicate, ← Nat.not_lt])]
      rfl
  · rename_i untouched
    apply getElem?_foldl_accumulate_of_outside
    intro span member
    have := Sweep.touched?_bounds touched member
    omega

/-! ## Rows -/

/-- Before a row is visited: the cursor has passed the edges that begin above the row, and the active
edges are those of the sweep. -/
structure Between (frame : ScanFrame) (edges : List Edge) (row : Int) (loop : SweepLoop) :
    Prop where
  waiting : loop.waiting = (byFirstRow edges).filter fun edge => row ≤ edge.firstRow
  active : loop.active.toList = (Sweep.before frame edges row).active

section Rows

variable {frame : ScanFrame} {edges : List Edge} {loop : SweepLoop} {row : Int}

theorem Between.pairwise_waiting (between : Between frame edges row loop) :
    loop.waiting.Pairwise fun first second => first.firstRow ≤ second.firstRow := by
  rw [between.waiting]
  exact (pairwise_byFirstRow edges).filter _

/-- The cursor moves past the edges that begin on the row, in their first order. -/
theorem Between.takeWhile_waiting (between : Between frame edges row loop) :
    (loop.waiting.takeWhile fun edge => edge.firstRow ≤ row) =
      edges.filter fun edge => edge.firstRow = row := by
  rw [(span_eq_filter between.pairwise_waiting row).1, between.waiting, List.filter_filter,
    ← filter_byFirstRow]
  apply List.filter_congr
  intro edge _
  rw [Bool.eq_iff_iff]
  simp only [Bool.and_eq_true, decide_eq_true_eq]
  omega

theorem Between.waiting_enter (between : Between frame edges row loop) :
    (loop.enter row).waiting = (byFirstRow edges).filter fun edge => row + 1 ≤ edge.firstRow := by
  rw [enter, (span_eq_filter between.pairwise_waiting row).2, between.waiting, List.filter_filter]
  apply List.filter_congr
  intro edge _
  rw [Bool.eq_iff_iff]
  simp only [Bool.and_eq_true, decide_eq_true_eq]
  omega

/-- When the spans of a row are taken, the loop has the active edges of the sweep. -/
theorem Between.active_enter (between : Between frame edges row loop)
    (started : Sweep.startRow frame.grid edges ≤ row) :
    (loop.enter row).active.toList = Sweep.activeAt frame edges row := by
  have entering : (edges.filter fun edge => edge.firstRow = row) =
      (Sweep.before frame edges row).waiting.filter fun edge => edge.firstRow ≤ row := by
    rw [(Sweep.tracks_before started).waiting, List.filter_filter]
    apply List.filter_congr
    intro edge _
    rw [Bool.eq_iff_iff]
    simp only [Bool.and_eq_true, decide_eq_true_eq]
    omega
  simp only [enter, Sweep.toList_sortInPlace, Array.toList_filter, between.takeWhile_waiting,
    Array.toList_appendList, between.active, entering, Sweep.activeAt, Sweep.enter,
    List.partition_eq_filter_filter]

/-- Skipping a row that no edge crosses is visiting it. -/
theorem visitRow_eq (frame : ScanFrame) (loop : SweepLoop) (row : Int) :
    loop.visitRow frame row =
      let spans := Sweep.spans frame 0 (loop.enter row).active.toList
      { waiting := (loop.enter row).waiting
        active := (loop.enter row).active.map Edge.advance
        coverage := spans.foldl (Sweep.accumulate frame.grid.columns) loop.coverage
        touched := spans.foldl (touch frame.grid.columns) loop.touched } := by
  simp only [visitRow, foldl_count]
  split
  · rename_i uncrossed
    have none : (loop.enter row).active = #[] := Array.isEmpty_iff.mp uncrossed
    rw [none]
    simp only [Sweep.spans, List.foldl_nil, List.map_toArray, List.map_nil]
    rw [← none]
    rfl
  · rfl

theorem Between.visitRow (between : Between frame edges row loop)
    (started : Sweep.startRow frame.grid edges ≤ row) :
    Between frame edges (row + 1) (loop.visitRow frame row) := by
  rw [visitRow_eq]
  refine ⟨between.waiting_enter, ?_⟩
  rw [Sweep.before_succ started, Array.toList_map, between.active_enter started]
  rfl

/-- On the way through a line: the buffer and the touched pixels are those of some spans. -/
structure Counted (frame : ScanFrame) (spans : List Span) (loop : SweepLoop) : Prop where
  coverage : loop.coverage = spans.foldl (Sweep.accumulate frame.grid.columns)
    (Array.replicate frame.clip.width.toNat 0)
  touched : loop.touched = Sweep.touched? frame.grid.columns spans

theorem Counted.visitRow {spans : List Span} (counted : Counted frame spans loop)
    (between : Between frame edges row loop) (started : Sweep.startRow frame.grid edges ≤ row) :
    Counted frame (spans ++ Sweep.spansAt frame edges row) (loop.visitRow frame row) := by
  rw [visitRow_eq, between.active_enter started]
  constructor
  · rw [List.foldl_append, ← counted.coverage]
    rfl
  · rw [touched?_append, ← counted.touched]
    rfl

/-- The rows from the first one on keep what each of them keeps. -/
theorem Between.visitRows {first : Int} (between : Between frame edges first loop)
    (counted : Counted frame [] loop) (started : Sweep.startRow frame.grid edges ≤ first)
    (ordered : first ≤ row) :
    let visited := (Sweep.interval first row).foldl (SweepLoop.visitRow frame) loop
    Between frame edges row visited ∧
      Counted frame ((Sweep.interval first row).flatMap (Sweep.spansAt frame edges)) visited := by
  induction row, ordered using Int.leInduction with
  | base =>
      rw [Sweep.interval_of_le (Int.le_refl _)]
      exact ⟨between, counted⟩
  | succ row ordered inductionHypothesis =>
      obtain ⟨betweenRow, countedRow⟩ := inductionHypothesis
      have startedRow := started.trans ordered
      rw [Sweep.interval_succ ordered]
      simp only [List.foldl_append, List.foldl_cons, List.foldl_nil, List.flatMap_append,
        List.flatMap_cons, List.flatMap_nil, List.append_nil]
      exact ⟨betweenRow.visitRow startedRow, countedRow.visitRow betweenRow startedRow⟩

end Rows

/-! ## Lines -/

/-- Before a line is visited: before its first row, with a clear buffer. -/
structure AtLine (frame : ScanFrame) (edges : List Edge) (y : Int) (loop : SweepLoop) : Prop where
  between : Between frame edges (y * frame.grid.rows) loop
  coverage : loop.coverage = Array.replicate frame.clip.width.toNat 0

section Lines

variable {frame : ScanFrame} {edges : List Edge} {loop : SweepLoop} {y : Int}

/-- What holds on the way through a line. -/
theorem AtLine.visitRows (atLine : AtLine frame edges y loop)
    (started : Sweep.startRow frame.grid edges ≤ y * frame.grid.rows) {row : Int}
    (ordered : y * frame.grid.rows ≤ row) :
    let visited := (Sweep.interval (y * frame.grid.rows) row).foldl (SweepLoop.visitRow frame)
      { loop with touched := none }
    Between frame edges row visited ∧
      Counted frame
        ((Sweep.interval (y * frame.grid.rows) row).flatMap (Sweep.spansAt frame edges)) visited :=
  Between.visitRows ⟨atLine.between.waiting, atLine.between.active⟩ ⟨atLine.coverage, rfl⟩ started
    ordered

/-- A line is answered, and the next one begins with a clear buffer again. -/
theorem AtLine.visitLine (atLine : AtLine frame edges y loop)
    (started : Sweep.startRow frame.grid edges ≤ y * frame.grid.rows) :
    (loop.visitLine frame y).2 =
        (Sweep.coverageRow? frame y (Sweep.lineSpans frame edges y)).toList ∧
      AtLine frame edges (y + 1) (loop.visitLine frame y).1 := by
  have ordered : y * (frame.grid.rows : Int) ≤ (y + 1) * frame.grid.rows :=
    Int.mul_le_mul_of_nonneg_right (by omega) (by omega)
  obtain ⟨between, counted⟩ := atLine.visitRows started ordered
  rw [← Sweep.sampleRowsOf] at between counted
  rw [← Sweep.lineSpans] at counted
  obtain ⟨coverage, touched⟩ := counted
  simp only [SweepLoop.visitLine, Sweep.coverageRow?, touched, ← coverage]
  cases range : Sweep.touched? frame.grid.columns (Sweep.lineSpans frame edges y) with
  | none =>
      refine ⟨rfl, between, ?_⟩
      rw [coverage, eq_nil_of_touched? range]
      rfl
  | some bounds =>
      refine ⟨rfl, ⟨between.waiting, between.active⟩, ?_⟩
      rw [coverage]
      exact clear_foldl_accumulate range _

/-- Lines are answered one by one. -/
theorem AtLine.run {first : Int} (atLine : AtLine frame edges first loop)
    (started : Sweep.startRow frame.grid edges ≤ first * frame.grid.rows) (ordered : first ≤ y) :
    (Stage.run (SweepLoop.visitLine frame) loop (Sweep.interval first y)).2 =
        (Sweep.interval first y).flatMap (fun line =>
          (Sweep.coverageRow? frame line (Sweep.lineSpans frame edges line)).toList) ∧
      AtLine frame edges y
        (Stage.run (SweepLoop.visitLine frame) loop (Sweep.interval first y)).1 := by
  induction y, ordered using Int.leInduction with
  | base =>
      rw [Sweep.interval_of_le (Int.le_refl _)]
      exact ⟨rfl, atLine⟩
  | succ y ordered inductionHypothesis =>
      have later : first * (frame.grid.rows : Int) ≤ y * frame.grid.rows :=
        Int.mul_le_mul_of_nonneg_right ordered (by omega)
      obtain ⟨answered, reached⟩ := inductionHypothesis
      obtain ⟨answer, reachedNext⟩ := reached.visitLine (started.trans later)
      rw [Sweep.interval_succ ordered, Stage.run_append]
      simp only [Stage.run_cons, Stage.run_nil, List.append_nil, List.flatMap_append,
        List.flatMap_cons, List.flatMap_nil, answered, answer, true_and]
      exact reachedNext

end Lines

/-! ## The run of the loop -/

/-- The loop begins before the first line. -/
theorem atLine_start {frame : ScanFrame} {edges : List Edge} {y : Int}
    (first : Sweep.startRow frame.grid edges = y * frame.grid.rows) :
    AtLine frame edges y (start frame edges) := by
  refine ⟨⟨?_, ?_⟩, rfl⟩
  · refine (List.filter_eq_self.mpr ?_).symm
    intro edge member
    rw [← first]
    exact decide_eq_true (Sweep.startRow_le ((byFirstRow_perm edges).mem_iff.mp member))
  · rw [Sweep.before_of_le first.ge]
    rfl

/-- What comes before a value of an interval. -/
theorem interval_eq_append_cons {first stop value : Int} {past later : List Int}
    (split : Sweep.interval first stop = past ++ value :: later) :
    first ≤ value ∧ past = Sweep.interval first value := by
  have here : (Sweep.interval first stop)[past.length]? = some value := by
    rw [split, List.getElem?_append_right (Nat.le_refl _), Nat.sub_self, List.getElem?_cons_zero]
  obtain ⟨inside, rfl⟩ : past.length < (stop - first).toNat ∧ first + past.length = value := by
    rw [Sweep.interval, List.getElem?_map, Option.map_eq_some_iff] at here
    obtain ⟨index, found, rfl⟩ := here
    obtain ⟨below, rfl⟩ := List.getElem?_eq_some_iff.mp found
    rw [List.length_range] at below
    rw [List.getElem_range]
    exact ⟨below, rfl⟩
  have taken : past = (Sweep.interval first stop).take past.length := by
    rw [split, List.take_left]
  refine ⟨by omega, ?_⟩
  have count : (first + past.length - first : Int).toNat = past.length := by omega
  rw [Sweep.interval, ← List.map_take, List.take_range, Nat.min_eq_left inside.le] at taken
  rw [Sweep.interval, count]
  exact taken

/-- Whatever buffers the loop is given, it begins with clear ones. -/
@[simp]
theorem restart_eq (active : Array Edge) (coverage : Array Nat) (frame : ScanFrame)
    (edges : List Edge) : restart active coverage frame edges = start frame edges := by
  simp [restart, start, resized]

/-- The loop answers the coverage of the sweep. -/
theorem coverageRows_eq (frame : ScanFrame) (edges : List Edge) :
    coverageRows frame edges = Sweep.coverageRows frame edges := by
  rw [Sweep.coverageRows_eq, coverageRows]
  split
  · rfl
  · obtain ⟨first, stop, lines, begins⟩ := Sweep.exists_linesOf_eq_interval frame.grid edges
    rw [lines]
    rcases Int.le_total first stop with ordered | empty
    · exact ((atLine_start begins).run begins.le ordered).1
    · rw [Sweep.interval_of_le empty]
      rfl

/-- Every sample row is in a line. -/
theorem mem_sampleRowsOf_ediv (grid : Grid) (row : Int) :
    row ∈ Sweep.sampleRowsOf grid (row / grid.rows) := by
  have rows : (0 : Int) < grid.rows := by exact_mod_cast grid.rows_pos
  exact (Sweep.mem_interval _ _ row).mpr
    ⟨Int.ediv_mul_le row rows.ne', Int.lt_ediv_add_one_mul_self row rows⟩

end SweepLoop

namespace Scanner

/-- Rasterizing runs a loop, whatever edges a scanner has and whatever gaps are between them.  It
visits all rows that edges cross.  Before each line its buffer is clear.  When the spans of a row
are taken, the active edges are those that cross the row, each of them once and stepped as often as
rows have passed since its first one, in the order of their crossings. -/
theorem active_edges_complete_and_sorted (scanner : Scanner) :
    let frame := scanner.frame
    let edges := scanner.edges.toList
    scanner.coverageRows = SweepLoop.coverageRows frame edges ∧
      (∀ edge ∈ edges, ∀ row, edge.Crosses row →
        ∃ y ∈ Sweep.linesOf frame.grid edges, row ∈ Sweep.sampleRowsOf frame.grid y) ∧
      ∀ past y later, Sweep.linesOf frame.grid edges = past ++ y :: later →
        let loop := (Stage.run (SweepLoop.visitLine frame) (.start frame edges) past).1
        loop.coverage = Array.replicate frame.clip.width.toNat 0 ∧
          ∀ above row below, Sweep.sampleRowsOf frame.grid y = above ++ row :: below →
            let entered :=
              (above.foldl (SweepLoop.visitRow frame) { loop with touched := none }).enter row
            (entered.active.toList.Perm
                ((edges.filter fun edge => edge.Crosses row).map fun edge =>
                  Edge.advance^[(row - edge.firstRow).toNat] edge)) ∧
              entered.active.toList.Pairwise fun first second => first.x ≤ second.x := by
  intro frame edges
  refine ⟨(SweepLoop.coverageRows_eq frame edges).symm, ?_, ?_⟩
  · intro edge member row crosses
    have inLine := SweepLoop.mem_sampleRowsOf_ediv frame.grid row
    exact ⟨_, Sweep.mem_linesOf member crosses inLine, inLine⟩
  · intro past y later visited
    obtain ⟨first, stop, lines, begins⟩ := Sweep.exists_linesOf_eq_interval frame.grid edges
    rw [lines] at visited
    obtain ⟨ordered, rfl⟩ := SweepLoop.interval_eq_append_cons visited
    obtain ⟨_, atLine⟩ := (SweepLoop.atLine_start begins).run begins.le ordered
    have started : Sweep.startRow frame.grid edges ≤ y * frame.grid.rows := by
      rw [begins]
      exact Int.mul_le_mul_of_nonneg_right ordered (by omega)
    refine ⟨atLine.coverage, ?_⟩
    intro above row below inLine
    obtain ⟨notAbove, rfl⟩ := SweepLoop.interval_eq_append_cons inLine
    have active := (atLine.visitRows started notAbove).1.active_enter (started.trans notAbove)
    simp only [active]
    exact ⟨Sweep.activeAt_perm frame edges row, Sweep.isSorted_activeAt frame edges row⟩

/-- No edge crosses the second of these lines.  Two edges begin on the third one, and after its
first row they have changed places. -/
theorem active_edges_complete_and_sorted_changing_places :
    ∃ scanner : Scanner,
      Sweep.linesOf scanner.grid scanner.edges.toList = [0, 1] ++ 2 :: [3] ∧
        Sweep.sampleRowsOf scanner.grid 2 = [4] ++ 5 :: [] ∧
        (scanner.edges.toList.map fun edge => (edge.firstRow, edge.stopRow)) =
          [(0, 2), (0, 2), (4, 6), (6, 8), (4, 8)] ∧
        let loop := (Stage.run (SweepLoop.visitLine scanner.frame)
          (.start scanner.frame scanner.edges.toList) [0, 1]).1
        loop.coverage = Array.replicate 4 0 ∧
          let entered :=
            ([4].foldl (SweepLoop.visitRow scanner.frame) { loop with touched := none }).enter 5
          entered.active.toList.map Edge.x = [147456, 212992] := by
  obtain ⟨received, _, lines, rows, extents, crossing, width⟩ : ∃ received : Scanner,
      ((Scanner.new ⟨.gray8, 4, 4, .packed 4, Array.replicate 16 0⟩).setGrid 0 1).send
          [.moveTo ⟨0, 0⟩, .lineTo ⟨0, 65536⟩, .lineTo ⟨65536, 65536⟩, .moveTo ⟨65536, 131072⟩,
            .lineTo ⟨262144, 196608⟩, .lineTo ⟨65536, 262144⟩, .lineTo ⟨196608, 131072⟩] =
          .ok received ∧
        Sweep.linesOf received.closeSubpath.grid received.closeSubpath.edges.toList =
          [0, 1] ++ 2 :: [3] ∧
        Sweep.sampleRowsOf received.closeSubpath.grid 2 = [4] ++ 5 :: [] ∧
        (received.closeSubpath.edges.toList.map fun edge => (edge.firstRow, edge.stopRow)) =
          [(0, 2), (0, 2), (4, 6), (6, 8), (4, 8)] ∧
        ((received.closeSubpath.edges.toList.filter fun edge => edge.Crosses 5).map
          fun edge => (Edge.advance^[(5 - edge.firstRow).toNat] edge).x) = [212992, 147456] ∧
        received.closeSubpath.clip.width.toNat = 4 :=
    ⟨_, rfl, by decide, by decide, by decide, by decide, by decide⟩
  obtain ⟨_, _, visited⟩ := active_edges_complete_and_sorted received.closeSubpath
  obtain ⟨clear, onRows⟩ := visited _ _ _ lines
  obtain ⟨perm, sorted⟩ := onRows _ _ _ rows
  refine ⟨received.closeSubpath, lines, rows, extents, ?_, ?_⟩
  · rw [← width]
    exact clear
  · have crossings := perm.map Edge.x
    rw [List.map_map] at crossings
    have places : [212992, 147456].Perm [147456, (212992 : Int)] := .swap _ _ _
    exact List.Perm.eq_of_pairwise (fun _ _ _ _ => Int.le_antisymm) (List.pairwise_map.mpr sorted)
      (by decide) ((crossings.trans (.of_eq crossing)).trans places)

end Scanner

end Raster
