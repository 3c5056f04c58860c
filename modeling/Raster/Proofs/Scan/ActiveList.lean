import Raster.Proofs.Scan.Order
import Raster.Proofs.Scan.Stepping

/-!
# The active edges of a sample row

When the spans of a sample row are taken, the active edges are exactly those that cross
the row, each stepped to it, in the order of their crossings.  The rows of coverage of
a sweep are therefore built line by line from the spans of its sample rows.
-/

namespace Raster.Sweep

/-! ## Intervals -/

theorem interval_of_le {first stop : Int} (empty : stop ≤ first) : interval first stop = [] := by
  have none : (stop - first).toNat = 0 := by omega
  simp [interval, none]

@[simp]
theorem mem_interval (first stop value : Int) :
    value ∈ interval first stop ↔ first ≤ value ∧ value < stop := by
  simp only [interval, List.mem_map, List.mem_range]
  constructor
  · rintro ⟨index, below, rfl⟩
    omega
  · rintro ⟨atLeast, below⟩
    exact ⟨(value - first).toNat, by omega, by omega⟩

/-- An interval is extended at its end. -/
theorem interval_succ {first stop : Int} (ordered : first ≤ stop) :
    interval first (stop + 1) = interval first stop ++ [stop] := by
  have count : (stop + 1 - first).toNat = (stop - first).toNat + 1 := by omega
  have last : first + ((stop - first).toNat : Int) = stop := by omega
  simp only [interval, count, List.range_succ, List.map_append, List.map_cons, List.map_nil, last]

/-- A line has as many sample rows as a pixel. -/
theorem sampleRowsOf_eq (grid : Grid) (y : Int) :
    sampleRowsOf grid y = (List.range grid.rows).map fun (row : Nat) => y * grid.rows + row := by
  have count : ((y + 1) * grid.rows - y * grid.rows : Int).toNat = grid.rows := by
    rw [Int.add_mul, Int.one_mul]
    omega
  rw [sampleRowsOf, interval, count]

/-- A run over an interval whose states and answers are known step by step. -/
theorem run_interval {σ β : Type} (step : σ → Int → σ × List β) (state : Int → σ)
    (answers : Int → List β) {first stop : Int} (ordered : first ≤ stop)
    (steps : ∀ value, first ≤ value → value < stop →
      step (state value) value = (state (value + 1), answers value)) :
    Stage.run step (state first) (interval first stop) =
      (state stop, (interval first stop).flatMap answers) := by
  obtain ⟨count, rfl⟩ : ∃ count : Nat, stop = first + count :=
    ⟨(stop - first).toNat, by omega⟩
  clear ordered
  induction count with
  | zero => simp [interval_of_le]
  | succ count inductionHypothesis =>
      have next : first + ((count + 1 : Nat) : Int) = first + (count : Int) + 1 := by omega
      have before := inductionHypothesis fun value atLeast below =>
        steps value atLeast (by omega)
      rw [next, interval_succ (by omega), Stage.run_append, before]
      simp only [Stage.run_cons, Stage.run_nil, List.append_nil, List.flatMap_append,
        List.flatMap_cons, List.flatMap_nil]
      rw [steps _ (by omega) (by omega)]

/-! ## The run of a sweep -/

/-- The first sample row of the first line that some edges cross. -/
def startRow (grid : Grid) (edges : List Edge) : Int :=
  match (edges.map (·.firstRow)).min? with
  | some first => first / grid.rows * grid.rows
  | none => 0

/-- The sweep of some edges before a sample row is visited. -/
def before (frame : ScanFrame) (edges : List Edge) (row : Int) : Sweep :=
  (Stage.run (sampleRow frame) ⟨edges, []⟩ (interval (startRow frame.grid edges) row)).1

/-- The active edges when the spans of a sample row are taken. -/
def activeAt (frame : ScanFrame) (edges : List Edge) (row : Int) : List Edge :=
  ((before frame edges row).enter row).active

/-- The spans of a sample row. -/
def spansAt (frame : ScanFrame) (edges : List Edge) (row : Int) : List Span :=
  spans frame 0 (activeAt frame edges row)

/-- The spans of the sample rows of a line of pixels. -/
def lineSpans (frame : ScanFrame) (edges : List Edge) (y : Int) : List Span :=
  (sampleRowsOf frame.grid y).flatMap (spansAt frame edges)

/-- No edge begins before the start row. -/
theorem startRow_le {grid : Grid} {edges : List Edge} {edge : Edge} (member : edge ∈ edges) :
    startRow grid edges ≤ edge.firstRow := by
  have positive := grid.rows_pos
  unfold startRow
  cases least : (edges.map (·.firstRow)).min? with
  | none => simp_all
  | some first =>
      have le := (List.min?_eq_some_iff.mp least).2 _ (List.mem_map_of_mem member)
      have floor := Int.ediv_mul_le first (b := (grid.rows : Int)) (by omega)
      simp only
      omega

theorem before_of_le {frame : ScanFrame} {edges : List Edge} {row : Int}
    (early : row ≤ startRow frame.grid edges) : before frame edges row = ⟨edges, []⟩ := by
  rw [before, interval_of_le early]
  rfl

theorem before_succ {frame : ScanFrame} {edges : List Edge} {row : Int}
    (started : startRow frame.grid edges ≤ row) :
    before frame edges (row + 1) = ((before frame edges row).enter row).leave := by
  simp only [before, interval_succ started, Stage.run_append, Stage.run_cons, Stage.run_nil]
  rfl

/-! ## Completeness and order -/

/-- The edges that cross a row, stepped to it. -/
def crossing (edges : List Edge) (row : Int) : List Edge :=
  (edges.filter fun edge => edge.Crosses row).map (·.onRow row)

/-- Before a row is visited, the edges wait that begin at it or later, and those are
active that crossed the row before. -/
structure Tracks (edges : List Edge) (row : Int) (sweep : Sweep) : Prop where
  waiting : sweep.waiting = edges.filter fun edge => row ≤ edge.firstRow
  active : sweep.active.Perm
    ((edges.filter fun edge => edge.Crosses (row - 1)).map (·.onRow row))

/-- Entering a row drops the edges that ended and takes in those that begin, so that
exactly the crossing ones are active. -/
theorem Tracks.active_enter {edges : List Edge} {row : Int} {sweep : Sweep}
    (tracks : Tracks edges row sweep) :
    (sweep.enter row).active.Perm (crossing edges row) := by
  let crossed := edges.filter fun edge => edge.Crosses row
  have kept : (sweep.active.filter fun edge => row < edge.stopRow).Perm
      ((crossed.filter fun edge => edge.firstRow < row).map (·.onRow row)) := by
    have stepped := tracks.active.filter fun edge => decide (row < edge.stopRow)
    rw [List.filter_map, List.filter_filter] at stepped
    refine stepped.trans (.of_eq ?_)
    rw [List.filter_filter]
    congr 1
    apply List.filter_congr
    intro edge _
    rw [Bool.eq_iff_iff]
    simp only [Function.comp_apply, Edge.stopRow_onRow, Bool.and_eq_true, decide_eq_true_eq]
    unfold Edge.Crosses
    omega
  have entered : ((sweep.waiting.filter fun edge => edge.firstRow ≤ row).filter
      fun edge => row < edge.stopRow) =
        (crossed.filter fun edge => !decide (edge.firstRow < row)).map (·.onRow row) := by
    rw [tracks.waiting, List.filter_filter, List.filter_filter, List.filter_filter]
    -- An edge that begins here needs no step.
    rw [List.map_congr_left (g := id), List.map_id]
    · apply List.filter_congr
      intro edge _
      rw [Bool.eq_iff_iff]
      simp only [Bool.and_eq_true, decide_eq_true_eq, Bool.not_eq_true',
        decide_eq_false_iff_not]
      unfold Edge.Crosses
      omega
    · intro edge member
      simp only [List.mem_filter, Bool.and_eq_true, decide_eq_true_eq, Bool.not_eq_true',
        decide_eq_false_iff_not] at member
      exact Edge.onRow_of_le (by omega)
  simp only [enter, List.partition_eq_filter_filter, List.filter_append]
  refine (sort_perm _).trans ?_
  rw [entered]
  refine (kept.append_right _).trans ?_
  rw [← List.map_append]
  exact (List.filter_append_perm _ crossed).map _

theorem Tracks.waiting_enter {edges : List Edge} {row : Int} {sweep : Sweep}
    (tracks : Tracks edges row sweep) :
    (sweep.enter row).waiting = edges.filter fun edge => row + 1 ≤ edge.firstRow := by
  simp only [enter, List.partition_eq_filter_filter, tracks.waiting, List.filter_filter]
  apply List.filter_congr
  intro edge _
  rw [Bool.eq_iff_iff]
  simp only [Function.comp_apply, Bool.and_eq_true, Bool.not_eq_true', decide_eq_true_eq,
    decide_eq_false_iff_not]
  omega

/-- Visiting a row prepares the next one. -/
theorem Tracks.leave {edges : List Edge} {row : Int} {sweep : Sweep}
    (tracks : Tracks edges row sweep) : Tracks edges (row + 1) (sweep.enter row).leave := by
  refine ⟨tracks.waiting_enter, ?_⟩
  have stepped := tracks.active_enter.map Edge.advance
  refine stepped.trans (.of_eq ?_)
  have previous : row + 1 - 1 = row := by omega
  rw [crossing, List.map_map, previous]
  apply List.map_congr_left
  intro edge member
  have crosses : edge.Crosses row := by simpa using (List.mem_filter.mp member).2
  exact (Edge.onRow_succ crosses.1).symm

/-- Up to the start row nothing has happened. -/
theorem tracks_initial {grid : Grid} {edges : List Edge} {row : Int}
    (early : row ≤ startRow grid edges) : Tracks edges row ⟨edges, []⟩ := by
  have ahead : ∀ edge ∈ edges, row ≤ edge.firstRow := by
    intro edge member
    exact Int.le_trans early (startRow_le member)
  constructor
  · refine (List.filter_eq_self.mpr ?_).symm
    intro edge member
    exact decide_eq_true (ahead edge member)
  · rw [List.filter_eq_nil_iff.mpr, List.map_nil]
    intro edge member
    have begins := ahead edge member
    simp only [decide_eq_true_eq]
    unfold Edge.Crosses
    omega

theorem tracks_before {frame : ScanFrame} {edges : List Edge} {row : Int}
    (started : startRow frame.grid edges ≤ row) :
    Tracks edges row (before frame edges row) := by
  obtain ⟨count, rfl⟩ : ∃ count : Nat, row = startRow frame.grid edges + count :=
    ⟨(row - startRow frame.grid edges).toNat, by omega⟩
  clear started
  induction count with
  | zero =>
      have early : startRow frame.grid edges + ((0 : Nat) : Int) ≤ startRow frame.grid edges := by
        omega
      rw [before_of_le early]
      exact tracks_initial early
  | succ count inductionHypothesis =>
      have next : startRow frame.grid edges + ((count + 1 : Nat) : Int) =
          startRow frame.grid edges + (count : Int) + 1 := by omega
      rw [next, before_succ (by omega)]
      exact inductionHypothesis.leave

/-- The active edges of a row are those that cross it, each stepped to the row. -/
theorem activeAt_perm (frame : ScanFrame) (edges : List Edge) (row : Int) :
    (activeAt frame edges row).Perm (crossing edges row) := by
  rcases Int.le_total (startRow frame.grid edges) row with started | early
  · exact (tracks_before started).active_enter
  · rw [activeAt, before_of_le early]
    exact (tracks_initial early).active_enter

/-- The active edges of a row are in the order of their crossings. -/
theorem isSorted_activeAt (frame : ScanFrame) (edges : List Edge) (row : Int) :
    IsSorted (activeAt frame edges row) :=
  isSorted_sort _

/-! ## Lines of pixels -/

/-- A run over the sample rows of a line. -/
theorem pixelRow_before {frame : ScanFrame} {edges : List Edge} {y : Int}
    (started : startRow frame.grid edges ≤ y * frame.grid.rows) :
    pixelRow frame (before frame edges (y * frame.grid.rows)) y =
      (before frame edges ((y + 1) * frame.grid.rows),
        (coverageRow? frame y (lineSpans frame edges y)).toList) := by
  have positive := frame.grid.rows_pos
  have ordered : y * (frame.grid.rows : Int) ≤ (y + 1) * frame.grid.rows := by
    rw [Int.add_mul]
    omega
  have run := run_interval (sampleRow frame) (before frame edges) (spansAt frame edges) ordered
    fun row atLeast _ => by
      rw [before_succ (by omega)]
      rfl
  simp only [pixelRow, sampleRowsOf, run, lineSpans]

/-- The visited lines follow one another, and the first one begins at the start row. -/
theorem exists_linesOf_eq_interval (grid : Grid) (edges : List Edge) :
    ∃ first stop, linesOf grid edges = interval first stop ∧
      startRow grid edges = first * grid.rows := by
  unfold linesOf startRow
  cases (edges.map (·.firstRow)).min? with
  | none => exact ⟨0, 0, rfl, (Int.zero_mul _).symm⟩
  | some first =>
      cases (edges.map (·.stopRow)).max? with
      | none => exact ⟨_, _, (interval_of_le (Int.le_refl (first / grid.rows))).symm, rfl⟩
      | some stop => exact ⟨_, _, rfl, rfl⟩

/-- A sweep answers, line by line, the coverage of the spans of the line. -/
theorem coverageRows_eq (frame : ScanFrame) (edges : List Edge) :
    coverageRows frame edges =
      if frame.clip.isEmpty then
        []
      else
        (linesOf frame.grid edges).flatMap fun y =>
          (coverageRow? frame y (lineSpans frame edges y)).toList := by
  unfold coverageRows
  split
  · rfl
  · obtain ⟨first, stop, lines, begins⟩ := exists_linesOf_eq_interval frame.grid edges
    rw [lines]
    rcases Int.le_total first stop with ordered | empty
    · have run := run_interval (pixelRow frame)
        (fun y => before frame edges (y * frame.grid.rows))
        (fun y => (coverageRow? frame y (lineSpans frame edges y)).toList) ordered
        fun y atLeast _ => pixelRow_before (by
          rw [begins]
          exact Int.mul_le_mul_of_nonneg_right atLeast (Int.natCast_nonneg _))
      rw [← begins, before_of_le (Int.le_refl _)] at run
      rw [run]
    · rw [interval_of_le empty]
      rfl

end Raster.Sweep
