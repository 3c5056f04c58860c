import Raster.Proofs.Coverage.Recording
import Raster.Proofs.Hull

/-!
# The contents of a cache

While rows are recorded, each of them takes the part of the stream that the earlier ones have
left, so that the parts follow one another and none of them reaches beyond the stream.  A cache
is complete if this holds of its rows, and if these begin and end with coverage and lie in the
smallest box around them.
-/

namespace Raster

open PixelBox (Hull?)

/-- The pixel belongs to the row. -/
def RunRow.HasPixel (row : RunRow) (x y : Int) : Prop :=
  row.y = y ∧ row.x ≤ x ∧ x < row.x + count row.runs

/-- There are pixels, and the first and the last one are covered. -/
structure RunRow.EndsCovered (row : RunRow) : Prop where
  first : ∃ value, (expand row.runs).head? = some value ∧ value ≠ 0
  last : ∃ value, (expand row.runs).getLast? = some value ∧ value ≠ 0

theorem RunRow.EndsCovered.count_pos {row : RunRow} (covered : row.EndsCovered) :
    0 < count row.runs := by
  obtain ⟨value, found, _⟩ := covered.first
  rw [← length_expand]
  exact List.length_pos_of_mem (List.mem_of_head? found)

namespace CoverageCache

/-- The parts of the stream that belong to the rows follow one another. -/
structure Filed (cache : CoverageCache) : Prop where
  /-- The parts begin in the order of the rows. -/
  offsets : cache.entries.toList.Pairwise fun first second => first.offset < second.offset
  /-- They begin inside the stream. -/
  inside : ∀ entry ∈ cache.entries.toList, entry.offset < cache.bytes.size
  /-- They end after they begin, and inside the stream. -/
  slices : ∀ slice ∈ cache.entries.toList.zip cache.stops,
    slice.1.offset < slice.2 ∧ slice.2 ≤ cache.bytes.size
  /-- They leave out nothing of the stream. -/
  stream : cache.bytes.toList = cache.rows.flatMap fun row => toBytes row.runs

theorem Filed.isAligned {cache : CoverageCache} (filed : cache.Filed) : cache.IsAligned :=
  fun entry member => Nat.le_of_lt (filed.inside entry member)

theorem filed_of_no_entries {cache : CoverageCache} (entries : cache.entries = #[])
    (bytes : cache.bytes = #[]) : cache.Filed where
  offsets := by
    rw [entries]
    exact List.Pairwise.nil
  inside := by
    rw [entries]
    exact fun _ member => absurd member List.not_mem_nil
  slices := by
    rw [entries]
    exact fun _ member => absurd member List.not_mem_nil
  stream := by
    rw [rows, entries, bytes]
    rfl

theorem toBytes_runs_ne_nil {values : List Nat} (nonempty : values ≠ []) :
    toBytes (runs values) ≠ [] := by
  intro none
  have expanded := congrArg (fun bytes => RunRow.expand (ofBytes bytes)) none
  simp only [ofBytes_toBytes, expand_runs] at expanded
  exact nonempty expanded

/-- An appended row takes a part of its own at the end of the stream. -/
theorem Filed.push {cache : CoverageCache} (filed : cache.Filed) {row : CoverageRow}
    (nonempty : row.values ≠ []) : (cache.push row).Filed := by
  have longer : cache.bytes.size < (cache.push row).bytes.size := by
    rw [size_bytes_push]
    have taken := List.length_pos_iff.mpr (toBytes_runs_ne_nil nonempty)
    omega
  have entries : (cache.push row).entries.toList =
      cache.entries.toList ++ [⟨row.y, row.x, cache.bytes.size⟩] := by
    rw [CoverageCache.push, Array.toList_push]
  refine ⟨?_, ?_, ?_, ?_⟩
  · rw [entries, List.pairwise_append]
    refine ⟨filed.offsets, List.pairwise_singleton _ _, ?_⟩
    intro earlier member last lastMember
    obtain rfl := List.mem_singleton.mp lastMember
    exact filed.inside earlier member
  · rw [entries]
    intro entry member
    rcases List.mem_append.mp member with earlier | last
    · exact Nat.lt_trans (filed.inside entry earlier) longer
    · obtain rfl := List.mem_singleton.mp last
      exact longer
  · rw [zip_stops_push]
    intro slice member
    rcases List.mem_append.mp member with earlier | last
    · obtain ⟨ordered, ends⟩ := filed.slices slice earlier
      exact ⟨ordered, Nat.le_trans ends (Nat.le_of_lt longer)⟩
    · obtain rfl := List.mem_singleton.mp last
      exact ⟨longer, Nat.le_refl _⟩
  · rw [toList_bytes_push, rows_push filed.isAligned, List.flatMap_append, filed.stream]
    simp [CoverageRow.encoded]

theorem Filed.foldl_push {cache : CoverageCache} (filed : cache.Filed) {rows : List CoverageRow}
    (nonempty : ∀ row ∈ rows, row.values ≠ []) : (rows.foldl CoverageCache.push cache).Filed := by
  induction rows generalizing cache with
  | nil => exact filed
  | cons row rest inductionHypothesis =>
      exact inductionHypothesis (filed.push (nonempty row List.mem_cons_self)) fun other member =>
        nonempty other (List.mem_cons_of_mem _ member)

/-- The parts of a recorded path follow one another. -/
theorem filed_record (cache : CoverageCache) (maxCoverage : Nat) {rows : List CoverageRow}
    (box : Option PixelBox) (nonempty : ∀ row ∈ rows, row.values ≠ []) :
    (cache.record maxCoverage rows box).Filed := by
  have pushed : (rows.foldl push (cache.start maxCoverage)).Filed :=
    (filed_of_no_entries rfl rfl).foldl_push nonempty
  exact ⟨pushed.offsets, pushed.inside, pushed.slices, pushed.stream⟩

theorem lines_foldl_push (cache : CoverageCache) (rows : List CoverageRow) :
    (rows.foldl push cache).entries.toList.map (·.y) =
      cache.entries.toList.map (·.y) ++ rows.map (·.y) := by
  induction rows generalizing cache with
  | nil => simp
  | cons row rest inductionHypothesis =>
      rw [List.foldl_cons, inductionHypothesis, push, Array.toList_push, List.map_append,
        List.append_assoc]
      rfl

/-- A recorded path has the lines of its rows. -/
theorem lines_record (cache : CoverageCache) (maxCoverage : Nat) (rows : List CoverageRow)
    (box : Option PixelBox) :
    (cache.record maxCoverage rows box).entries.toList.map (·.y) = rows.map (·.y) :=
  lines_foldl_push (cache.start maxCoverage) rows

/-! ## Complete caches -/

/-- The cache is invalid and empty, or it holds all of one path: one row a line, from top to
bottom, which fill the stream and begin and end with coverage, and the smallest box around
them. -/
structure Complete (cache : CoverageCache) : Prop where
  empty : cache.isValid = false → cache.entries = #[] ∧ cache.bytes = #[] ∧ cache.box = none
  lines : cache.entries.toList.Pairwise fun first second => first.y < second.y
  filed : cache.Filed
  covered : ∀ row ∈ cache.rows, row.EndsCovered
  box : Hull? (fun x y => ∃ row ∈ cache.rows, row.HasPixel x y) cache.boundingBox

/-- A cache without entries and without a box is complete. -/
theorem complete_of_no_entries {cache : CoverageCache} (entries : cache.entries = #[])
    (bytes : cache.bytes = #[]) (box : cache.box = none) : cache.Complete := by
  have noRows : cache.rows = [] := by
    rw [rows, entries]
    rfl
  have noBox : cache.boundingBox = none := by
    rw [boundingBox, box, ite_self]
  refine ⟨fun _ => ⟨entries, bytes, box⟩, ?_, filed_of_no_entries entries bytes, ?_, ?_⟩
  · rw [entries]
    exact List.Pairwise.nil
  · rw [noRows]
    exact fun _ member => absurd member List.not_mem_nil
  · rw [noBox, noRows]
    rintro x y ⟨row, member, _⟩
    cases member

/-- A complete cache has a box exactly if it has rows. -/
theorem Complete.boundingBox_eq_none_iff {cache : CoverageCache} (complete : cache.Complete) :
    cache.boundingBox = none ↔ cache.rows = [] := by
  have smallest := complete.box
  constructor
  · intro noBox
    rw [noBox] at smallest
    apply List.eq_nil_iff_forall_not_mem.mpr
    intro row member
    have count := (complete.covered row member).count_pos
    exact smallest row.x row.y ⟨row, member, rfl, Int.le_refl _, by omega⟩
  · intro noRows
    cases box : cache.boundingBox with
    | none => rfl
    | some box =>
        rw [box, noRows] at smallest
        obtain ⟨_, _, row, member, _⟩ := smallest.inhabited
        cases member

end CoverageCache

end Raster
