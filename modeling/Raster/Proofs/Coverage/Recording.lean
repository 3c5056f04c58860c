import Raster.Coverage.Cache

/-!
# Recording coverage

A cache holds its rows one after another in a single stream of bytes.  Appending a
row leaves the earlier ones in place, so that a recorded path reads back row by row.
-/

namespace Raster

/-- The row as runs. -/
def CoverageRow.encoded (row : CoverageRow) : RunRow :=
  ⟨row.x, row.y, CoverageCache.runs row.values⟩

/-- The row with a value for each pixel. -/
def RunRow.decoded (row : RunRow) : CoverageRow :=
  ⟨row.x, row.y, RunRow.expand row.runs⟩

@[simp]
theorem CoverageRow.decoded_encoded (row : CoverageRow) : row.encoded.decoded = row := by
  simp [encoded, RunRow.decoded]

namespace CoverageCache

/-- Every row begins inside the stream. -/
def IsAligned (cache : CoverageCache) : Prop :=
  ∀ entry ∈ cache.entries.toList, entry.offset ≤ cache.bytes.size

theorem toList_bytes_push (cache : CoverageCache) (row : CoverageRow) :
    (cache.push row).bytes.toList = cache.bytes.toList ++ toBytes (runs row.values) := by
  simp [CoverageCache.push]

theorem size_bytes_push (cache : CoverageCache) (row : CoverageRow) :
    (cache.push row).bytes.size = cache.bytes.size + (toBytes (runs row.values)).length := by
  rw [← Array.length_toList, toList_bytes_push, List.length_append, Array.length_toList]

theorem IsAligned.push {cache : CoverageCache} (aligned : cache.IsAligned) (row : CoverageRow) :
    (cache.push row).IsAligned := by
  intro entry member
  rw [size_bytes_push]
  simp only [CoverageCache.push, Array.toList_push, List.mem_append, List.mem_singleton] at member
  rcases member with earlier | rfl
  · exact Nat.le_trans (aligned entry earlier) (Nat.le_add_right _ _)
  · exact Nat.le_add_right _ _

theorem IsAligned.le_size_of_mem_stops {cache : CoverageCache} (aligned : cache.IsAligned)
    {stop : Nat} (member : stop ∈ cache.stops) : stop ≤ cache.bytes.size := by
  rcases List.mem_append.mp member with later | last
  · obtain ⟨entry, entryMember, rfl⟩ := List.mem_map.mp later
    exact aligned entry (List.mem_of_mem_drop entryMember)
  · exact Nat.le_of_eq (List.mem_singleton.mp last)

/-- The rows end where they ended before, and the new one at the end of the stream. -/
theorem zip_stops_push (cache : CoverageCache) (row : CoverageRow) :
    (cache.push row).entries.toList.zip (cache.push row).stops =
      cache.entries.toList.zip cache.stops ++
        [(⟨row.y, row.x, cache.bytes.size⟩, (cache.push row).bytes.size)] := by
  simp only [stops, CoverageCache.push, Array.toList_push]
  cases cache.entries.toList with
  | nil => rfl
  | cons first rest =>
      simp only [List.cons_append, List.drop_succ_cons, List.drop_zero, List.map_append,
        List.map_cons, List.map_nil]
      rw [← List.cons_append, List.zip_append (by simp)]
      rfl

/-- An appended row reads back, and the earlier ones read as before. -/
theorem rows_push {cache : CoverageCache} (aligned : cache.IsAligned) (row : CoverageRow) :
    (cache.push row).rows = cache.rows ++ [row.encoded] := by
  rw [rows, zip_stops_push, List.map_append]
  congr 1
  · apply List.map_congr_left
    rintro ⟨entry, stop⟩ member
    obtain ⟨entryMember, stopMember⟩ := List.of_mem_zip member
    have begins : entry.offset ≤ cache.bytes.toList.length := aligned entry entryMember
    have ends : stop - entry.offset ≤ (cache.bytes.toList.drop entry.offset).length := by
      rw [List.length_drop, Array.length_toList]
      exact Nat.sub_le_sub_right (aligned.le_size_of_mem_stops stopMember) _
    simp only [Array.toList_extract, toList_bytes_push, List.extract_eq_take_drop]
    rw [List.drop_append_of_le_length begins, List.take_append_of_le_length ends]
  · have own : (cache.push row).bytes.toList.extract cache.bytes.size (cache.push row).bytes.size =
        toBytes (runs row.values) := by
      rw [toList_bytes_push, size_bytes_push, List.extract_eq_take_drop, Nat.add_sub_cancel_left,
        List.drop_left' Array.length_toList, List.take_length]
    simp only [List.map_cons, List.map_nil, Array.toList_extract, own, ofBytes_toBytes]
    rfl

theorem rows_foldl_push {cache : CoverageCache} (aligned : cache.IsAligned)
    (rows : List CoverageRow) :
    (rows.foldl push cache).rows = cache.rows ++ rows.map CoverageRow.encoded := by
  induction rows generalizing cache with
  | nil => simp
  | cons row rest inductionHypothesis =>
      rw [List.foldl_cons, inductionHypothesis (aligned.push row), rows_push aligned,
        List.append_assoc]
      rfl

/-- The rows of a recorded path read back in order. -/
theorem rows_record (cache : CoverageCache) (maxCoverage : Nat) (rows : List CoverageRow)
    (box : Option PixelBox) :
    (cache.record maxCoverage rows box).rows = rows.map CoverageRow.encoded := by
  have aligned : (cache.start maxCoverage).IsAligned :=
    fun _ member => absurd member List.not_mem_nil
  exact rows_foldl_push aligned rows

theorem maxCoverage_foldl_push (cache : CoverageCache) (rows : List CoverageRow) :
    (rows.foldl push cache).maxCoverage = cache.maxCoverage := by
  induction rows generalizing cache with
  | nil => rfl
  | cons row rest inductionHypothesis => rw [List.foldl_cons, inductionHypothesis, push]

@[simp]
theorem maxCoverage_record (cache : CoverageCache) (maxCoverage : Nat) (rows : List CoverageRow)
    (box : Option PixelBox) : (cache.record maxCoverage rows box).maxCoverage = maxCoverage :=
  maxCoverage_foldl_push (cache.start maxCoverage) rows

end CoverageCache

end Raster
