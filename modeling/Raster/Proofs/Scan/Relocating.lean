import Raster.Proofs.Scan.Caching
import Raster.Proofs.Scan.Shifting

/-!
# Recording elsewhere

A path may be recorded at another place, on the same surface or on another one.  If its clip box is
shifted with it, by whole pixels and without leaving the surface, then the same runs are recorded at
the same offsets, and their rows and the box around them are shifted.
-/

namespace Raster

/-! ## Boxes -/

namespace PixelBox

variable (shift : PixelShift) (box : PixelBox)

theorem isEmpty_shift : (box.shift shift).isEmpty = box.isEmpty := by
  simp only [isEmpty, PixelBox.shift, Int.add_le_add_iff_right]

theorem union_shift (other : PixelBox) :
    (box.shift shift).union (other.shift shift) = (box.union other).shift shift := by
  simp only [union, isEmpty_shift]
  split
  · rfl
  · split
    · rfl
    · simp only [PixelBox.shift, mk.injEq]
      omega

end PixelBox

/-- A row whose corners do not saturate has its box with it. -/
theorem CoverageRow.box_shift {shift : PixelShift} {row : CoverageRow}
    (right : Word.Fits32 (row.x + row.values.length)) (bottom : Word.Fits32 (row.y + 1))
    (shiftedRight : Word.Fits32 ((row.shift shift).x + (row.shift shift).values.length))
    (shiftedBottom : Word.Fits32 ((row.shift shift).y + 1)) :
    (row.shift shift).box = row.box.shift shift := by
  have far := Word.clamp32_eq_self shiftedRight
  have farBelow := Word.clamp32_eq_self shiftedBottom
  simp only [CoverageRow.shift] at far farBelow
  simp only [box, PixelBox.ofSize, PixelBox.shift, CoverageRow.shift, far, farBelow,
    Word.clamp32_eq_self right, Word.clamp32_eq_self bottom, PixelBox.mk.injEq, true_and]
  omega

namespace Sweep

/-- The box of shifted rows is shifted if none of its corners saturates. -/
theorem boxOf_shift {shift : PixelShift} {rows : List CoverageRow} (fits : RowsFit rows)
    (shiftedFits : RowsFit (rows.map (CoverageRow.shift shift))) :
    boxOf (rows.map (CoverageRow.shift shift)) = (boxOf rows).map (PixelBox.shift shift) := by
  induction rows using List.reverseRecOn with
  | nil => rfl
  | append_singleton rows row inductionHypothesis =>
      obtain ⟨right, bottom⟩ := fits
      obtain ⟨shiftedRight, shiftedBottom⟩ := shiftedFits
      rw [List.map_append] at shiftedRight shiftedBottom
      have last : row ∈ rows ++ [row] := List.mem_append_right _ List.mem_cons_self
      have shiftedLast : row.shift shift ∈
          rows.map (CoverageRow.shift shift) ++ [row].map (CoverageRow.shift shift) :=
        List.mem_append_right _ List.mem_cons_self
      have here := CoverageRow.box_shift (right row last) (bottom row last)
        (shiftedRight _ shiftedLast) (shiftedBottom _ shiftedLast)
      have earlier := inductionHypothesis
        ⟨fun other member => right other (List.mem_append_left _ member),
          fun other member => bottom other (List.mem_append_left _ member)⟩
        ⟨fun other member => shiftedRight other (List.mem_append_left _ member),
          fun other member => shiftedBottom other (List.mem_append_left _ member)⟩
      rw [List.map_append, List.map_cons, List.map_nil, boxOf_append, boxOf_append, earlier, here]
      cases boxOf rows with
      | none => rfl
      | some box => simp only [Option.map_some, PixelBox.union_shift]

end Sweep

/-! ## Caches -/

namespace CoverageCache

/-- The same runs elsewhere. -/
def Entry.shift (shift : PixelShift) (entry : Entry) : Entry :=
  { entry with y := entry.y + shift.down, x := entry.x + shift.right }

/-- The cache with its rows and its box elsewhere; their runs and offsets stay. -/
def shift (shift : PixelShift) (cache : CoverageCache) : CoverageCache :=
  { cache with
    box := cache.box.map (PixelBox.shift shift)
    entries := cache.entries.map (Entry.shift shift) }

variable (displacement : PixelShift)

theorem push_shift (cache : CoverageCache) (row : CoverageRow) :
    (cache.shift displacement).push (row.shift displacement) =
      (cache.push row).shift displacement := by
  simp only [push, shift, Array.map_push]
  rfl

theorem foldl_push_shift (cache : CoverageCache) (rows : List CoverageRow) :
    (rows.map (CoverageRow.shift displacement)).foldl push (cache.shift displacement) =
      (rows.foldl push cache).shift displacement := by
  induction rows generalizing cache with
  | nil => rfl
  | cons row rest inductionHypothesis =>
      rw [List.map_cons, List.foldl_cons, push_shift, inductionHypothesis, List.foldl_cons]

theorem record_shift (cache : CoverageCache) (maxCoverage : Nat) (rows : List CoverageRow)
    (box : Option PixelBox) :
    cache.record maxCoverage (rows.map (CoverageRow.shift displacement))
        (box.map (PixelBox.shift displacement)) =
      (cache.record maxCoverage rows box).shift displacement := by
  have pushed := foldl_push_shift displacement (cache.start maxCoverage) rows
  have clear : (cache.start maxCoverage).shift displacement = cache.start maxCoverage := by
    simp [shift, start, invalidate]
  rw [clear] at pushed
  simp only [record, pushed]
  rfl

end CoverageCache

namespace Scanner

/-! ## Clip boxes -/

/-- A clip box inside the surface is taken as it is, unless it is empty. -/
theorem clipOn_of_within {surface : Surface} {box : PixelBox}
    (inside : box.Within surface.bounds) :
    clipOn surface (some box) = if box.isEmpty then .zero else box := by
  obtain ⟨left, top, right, bottom⟩ := inside
  have common : (⟨max box.left surface.bounds.left, max box.top surface.bounds.top,
      min box.right surface.bounds.right, min box.bottom surface.bounds.bottom⟩ : PixelBox) =
        box :=
    PixelBox.ext (Int.max_eq_left left) (Int.max_eq_left top) (Int.min_eq_left right)
      (Int.min_eq_left bottom)
  simp only [clipOn, PixelBox.intersection?, common]
  split <;> rfl

theorem Placed.setClip {scanner : Scanner} (placed : scanner.Placed) (clip : Option PixelBox) :
    (scanner.setClip clip).Placed :=
  ⟨placed.ready.setClip clip, placed.accepted⟩

theorem Idle.setClip {scanner : Scanner} (idle : scanner.Idle) (clip : Option PixelBox) :
    (scanner.setClip clip).Idle :=
  ⟨idle.edges, idle.subpath, idle.probe⟩

/-! ## Recorded rows -/

/-- The rows of coverage of a path that an idle scanner receives. -/
def rowsOf (scanner : Scanner) (commands : List LineCommand) : List CoverageRow :=
  Sweep.coverageRows scanner.frame
    (Edge.ofSegments scanner.grid scanner.clip (segmentsOf commands))

/-- A scanner with a cache records the rows of a path. -/
theorem Idle.exists_send_eq_record {scanner : Scanner} (idle : scanner.Idle)
    (recording : scanner.cache.isSome = true) {commands : List LineCommand}
    (unfinished : .finish ∉ commands) :
    ∃ recorded, scanner.send (commands ++ [.finish]) = .ok recorded ∧
      recorded.cache = some (CoverageCache.empty.record scanner.grid.maxCoverage
        (scanner.rowsOf commands) (Sweep.boxOf (scanner.rowsOf commands))) ∧
      recorded.boundingBox = Sweep.boxOf (scanner.rowsOf commands) := by
  obtain ⟨cache, attached⟩ := Option.isSome_iff_exists.mp recording
  obtain ⟨received, edges, probe, sent, closed, traced⟩ := idle.exists_received unfinished
  have closedCache : received.closeSubpath.cache = some cache := by
    rw [closed]
    exact attached
  have rows : received.closeSubpath.coverageRows = scanner.rowsOf commands := by
    rw [closed, rowsOf, ← traced]
    rfl
  have grid : received.closeSubpath.grid = scanner.grid := by
    rw [closed]
    rfl
  obtain ⟨scratch, finished⟩ := exists_finish_of_cache closedCache
  refine ⟨_, (send_finish sent).trans finished, ?_, ?_⟩
  · simp only [reset, record, rows, grid]
  · simp only [reset, boxed, rows]

/-- The rows of a path on an accepted surface do not saturate. -/
theorem Placed.rowsFit_rowsOf {scanner : Scanner} (placed : scanner.Placed)
    (commands : List LineCommand) : Sweep.RowsFit (scanner.rowsOf commands) := by
  apply placed.ready.rowsFit
  intro edge member
  obtain ⟨segment, _, made⟩ := List.mem_filterMap.mp member
  exact placed.onSurface_of_ofSegment? made

theorem rowsOf_of_isEmpty {scanner : Scanner} (empty : scanner.clip.isEmpty = true)
    (commands : List LineCommand) : scanner.rowsOf commands = [] :=
  if_pos empty

/-- A shifted path has shifted rows under a shifted clip box. -/
theorem rowsOf_shift {scanner other : Scanner} (shift : PixelShift)
    (sameGrid : other.grid = scanner.grid) (sameRule : other.rule = scanner.rule)
    (clip : other.clip = scanner.clip.shift shift) (commands : List LineCommand) :
    other.rowsOf (commands.map (LineCommand.shift shift)) =
      (scanner.rowsOf commands).map (CoverageRow.shift shift) := by
  have frame : other.frame = scanner.frame.shift shift := by
    simp only [Scanner.frame, ScanFrame.shift, sameGrid, sameRule, clip]
  rw [rowsOf, frame, sameGrid, clip, segmentsOf_shift, Edge.ofSegments_shift]
  exact Sweep.coverageRows_shift scanner.frame shift _

/-- Recording commutes with a displacement by whole pixels.  Whatever the path, also with edges that
coincide or cross a row at the same place, its coverage is recorded, and a shifted path under a
shifted clip box, inside the same surface or another one, leaves the same runs at the same offsets,
with its rows and its bounding box shifted. -/
theorem recording_commutes_with_shift {scanner other : Scanner} (placed : scanner.Placed)
    (otherPlaced : other.Placed) (idle : scanner.Idle) (otherIdle : other.Idle)
    (sameGrid : other.grid = scanner.grid) (sameRule : other.rule = scanner.rule)
    (recording : scanner.cache.isSome = true) (otherRecording : other.cache.isSome = true)
    (shift : PixelShift) {clip : PixelBox} (inside : clip.Within scanner.surface.bounds)
    (shiftedInside : (clip.shift shift).Within other.surface.bounds)
    {commands : List LineCommand} (unfinished : .finish ∉ commands) :
    ∃ recorded shifted kept,
      (scanner.setClip (some clip)).send (commands ++ [.finish]) = .ok recorded ∧
      (other.setClip (some (clip.shift shift))).send
        (commands.map (LineCommand.shift shift) ++ [.finish]) = .ok shifted ∧
      recorded.cache = some kept ∧ shifted.cache = some (kept.shift shift) ∧
      shifted.boundingBox = recorded.boundingBox.map (PixelBox.shift shift) ∧
      kept.rows.map RunRow.decoded = (scanner.setClip (some clip)).rowsOf commands := by
  have shiftedUnfinished : .finish ∉ commands.map (LineCommand.shift shift) := by
    intro member
    obtain ⟨command, commandMember, same⟩ := List.mem_map.mp member
    cases command <;> cases same
    exact unfinished commandMember
  obtain ⟨recorded, sent, cache, box⟩ :=
    (idle.setClip (some clip)).exists_send_eq_record recording unfinished
  obtain ⟨shifted, shiftedSent, shiftedCache, shiftedBox⟩ :=
    (otherIdle.setClip (some (clip.shift shift))).exists_send_eq_record otherRecording
      shiftedUnfinished
  have rows : (other.setClip (some (clip.shift shift))).rowsOf
      (commands.map (LineCommand.shift shift)) =
        ((scanner.setClip (some clip)).rowsOf commands).map (CoverageRow.shift shift) := by
    cases empty : clip.isEmpty with
    | true =>
        -- An empty clip box is not shifted, but leaves no row either.
        rw [rowsOf_of_isEmpty, rowsOf_of_isEmpty]
        · rfl
        · simp only [Scanner.setClip, clipOn_of_within inside, empty, if_true]
          rfl
        · simp only [Scanner.setClip, clipOn_of_within shiftedInside, PixelBox.isEmpty_shift, empty,
            if_true]
          rfl
    | false =>
        refine rowsOf_shift shift ?_ ?_ ?_ commands
        · exact sameGrid
        · exact sameRule
        · simp only [Scanner.setClip, clipOn_of_within inside, clipOn_of_within shiftedInside,
            PixelBox.isEmpty_shift, empty, Bool.false_eq_true, if_false]
  have shiftedFits := (otherPlaced.setClip (some (clip.shift shift))).rowsFit_rowsOf
    (commands.map (LineCommand.shift shift))
  rw [rows] at shiftedFits shiftedCache shiftedBox
  rw [Sweep.boxOf_shift ((placed.setClip (some clip)).rowsFit_rowsOf commands) shiftedFits]
    at shiftedCache shiftedBox
  refine ⟨recorded, shifted, _, sent, shiftedSent, cache, ?_, ?_, ?_⟩
  · rw [shiftedCache, CoverageCache.record_shift]
    simp only [Scanner.setClip, sameGrid]
  · rw [shiftedBox, box]
  · rw [CoverageCache.rows_record, List.map_map]
    exact List.map_id'' CoverageRow.decoded_encoded _

/-- Two triangles with a common slanted side, partly left of the clip box, at a larger surface. -/
theorem recording_commutes_with_shift_triangles :
    let small : Surface := ⟨.gray8, 3, 3, .packed 3, Array.replicate 9 0⟩
    let large : Surface := ⟨.argb8888, 6, 5, .packed 6, Array.replicate 30 0⟩
    let scannerOn := fun surface : Surface =>
      (((new surface).setGrid 1 2).setRule .evenOdd).setCache (some .empty)
    let clip : PixelBox := ⟨1, 0, 3, 3⟩
    let shift : PixelShift := ⟨2, 1⟩
    let commands : List LineCommand :=
      [.moveTo ⟨-65536, 0⟩, .lineTo ⟨196608, 131072⟩, .lineTo ⟨-65536, 196608⟩, .close,
        .moveTo ⟨196608, 131072⟩, .lineTo ⟨-65536, 0⟩, .lineTo ⟨196608, 65536⟩]
    ∃ recorded shifted kept,
      ((scannerOn small).setClip (some clip)).send (commands ++ [.finish]) = .ok recorded ∧
      ((scannerOn large).setClip (some (clip.shift shift))).send
        (commands.map (LineCommand.shift shift) ++ [.finish]) = .ok shifted ∧
      recorded.cache = some kept ∧ shifted.cache = some (kept.shift shift) ∧
      shifted.boundingBox = recorded.boundingBox.map (PixelBox.shift shift) ∧
      kept.rows.map RunRow.decoded = [⟨1, 0, [3, 1]⟩, ⟨1, 1, [8, 8]⟩, ⟨1, 2, [3, 1]⟩] := by
  intro small large scannerOn clip shift commands
  have placedOn {surface : Surface} (accepted : surface.Accepted) : (scannerOn surface).Placed := by
    obtain ⟨lgX, lgY, holds⟩ := (ready_new surface).setGrid 1 2
    exact ⟨⟨lgX, lgY, holds⟩, accepted⟩
  have smallMade : Surface.new? .gray8 3 3 (.packed 3) (Array.replicate 9 0) = .ok small := rfl
  have largeMade : Surface.new? .argb8888 6 5 (.packed 6) (Array.replicate 30 0) = .ok large := rfl
  have rows : ((scannerOn small).setClip (some clip)).rowsOf commands =
      [⟨1, 0, [3, 1]⟩, ⟨1, 1, [8, 8]⟩, ⟨1, 2, [3, 1]⟩] := by
    decide +kernel
  have commutes := recording_commutes_with_shift (placedOn (Surface.accepted_of_new? smallMade))
    (placedOn (Surface.accepted_of_new? largeMade)) ⟨rfl, rfl, rfl⟩ ⟨rfl, rfl, rfl⟩ rfl rfl rfl rfl
    shift (⟨by decide, by decide, by decide, by decide⟩ : clip.Within small.bounds)
    ⟨by decide, by decide, by decide, by decide⟩ (by decide : .finish ∉ commands)
  rw [rows] at commutes
  exact commutes

end Scanner

end Raster
