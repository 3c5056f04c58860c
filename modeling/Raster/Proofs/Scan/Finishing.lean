import Raster.Proofs.Scan.Compositing

/-!
# The end of a path

At its end a path is filled as a rectangle, rasterized or recorded.  Only rasterizing can be
a fault.  What is left is an idle scanner with the same settings.
-/

namespace Raster

namespace CellRect

theorem samplesIn_le (perPixel : Nat) (first stop pixel : Int) :
    samplesIn perPixel first stop pixel ≤ perPixel := by
  have width : (pixel + 1) * perPixel = pixel * perPixel + perPixel := by
    rw [Int.add_mul, Int.one_mul]
  unfold samplesIn
  omega

/-- An inner pixel is wide enough for all of its columns. -/
theorem columnsIn_eq {grid : Grid} {cells : CellRect} {first last : Int}
    (firstBound : (cells.box grid).left ≤ first) (lastBound : last ≤ (cells.box grid).right - 1)
    (fullLine : Bool) (pixel : Int) :
    columnsIn grid cells first last fullLine pixel =
      samplesIn grid.columns cells.left cells.right pixel := by
  rw [columnsIn]
  split
  · rename_i inner
    have positive : (0 : Int) < grid.columns := by exact_mod_cast grid.columns_pos
    have left : cells.left < pixel * grid.columns :=
      (Int.ediv_lt_iff_lt_mul positive).mp (Int.lt_of_le_of_lt firstBound inner.1)
    have lastColumn : (cells.box grid).right - 1 = (cells.right - 1) / grid.columns :=
      Int.add_sub_cancel _ _
    have right : (pixel + 1) * grid.columns ≤ cells.right - 1 :=
      (Int.le_ediv_iff_mul_le positive).mp
        (Int.le_trans inner.2.1 (Int.le_trans lastBound (Int.le_of_eq lastColumn)))
    have width : (pixel + 1) * grid.columns = pixel * grid.columns + grid.columns := by
      rw [Int.add_mul, Int.one_mul]
    rw [samplesIn]
    omega
  · rfl

/-- A rectangle has at most as many samples in a pixel as there are, so that filling it is
no fault. -/
theorem touches_eq_ok {grid : Grid} {cells : CellRect} {width height : Nat}
    {alphas : Array Nat} {argb : Nat} (nonempty : cells.isEmpty = false)
    (complete : grid.maxCoverage < alphas.size) :
    cells.touches grid width height alphas argb =
      .ok (((pixels (max (cells.box grid).top 0)
          (min ((cells.box grid).bottom - 1) (height - 1))).flatMap fun y =>
            (pixels (max (cells.box grid).left 0)
              (min ((cells.box grid).right - 1) (width - 1))).map fun x => (x, y)).map
        fun (x, y) =>
          ⟨x, y, alphas[samplesIn grid.columns cells.left cells.right x *
            samplesIn grid.rows cells.top cells.bottom y]?.getD 0, argb⟩) := by
  simp only [touches, nonempty, Bool.false_eq_true, if_false]
  apply mapM_eq_ok
  rintro ⟨x, y⟩ _
  have atMost := Nat.mul_le_mul (samplesIn_le grid.columns cells.left cells.right x)
    (samplesIn_le grid.rows cells.top cells.bottom y)
  rw [columnsIn_eq (Int.le_max_left _ _) (Int.min_le_left _ _)]
  simp only [Alpha.lookup_of_lt (Nat.lt_of_le_of_lt atMost complete)]
  rfl

end CellRect

namespace Scanner

/-- Filling a rectangle is no fault. -/
theorem exists_fillRect (scanner : Scanner) (rect : Rect) (color : Color) :
    ∃ drawn, scanner.fillRect rect color = .ok drawn := by
  unfold fillRect
  cases empty : (CellRect.ofRect scanner.grid scanner.clip rect).isEmpty with
  | true =>
      simp only [empty, if_true]
      exact ⟨_, rfl⟩
  | false =>
      have complete : scanner.grid.maxCoverage <
          (Alpha.table scanner.grid.maxCoverage color.alpha.toNat).size := by
        rw [Alpha.size_table]
        omega
      simp only [empty, Bool.false_eq_true, if_false, alphaTable_eq,
        CellRect.touches_eq_ok empty complete]
      exact ⟨_, rfl⟩

/-- The end of a path that is no rectangle to be filled rasterizes it. -/
theorem finish_of_noRect {scanner : Scanner} (noRect : scanner.closeSubpath.filledRect? = none) :
    scanner.finish = (do pure (← scanner.closeSubpath.rasterize).reset) := by
  simp only [finish, noRect]

theorem map_bare_finish_of_noRect {scanner : Scanner}
    (noRect : scanner.closeSubpath.filledRect? = none) :
    scanner.finish.map bare =
      (scanner.closeSubpath.rasterize.map bare).map fun drawn => drawn.reset := by
  rw [finish_of_noRect noRect]
  cases scanner.closeSubpath.rasterize <;> rfl

theorem map_bare_finish_of_rect {scanner : Scanner} {filled : Rect × Color}
    (rect : scanner.closeSubpath.filledRect? = some filled) :
    scanner.finish.map bare =
      ((scanner.closeSubpath.fillRect filled.1 filled.2).map bare).map fun drawn =>
        drawn.reset := by
  simp only [finish, rect]
  cases scanner.closeSubpath.fillRect filled.1 filled.2 <;> rfl

/-- The cache in which the current path is recorded. -/
def record (scanner : Scanner) : CoverageCache :=
  CoverageCache.empty.record scanner.grid.maxCoverage scanner.coverageRows
    (Sweep.boxOf scanner.coverageRows)

/-- Unless nothing can be drawn, a path is swept, and its rows of coverage are recorded or
composited one after another. -/
theorem exists_rasterize_eq {scanner : Scanner}
    (drawable : (scanner.cache.isSome || !scanner.paint.isDegenerate) = true) :
    ∃ scratch, scanner.rasterize =
      match scanner.cache with
      | some _ => .ok { scanner.boxed with cache := some scanner.record, scratch := scratch }
      | none =>
          scanner.coverageRows.foldlM (drawRow (scanner.alphas scanner.grid.maxCoverage))
            { scanner.boxed with scratch := scratch } := by
  by_cases empty : scanner.edges.isEmpty = true ∨ scanner.clip.isEmpty = true
  · -- A path without rows is not swept, which makes no difference.
    have none := coverageRows_of_isEmpty empty
    have skipped : (scanner.edges.isEmpty || scanner.clip.isEmpty) = true :=
      Bool.or_eq_true_iff.mpr empty
    refine ⟨scanner.scratch, ?_⟩
    rw [rasterize, if_pos (by rw [skipped, Bool.true_or])]
    cases attached : scanner.cache <;> simp only [boxed, record, none, attached] <;> rfl
  · obtain ⟨edges, area⟩ := not_or.mp empty
    obtain ⟨scratch, swept⟩ := @exists_sweep_eq
      (scanner.remember scanner.grid.maxCoverage scanner.sourceAlpha) (Bool.not_eq_true _ ▸ area)
    refine ⟨scratch, ?_⟩
    rw [rasterize, if_neg (by simp [drawable, edges, area])]
    simp only [swept]
    rfl

/-- With a cache attached the path is recorded. -/
theorem exists_rasterize_of_cache {scanner : Scanner} {cache : CoverageCache}
    (attached : scanner.cache = some cache) :
    ∃ scratch, scanner.rasterize =
      .ok { scanner.boxed with cache := some scanner.record, scratch := scratch } := by
  obtain ⟨scratch, rasterized⟩ := @exists_rasterize_eq scanner (by rw [attached]; rfl)
  rw [attached] at rasterized
  exact ⟨scratch, rasterized⟩

/-- Without a cache the rows of coverage are composited one after another. -/
theorem exists_rasterize_of_detached {scanner : Scanner} (detached : scanner.cache = none)
    (sound : scanner.paint.isDegenerate = false) :
    ∃ scratch, scanner.rasterize =
      scanner.coverageRows.foldlM (drawRow (scanner.alphas scanner.grid.maxCoverage))
        { scanner.boxed with scratch := scratch } := by
  obtain ⟨scratch, rasterized⟩ := @exists_rasterize_eq scanner (by rw [detached, sound]; rfl)
  rw [detached] at rasterized
  exact ⟨scratch, rasterized⟩

/-- What is drawn without a cache are the touches of the rows of coverage. -/
theorem map_bare_rasterize {scanner : Scanner} (detached : scanner.cache = none)
    (sound : scanner.paint.isDegenerate = false) :
    scanner.rasterize.map bare =
      (scanner.coverageRows.mapM
        (scanner.rowTouches (scanner.alphas scanner.grid.maxCoverage))).map fun drawn =>
          (scanner.boxed.draw drawn.flatten).bare := by
  obtain ⟨scratch, rasterized⟩ := exists_rasterize_of_detached detached sound
  have soundHere : { scanner.boxed with scratch := scratch : Scanner }.paint.isDegenerate = false :=
    sound
  rw [rasterized, map_bare_foldlM_drawRow _ soundHere]
  rfl

/-- Without a cache a degenerate paint draws nothing. -/
theorem rasterize_of_isDegenerate {scanner : Scanner} (detached : scanner.cache = none)
    (degenerate : scanner.paint.isDegenerate = true) :
    scanner.rasterize = .ok { scanner with boundingBox := none } := by
  rw [rasterize, if_pos (by simp [detached, degenerate])]
  simp only [detached, Option.map_none]

/-- With a cache attached the end of a path records it. -/
theorem exists_finish_of_cache {scanner : Scanner} {cache : CoverageCache}
    (attached : scanner.closeSubpath.cache = some cache) :
    ∃ scratch, scanner.finish =
      .ok
        { scanner.closeSubpath.boxed with
          cache := some scanner.closeSubpath.record
          scratch := scratch : Scanner }.reset := by
  have noRect : scanner.closeSubpath.filledRect? = none := by
    rw [filledRect?, attached]
  obtain ⟨scratch, recorded⟩ := exists_rasterize_of_cache attached
  refine ⟨scratch, ?_⟩
  rw [finish_of_noRect noRect, recorded]
  rfl

/-- A path that counts no more samples than a pixel has is recorded for every player whose paint
lacks no colors. -/
theorem exists_recorded_of_finish {scanner drawn : Scanner} {cache : CoverageCache}
    (finished : scanner.finish = .ok drawn)
    (attached : scanner.closeSubpath.cache = some cache)
    (inTable : ∀ row ∈ scanner.closeSubpath.coverageRows, ∀ value ∈ row.values,
      value ≤ scanner.closeSubpath.grid.maxCoverage) :
    ∃ recorded, drawn.cache = some recorded ∧
      ∀ player : Scanner, player.paint.IsWhole →
        ∃ replayed, player.replay recorded = .ok replayed := by
  obtain ⟨scratch, recorded⟩ := exists_finish_of_cache attached
  rw [recorded] at finished
  obtain rfl := Except.ok.inj finished
  refine ⟨_, rfl, ?_⟩
  intro player whole
  refine exists_replay (CoverageCache.rows_record _ _ _ _) ?_ whole
  rw [CoverageCache.maxCoverage_record]
  exact inTable

/-- A path is rasterized without a fault exactly if every row that is composited has its colors and
counts no more samples than a pixel has. -/
theorem exists_rasterize_iff {scanner : Scanner}
    (shown : ∀ row ∈ scanner.coverageRows, scanner.Shows row) :
    (∃ drawn, scanner.rasterize = .ok drawn) ↔
      (scanner.cache = none → scanner.paint.isDegenerate = false →
        ∀ row ∈ scanner.coverageRows, scanner.Colors row ∧
          ∀ value ∈ row.values, value ≤ scanner.grid.maxCoverage) := by
  cases attached : scanner.cache with
  | some cache =>
      obtain ⟨_, recorded⟩ := exists_rasterize_of_cache attached
      exact iff_of_true ⟨_, recorded⟩ nofun
  | none =>
      cases degenerate : scanner.paint.isDegenerate with
      | true => exact iff_of_true ⟨_, rasterize_of_isDegenerate attached degenerate⟩ nofun
      | false =>
          obtain ⟨scratch, rasterized⟩ := exists_rasterize_of_detached attached degenerate
          have sound : { scanner.boxed with scratch := scratch : Scanner }.paint.isDegenerate =
              false := degenerate
          have inTable (value : Nat) : value ≤ scanner.grid.maxCoverage ↔
              value < (scanner.alphas scanner.grid.maxCoverage).size := by
            rw [size_alphas, Nat.lt_succ_iff]
          simp only [forall_const, inTable]
          rw [rasterized]
          constructor
          · rintro ⟨drawn, composited⟩
            have values := lt_size_of_foldlM_drawRow sound shown composited
            exact values
          · intro values
            exact exists_foldlM_drawRow sound shown (fun row member => (values row member).1)
              fun row member => (values row member).2

/-- A path ends without a fault exactly if every row that is composited has its colors and counts no
more samples than a pixel has. -/
theorem exists_finish_iff {scanner closed : Scanner} (made : scanner.closeSubpath = closed)
    (shown : ∀ row ∈ closed.coverageRows, closed.Shows row) :
    (∃ drawn, scanner.finish = .ok drawn) ↔
      (closed.cache = none → closed.filledRect? = none → closed.paint.isDegenerate = false →
        ∀ row ∈ closed.coverageRows, closed.Colors row ∧
          ∀ value ∈ row.values, value ≤ closed.grid.maxCoverage) := by
  subst made
  cases rect : scanner.closeSubpath.filledRect? with
  | some filled =>
      obtain ⟨drawn, done⟩ := scanner.closeSubpath.exists_fillRect filled.1 filled.2
      refine iff_of_true ⟨drawn.reset, ?_⟩ nofun
      simp only [finish, rect, done]
      rfl
  | none =>
      have ended : (∃ drawn, scanner.finish = .ok drawn) ↔
          ∃ drawn, scanner.closeSubpath.rasterize = .ok drawn := by
        rw [finish_of_noRect rect]
        constructor
        · rintro ⟨_, done⟩
          obtain ⟨drawn, rasterized, _⟩ := exists_of_bind_eq_ok done
          exact ⟨drawn, rasterized⟩
        · rintro ⟨drawn, rasterized⟩
          refine ⟨drawn.reset, ?_⟩
          rw [rasterized]
          rfl
      rw [ended, exists_rasterize_iff shown]
      simp only [forall_const]

theorem exists_of_fillRect {scanner drawn : Scanner} {rect : Rect} {color : Color}
    (filled : scanner.fillRect rect color = .ok drawn) :
    ∃ box touches scratch,
      drawn = { scanner with boundingBox := box, scratch := scratch : Scanner }.draw touches := by
  unfold fillRect at filled
  simp only at filled
  split at filled
  · cases filled
    exact ⟨none, [], scanner.scratch, rfl⟩
  · obtain ⟨touches, _, done⟩ := exists_of_bind_eq_ok filled
    cases done
    exact ⟨_, touches, _, rfl⟩

theorem exists_of_rasterize {scanner drawn : Scanner} (rasterized : scanner.rasterize = .ok drawn) :
    ∃ box cache touches scratch,
      drawn =
        { scanner with
          boundingBox := box
          cache := cache
          scratch := scratch : Scanner }.draw touches ∧
        cache.isSome = scanner.cache.isSome := by
  cases attached : scanner.cache with
  | some cache =>
      obtain ⟨scratch, recorded⟩ := exists_rasterize_of_cache attached
      rw [recorded] at rasterized
      cases rasterized
      exact ⟨_, some scanner.record, [], scratch, rfl, rfl⟩
  | none =>
      cases degenerate : scanner.paint.isDegenerate with
      | true =>
          rw [rasterize_of_isDegenerate attached degenerate] at rasterized
          cases rasterized
          refine ⟨none, none, [], scanner.scratch, ?_, rfl⟩
          rw [← attached]
          rfl
      | false =>
          obtain ⟨scratch, composited⟩ := exists_rasterize_of_detached attached degenerate
          rw [composited] at rasterized
          have sound : { scanner.boxed with scratch := scratch : Scanner }.paint.isDegenerate =
              false := degenerate
          obtain ⟨touches, _, drew⟩ := exists_of_foldlM_drawRow sound rasterized
          refine ⟨Sweep.boxOf scanner.coverageRows, none, touches.flatten, drawn.scratch, ?_, rfl⟩
          rw [drew, ← attached]
          rfl

/-- The end of a path draws and records; it leaves an idle scanner with the same settings. -/
theorem exists_of_finish {scanner next : Scanner} (finished : scanner.finish = .ok next) :
    ∃ box cache touches scratch,
      next =
        { scanner with
          surface := scanner.surface.draw touches
          boundingBox := box
          cache := cache
          edges := #[]
          subpath := none
          probe := .fresh
          scratch := scratch } ∧
        cache.isSome = scanner.cache.isSome := by
  have closedCache : scanner.closeSubpath.cache = scanner.cache := by
    rw [closeSubpath_eq]
  cases rect : scanner.closeSubpath.filledRect? with
  | some filled =>
      obtain ⟨drawn, done⟩ := scanner.closeSubpath.exists_fillRect filled.1 filled.2
      simp only [finish, rect, done] at finished
      obtain ⟨box, touches, scratch, rfl⟩ := exists_of_fillRect done
      cases finished
      refine ⟨box, scanner.cache, touches, scratch, ?_, rfl⟩
      rw [closeSubpath_eq]
      rfl
  | none =>
      rw [finish_of_noRect rect] at finished
      obtain ⟨drawn, rasterized, reset⟩ := exists_of_bind_eq_ok finished
      obtain ⟨box, cache, touches, scratch, rfl, kept⟩ := exists_of_rasterize rasterized
      cases reset
      refine ⟨box, cache, touches, scratch, ?_, kept.trans (congrArg Option.isSome closedCache)⟩
      rw [closeSubpath_eq]
      rfl

theorem idle_of_finish {scanner next : Scanner} (finished : scanner.finish = .ok next) :
    next.Idle := by
  obtain ⟨_, _, _, _, rfl, _⟩ := exists_of_finish finished
  exact ⟨rfl, rfl, rfl⟩

end Scanner

end Raster
