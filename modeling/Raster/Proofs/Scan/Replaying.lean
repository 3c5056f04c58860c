import Raster.Proofs.Scan.Rectangle

/-!
# Replaying recorded paths

A scanner with a cache records the rows that a scanner without one would composite.
Replaying them draws what the path would have drawn directly, even where the direct way is
to fill a rectangle, since that draws the same rows.
-/

namespace Raster.Scanner

theorem send_append (scanner : Scanner) (first second : List LineCommand) :
    scanner.send (first ++ second) = (scanner.send first >>= fun sent => sent.send second) :=
  List.foldlM_append

theorem send_finish {scanner received : Scanner} {commands : List LineCommand}
    (sent : scanner.send commands = .ok received) :
    scanner.send (commands ++ [.finish]) = received.finish := by
  rw [send_append, sent]
  exact bind_pure received.finish

/-- Without a cache the end of a path rasterizes it, even if it is a rectangle to be filled. -/
theorem Probes.map_bare_finish {scanner : Scanner} (ready : scanner.Ready)
    (probes : scanner.Probes) (detached : scanner.cache = none) :
    scanner.finish.map bare =
      (scanner.closeSubpath.rasterize.map bare).map fun drawn => drawn.reset := by
  obtain ⟨edges, closed⟩ := scanner.exists_closeSubpath_eq
  have closedPath : scanner.closeSubpath.cache = scanner.cache ∧
      scanner.closeSubpath.paint = scanner.paint ∧
      scanner.closeSubpath.probe = scanner.probe := by
    rw [closed]
    exact ⟨rfl, rfl, rfl⟩
  obtain ⟨cache, paint, probe⟩ := closedPath
  cases solid : scanner.paint.solidColor? with
  | none =>
      rw [map_bare_finish_of_noRect]
      simp only [filledRect?, cache, detached, paint, solid]
  | some color =>
      cases found : scanner.probe.rect? with
      | none =>
          rw [map_bare_finish_of_noRect]
          simp only [filledRect?, cache, detached, paint, solid, probe, found]
      | some rect =>
          have filled : scanner.closeSubpath.filledRect? = some (rect, color) := by
            simp only [filledRect?, cache, detached, paint, solid, probe, found]
          rw [← probes.map_bare_fillRect ready detached solid found]
          simp only [finish, filled]
          cases scanner.closeSubpath.fillRect rect color <;> rfl

/-- Every player of the cache draws what the first scanner has drawn to become the second one. -/
def Replays (cache : CoverageCache) (scanner drawn : Scanner) : Prop :=
  ∀ player : Scanner, player.surface = scanner.surface → player.paint = scanner.paint →
    ∃ replayed, player.replay cache = .ok replayed ∧ replayed.surface = drawn.surface ∧
      (scanner.paint.isDegenerate = false → replayed.boundingBox = drawn.boundingBox)

/-- Replaying rows draws what compositing them draws. -/
theorem replays_of_foldlM {scanner drawn : Scanner} {cache : CoverageCache}
    {rows : List CoverageRow} (valid : cache.isValid = true)
    (recorded : cache.rows = rows.map CoverageRow.encoded)
    (box : cache.boundingBox = scanner.boundingBox) (shown : ∀ row ∈ rows, scanner.Shows row)
    (sound : scanner.paint.isDegenerate = false)
    (composited : rows.foldlM (drawRow (scanner.alphas cache.maxCoverage)) scanner = .ok drawn) :
    Replays cache scanner drawn := by
  intro player surface paint
  let remembering := player.remember cache.maxCoverage player.sourceAlpha
  have counted := lt_size_of_foldlM_drawRow sound shown composited
  have table : player.alphas cache.maxCoverage = scanner.alphas cache.maxCoverage :=
    alphas_congr paint cache.maxCoverage
  have playerSound : remembering.paint.isDegenerate = false := by
    rw [← sound, ← paint]
    rfl
  have playerShown : ∀ row ∈ rows, remembering.Shows row := fun row member =>
    (shown row member).congr (congrArg Surface.width surface) (congrArg Surface.height surface)
  obtain ⟨touches, _, drew⟩ := exists_of_foldlM_drawRow sound composited
  obtain ⟨scratch, direct⟩ :=
    @exists_foldlM_drawRow_congr _ remembering surface paint sound _ _ _ composited
  have runs := foldlM_drawRuns_encoded playerSound playerShown
    fun row member => (counted row member).2
  rw [direct] at runs
  have replayed : player.replay cache =
      .ok
        { remembering with
          surface := drawn.surface
          boundingBox := cache.boundingBox
          scratch := scratch } := by
    simp only [replay, valid, paint, sound, table, recorded, Bool.not_true, Bool.or_self,
      Bool.false_eq_true, if_false]
    rw [runs]
    rfl
  refine ⟨_, replayed, rfl, fun _ => ?_⟩
  rw [drew]
  exact box

/-- Under a degenerate paint nothing is drawn and nothing is replayed. -/
theorem replays_of_isDegenerate {scanner drawn : Scanner} (cache : CoverageCache)
    (degenerate : scanner.paint.isDegenerate = true) (same : drawn.surface = scanner.surface) :
    Replays cache scanner drawn := by
  intro player surface paint
  refine ⟨player, ?_, ?_, ?_⟩
  · exact replay_of_isDegenerate (.inr (paint ▸ degenerate))
  · rw [surface, same]
  · intro sound
    rw [degenerate] at sound
    cases sound

/-- The record of a path replays what rasterizing the path draws. -/
theorem replays_record {scanner drawn : Scanner} (detached : scanner.cache = none)
    (shown : ∀ row ∈ scanner.coverageRows, scanner.Shows row)
    (rasterized : scanner.rasterize = .ok drawn) : Replays scanner.record scanner drawn := by
  cases degenerate : scanner.paint.isDegenerate with
  | true =>
      rw [rasterize_of_isDegenerate detached degenerate] at rasterized
      cases rasterized
      exact replays_of_isDegenerate _ degenerate rfl
  | false =>
      obtain ⟨scratch, composited⟩ := exists_rasterize_of_detached detached degenerate
      have table : scanner.alphas scanner.grid.maxCoverage =
          { scanner.boxed with scratch := scratch : Scanner }.alphas
            scanner.record.maxCoverage := by
        rw [record, CoverageCache.maxCoverage_record]
        apply alphas_congr
        rfl
      rw [composited, table] at rasterized
      have sound : { scanner.boxed with scratch := scratch : Scanner }.paint.isDegenerate = false :=
        degenerate
      have shownBoxed : ∀ row ∈ scanner.coverageRows,
          { scanner.boxed with scratch := scratch : Scanner }.Shows row := shown
      have replays : Replays scanner.record { scanner.boxed with scratch := scratch } drawn :=
        replays_of_foldlM rfl (CoverageCache.rows_record _ _ _ _) rfl shownBoxed sound rasterized
      exact replays

/-- Between paths a scanner with a cache records every path without a fault and without
drawing.  Its record replays what a scanner without a cache draws for the same samples,
unless that is a fault. -/
theorem Idle.exists_recorded {recorder : Scanner} (idle : recorder.Idle) {cache : CoverageCache}
    (attached : recorder.cache = some cache) {commands : List LineCommand}
    (unfinished : .finish ∉ commands) :
    ∃ recorded kept, recorder.send (commands ++ [.finish]) = .ok recorded ∧
      recorded.surface = recorder.surface ∧ recorded.cache = some kept ∧ kept.isValid = true ∧
      ∀ direct drawn : Scanner, direct.Ready → direct.Idle → direct.cache = none →
        direct.frame = recorder.frame → direct.send (commands ++ [.finish]) = .ok drawn →
          Replays kept direct drawn := by
  obtain ⟨received, edges, probe, sent, closed, traced⟩ := idle.exists_received unfinished
  have closedCache : received.closeSubpath.cache = some cache := by
    rw [closed]
    exact attached
  obtain ⟨scratch, finished⟩ := exists_finish_of_cache closedCache
  refine ⟨_, _, (send_finish sent).trans finished, ?_, rfl, rfl, ?_⟩
  · rw [closed]
    rfl
  · intro direct drawn ready directIdle detached sameFrame drawnDirect
    obtain ⟨received', edges', probe', sent', closed', traced'⟩ :=
      directIdle.exists_received unfinished
    have grid : direct.grid = recorder.grid := congrArg ScanFrame.grid sameFrame
    have clip : direct.clip = recorder.clip := congrArg ScanFrame.clip sameFrame
    obtain rfl : edges' = edges := by
      rw [← Array.toList_inj, traced', traced, grid, clip]
    have noCache := cache_of_send detached sent'
    have ended := (directIdle.probes.send sent').map_bare_finish (ready.send sent') noCache
    rw [← send_finish sent', drawnDirect, closed'] at ended
    have sameRecord : (direct.withPath edges' none probe').record =
        (recorder.withPath edges' none probe).record := by
      change CoverageCache.empty.record direct.grid.maxCoverage
          (Sweep.coverageRows direct.frame edges'.toList)
          (Sweep.boxOf (Sweep.coverageRows direct.frame edges'.toList)) =
        CoverageCache.empty.record recorder.grid.maxCoverage
          (Sweep.coverageRows recorder.frame edges'.toList)
          (Sweep.boxOf (Sweep.coverageRows recorder.frame edges'.toList))
      rw [sameFrame, grid]
    have shown : ∀ row ∈ (direct.withPath edges' none probe').coverageRows,
        (direct.withPath edges' none probe').Shows row := by
      intro row member
      change row ∈ Sweep.coverageRows direct.frame edges'.toList at member
      rw [traced'] at member
      exact ready.shows member
    have pathDetached : (direct.withPath edges' none probe').cache = none := detached
    rw [closed]
    obtain ⟨next, rasterized, same⟩ := exists_of_map_eq_ok ended.symm
    obtain ⟨swept, done, bareSwept⟩ := exists_of_map_eq_ok rasterized
    have replays := replays_record pathDetached shown done
    rw [sameRecord] at replays
    intro player surface paint
    obtain ⟨replayed, answer, drewSame, boxSame⟩ := replays player surface paint
    subst bareSwept
    exact ⟨replayed, answer, drewSame.trans (congrArg Scanner.surface same :),
      fun sound => (boxSame sound).trans (congrArg Scanner.boundingBox same :)⟩

end Raster.Scanner
