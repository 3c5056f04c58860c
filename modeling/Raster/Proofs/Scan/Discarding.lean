import Raster.Proofs.Scan.Finishing
import Raster.Scan.Call

/-!
# Discarding scratch data

A scanner may lose what it keeps of its drawings at any time: whatever it is told to do afterward,
it has the same faults and draws the same, and what it leaves differs in nothing else.
-/

namespace Raster.Scanner

/-- The same function of scanners that are equal but for what they keep, if it depends on
nothing else. -/
theorem map_bare_congr (answer : Scanner → Except Fault Scanner)
    (discards : ∀ scanner, (answer scanner.bare).map bare = (answer scanner).map bare)
    {first second : Scanner} (same : first.bare = second.bare) :
    (answer first).map bare = (answer second).map bare := by
  rw [← discards first, same, discards second]

/-- Answers that are equal but for what they keep are followed by the same, if what follows depends
on nothing else. -/
theorem bind_congr_of_bare {β : Type} {first second : Except Fault Scanner}
    {next : Scanner → Except Fault β} (same : first.map bare = second.map bare)
    (discards : ∀ {before after : Scanner}, before.bare = after.bare → next before = next after) :
    first >>= next = second >>= next := by
  cases second with
  | error fault => rw [eq_error_of_map_eq_error same]
  | ok after =>
      obtain ⟨before, rfl, alike⟩ := exists_of_map_eq_ok same
      exact discards alike

theorem map_congr_of_bare {β : Type} {first second : Except Fault Scanner} {f g : Scanner → β}
    (same : first.map bare = second.map bare)
    (discards : ∀ {before after : Scanner}, before.bare = after.bare → f before = g after) :
    first.map f = second.map g := by
  cases second with
  | error fault =>
      rw [eq_error_of_map_eq_error same]
      rfl
  | ok after =>
      obtain ⟨before, rfl, alike⟩ := exists_of_map_eq_ok same
      exact congrArg Except.ok (discards alike)

theorem map_bare_bind_congr {first second : Except Fault Scanner}
    {next : Scanner → Except Fault Scanner} (same : first.map bare = second.map bare)
    (discards : ∀ {before after : Scanner}, before.bare = after.bare →
      (next before).map bare = (next after).map bare) :
    (first >>= next).map bare = (second >>= next).map bare := by
  have mapped : ∀ answer : Except Fault Scanner,
      (answer >>= next).map bare = answer >>= fun scanner => (next scanner).map bare := by
    intro answer
    cases answer <;> rfl
  rw [mapped, mapped]
  exact bind_congr_of_bare same discards

theorem closeSubpath_bare (scanner : Scanner) :
    scanner.bare.closeSubpath = scanner.closeSubpath.bare := by
  rw [closeSubpath_eq, closeSubpath_eq]
  rfl

/-! ## The end of a path -/

theorem map_bare_rasterize_bare (scanner : Scanner) :
    scanner.bare.rasterize.map bare = scanner.rasterize.map bare := by
  cases attached : scanner.cache with
  | some cache =>
      have kept : scanner.bare.cache = some cache := attached
      obtain ⟨_, recorded⟩ := exists_rasterize_of_cache attached
      obtain ⟨_, recordedBare⟩ := exists_rasterize_of_cache kept
      rw [recorded, recordedBare]
      rfl
  | none =>
      have detached : scanner.bare.cache = none := attached
      cases degenerate : scanner.paint.isDegenerate with
      | true =>
          have degenerateBare : scanner.bare.paint.isDegenerate = true := degenerate
          rw [rasterize_of_isDegenerate attached degenerate,
            rasterize_of_isDegenerate detached degenerateBare]
          rfl
      | false =>
          have soundBare : scanner.bare.paint.isDegenerate = false := degenerate
          have table : scanner.bare.alphas scanner.bare.grid.maxCoverage =
              scanner.alphas scanner.grid.maxCoverage := by
            apply alphas_congr
            rfl
          rw [map_bare_rasterize attached degenerate, map_bare_rasterize detached soundBare, table]
          rfl

/-- What filling a rectangle draws. -/
theorem map_bare_fillRect (rect : Rect) (color : Color) (scanner : Scanner) :
    (scanner.fillRect rect color).map bare =
      let cells := CellRect.ofRect scanner.grid scanner.clip rect
      if cells.isEmpty then
        .ok { scanner with boundingBox := none : Scanner }.bare
      else
        (cells.touches scanner.grid scanner.surface.width scanner.surface.height
          (Alpha.table scanner.grid.maxCoverage color.alpha.toNat) color.argb).map fun touches =>
            ({ scanner with boundingBox := some (cells.box scanner.grid) }.draw touches).bare := by
  simp only [fillRect, alphaTable_eq]
  split
  · rfl
  · cases (CellRect.ofRect scanner.grid scanner.clip rect).touches scanner.grid
      scanner.surface.width scanner.surface.height
      (Alpha.table scanner.grid.maxCoverage color.alpha.toNat) color.argb <;> rfl

theorem map_bare_fillRect_bare (rect : Rect) (color : Color) (scanner : Scanner) :
    (scanner.bare.fillRect rect color).map bare = (scanner.fillRect rect color).map bare := by
  rw [map_bare_fillRect, map_bare_fillRect]
  rfl

theorem map_bare_finish_bare (scanner : Scanner) :
    scanner.bare.finish.map bare = scanner.finish.map bare := by
  have found : scanner.bare.closeSubpath.filledRect? = scanner.closeSubpath.filledRect? := by
    rw [closeSubpath_bare]
    rfl
  cases rect : scanner.closeSubpath.filledRect? with
  | none =>
      rw [map_bare_finish_of_noRect rect, map_bare_finish_of_noRect (found.trans rect),
        closeSubpath_bare, map_bare_rasterize_bare]
  | some filled =>
      have drawn := map_bare_fillRect_bare filled.1 filled.2 scanner.closeSubpath
      rw [map_bare_finish_of_rect rect, map_bare_finish_of_rect (found.trans rect),
        closeSubpath_bare, drawn]

/-! ## All that a scanner can be told -/

theorem map_bare_step_bare (command : LineCommand) (scanner : Scanner) :
    (scanner.bare.step command).map bare = (scanner.step command).map bare := by
  by_cases ends : command = .finish
  · subst ends
    exact map_bare_finish_bare scanner
  · have same : scanner.bare.SamePath scanner := ⟨rfl, rfl, rfl, rfl, rfl⟩
    obtain ⟨edges, subpath, probe, steppedBare, stepped⟩ := same.step ends
    rw [steppedBare, stepped]
    rfl

/-- What holds for each of several steps holds for all of them. -/
theorem map_bare_foldlM_bare {ι : Type} {answer : Scanner → ι → Except Fault Scanner}
    (discards : ∀ input scanner,
      (answer scanner.bare input).map bare = (answer scanner input).map bare)
    (inputs : List ι) (scanner : Scanner) :
    (inputs.foldlM answer scanner.bare).map bare = (inputs.foldlM answer scanner).map bare := by
  induction inputs generalizing scanner with
  | nil => rfl
  | cons input rest inductionHypothesis =>
      rw [List.foldlM_cons, List.foldlM_cons]
      exact map_bare_bind_congr (discards input scanner)
        (map_bare_congr (fun before => rest.foldlM answer before) inductionHypothesis)

theorem map_bare_send_bare (commands : List LineCommand) (scanner : Scanner) :
    (scanner.bare.send commands).map bare = (scanner.send commands).map bare :=
  map_bare_foldlM_bare map_bare_step_bare commands scanner

theorem map_bare_replay_bare (cache : CoverageCache) (scanner : Scanner) :
    (scanner.bare.replay cache).map bare = (scanner.replay cache).map bare := by
  by_cases idle : cache.isValid = false ∨ scanner.paint.isDegenerate = true
  · have idleBare : cache.isValid = false ∨ scanner.bare.paint.isDegenerate = true := idle
    rw [replay_of_isDegenerate idle, replay_of_isDegenerate idleBare]
    rfl
  · obtain ⟨notInvalid, notDegenerate⟩ := not_or.mp idle
    have valid : cache.isValid = true := Bool.not_eq_false _ ▸ notInvalid
    have sound : scanner.paint.isDegenerate = false := Bool.not_eq_true _ ▸ notDegenerate
    have soundBare : scanner.bare.paint.isDegenerate = false := sound
    have table : scanner.bare.alphas cache.maxCoverage = scanner.alphas cache.maxCoverage := by
      apply alphas_congr
      rfl
    rw [map_bare_replay valid sound, map_bare_replay valid soundBare, table]
    rfl

theorem map_bare_perform_bare (call : Call) (scanner : Scanner) :
    (scanner.bare.perform call).map bare = (scanner.perform call).map bare := by
  cases call with
  | setGrid lgX lgY => rfl
  | setRule rule => rfl
  | setClip clip => rfl
  | setPaint paint => rfl
  | setCache cache => rfl
  | send commands => exact map_bare_send_bare commands scanner
  | clearRect x y width height color =>
      simp only [perform, clearRect]
      cases meets : (PixelBox.ofSize x y (max width 0) (max height 0)).intersection?
          scanner.clip with
      | none =>
          simp only [bare, meets]
          rfl
      | some box =>
          simp only [bare, meets]
          rfl
  | replay cache => exact map_bare_replay_bare cache scanner

theorem map_bare_performAll_bare (calls : List Call) (scanner : Scanner) :
    (scanner.bare.performAll calls).map bare = (scanner.performAll calls).map bare :=
  map_bare_foldlM_bare map_bare_perform_bare calls scanner

/-- Scanners that are equal but for what they keep answer every command alike. -/
theorem map_bare_send_congr {first second : Scanner} (same : first.bare = second.bare)
    (commands : List LineCommand) :
    (first.send commands).map bare = (second.send commands).map bare :=
  map_bare_congr (fun scanner => scanner.send commands) (map_bare_send_bare commands) same

/-- Scanners that are equal but for what they keep replay every cache alike. -/
theorem map_bare_replay_congr {first second : Scanner} (same : first.bare = second.bare)
    (cache : CoverageCache) : (first.replay cache).map bare = (second.replay cache).map bare :=
  map_bare_congr (fun scanner => scanner.replay cache) (map_bare_replay_bare cache) same

/-- Scanners that are equal but for what they keep answer all calls alike. -/
theorem map_bare_performAll_congr {first second : Scanner} (same : first.bare = second.bare)
    (calls : List Call) :
    (first.performAll calls).map bare = (second.performAll calls).map bare :=
  map_bare_congr (fun scanner => scanner.performAll calls) (map_bare_performAll_bare calls) same

end Raster.Scanner
