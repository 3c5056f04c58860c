import Raster.Proofs.Coverage.Layering
import Raster.Proofs.Scan.Confining

/-!
# Drawing in layers

Every touch of a path and of a replay has the opacity that its color has under the table of the
paint.  So the calls to a scanner put paint over its surface in layers, except for the clearing
of rectangles, which overwrites.
-/

namespace Raster.Scanner

/-- What the paint of the scanner may give to a row of pixels. -/
def Offers (scanner : Scanner) (source : RowSource) : Prop :=
  ∃ x y count, scanner.paint.rowSource x y count = .ok source

/-- Under every paint the colors of a row are drawn with the table that belongs to them. -/
theorem Offers.layers {scanner : Scanner} {source : RowSource} (offers : scanner.Offers source)
    (maxCoverage : Nat) : (scanner.target (scanner.alphas maxCoverage) source).Layers := by
  obtain ⟨x, y, count, offered⟩ := offers
  rw [alphas_eq]
  simp only [Paint.rowSource] at offered
  unfold target sourceAlpha
  cases solid : scanner.paint.solidColor? with
  | some color =>
      rw [solid] at offered
      cases offered
      exact RowTarget.layers_flat _ _ _ _
  | none =>
      rw [solid] at offered
      cases colored : scanner.paint.row? x y count with
      | none =>
          rw [colored] at offered
          cases offered
      | some colors =>
          rw [colored] at offered
          cases offered
          exact RowTarget.layers_perPixel _ _ _ _

/-- The touch of a pixel under the paint of the scanner. -/
def Paints (scanner : Scanner) (touch : Touch) : Prop :=
  ∃ maxCoverage source, scanner.Offers source ∧
    (scanner.target (scanner.alphas maxCoverage) source).Gives touch

theorem Paints.layers {scanner : Scanner} {touch : Touch} (paints : scanner.Paints touch) :
    touch.Layers := by
  obtain ⟨maxCoverage, source, offers, gives⟩ := paints
  exact RowTarget.Layers.touch (offers.layers maxCoverage) gives

/-- A paint of one color gives it to every pixel. -/
theorem Paints.argb_eq {scanner : Scanner} {color : Color}
    (solid : scanner.paint.solidColor? = some color) {touch : Touch}
    (paints : scanner.Paints touch) : touch.argb = color.argb := by
  obtain ⟨maxCoverage, source, ⟨x, y, count, offered⟩, coverage, opacity, pixels, _, colored, _⟩ :=
    paints
  simp only [Paint.rowSource, solid] at offered
  cases offered
  exact List.eq_of_mem_replicate colored

theorem solidColor?_of_filledRect? {scanner : Scanner} {rect : Rect} {color : Color}
    (filled : scanner.filledRect? = some (rect, color)) :
    scanner.paint.solidColor? = some color := by
  unfold filledRect? at filled
  split at filled
  · rename_i solid _
    cases filled
    exact solid
  · cases filled

theorem paints_of_mem_pathTouches {scanner : Scanner} {touch : Touch}
    (member : touch ∈ scanner.pathTouches) : scanner.Paints touch := by
  unfold pathTouches at member
  split at member
  · rename_i rect color filled
    obtain ⟨touches, listed, found⟩ := exists_of_mem_untilFault member
    have touched := (List.mem_singleton.mp listed).symm
    have solid := solidColor?_of_filledRect? filled
    refine ⟨scanner.grid.maxCoverage, .flat color.argb, ⟨0, 0, 0, ?_⟩, ?_⟩
    · simp only [Paint.rowSource, solid]
    · rw [alphas_eq]
      simp only [target, sourceAlpha, solid]
      exact CellRect.gives_of_mem_touches touched found
  · split at member
    · cases member
    · obtain ⟨touches, listed, found⟩ := exists_of_mem_untilFault member
      obtain ⟨row, _, answered⟩ := List.mem_map.mp listed
      obtain ⟨source, offered, touched⟩ := exists_of_bind_eq_ok answered
      exact ⟨_, source, ⟨_, _, _, offered⟩, CoverageRow.gives_of_mem_touches touched found⟩

theorem paints_of_mem_replayTouches {scanner : Scanner} {cache : CoverageCache} {touch : Touch}
    (member : touch ∈ scanner.replayTouches cache) : scanner.Paints touch := by
  unfold replayTouches at member
  split at member
  · cases member
  · obtain ⟨touches, listed, found⟩ := exists_of_mem_untilFault member
    obtain ⟨row, _, answered⟩ := List.mem_map.mp listed
    obtain ⟨source, offered, touched⟩ := exists_of_bind_eq_ok answered
    exact ⟨_, source, ⟨_, _, _, offered⟩, RunRow.gives_of_mem_touches touched found⟩

/-- A command touches pixels under the paint of the scanner.  Only the end of a path draws. -/
theorem exists_touches_of_step {scanner next : Scanner} {command : LineCommand}
    (stepped : scanner.step command = .ok next) :
    ∃ touches, (∀ touch ∈ touches, scanner.Paints touch) ∧
      next.surface = scanner.surface.draw touches := by
  by_cases unfinished : command = .finish
  · subst unfinished
    refine ⟨scanner.closeSubpath.pathTouches, ?_, surface_of_finish stepped⟩
    intro touch member
    have paints := paints_of_mem_pathTouches member
    rw [closeSubpath_eq] at paints
    exact paints
  · obtain ⟨_, _, _, path, _⟩ := (SamePath.refl scanner).step unfinished
    obtain rfl := Except.ok.inj (path.symm.trans stepped)
    exact ⟨[], nofun, rfl⟩

theorem exists_touches_of_replay {scanner drawn : Scanner} {cache : CoverageCache}
    (replayed : scanner.replay cache = .ok drawn) :
    ∃ touches, (∀ touch ∈ touches, scanner.Paints touch) ∧
      drawn.surface = scanner.surface.draw touches :=
  ⟨scanner.replayTouches cache, fun _ => paints_of_mem_replayTouches, surface_of_replay replayed⟩

theorem layered_step {scanner next : Scanner} {command : LineCommand}
    (stepped : scanner.step command = .ok next) : scanner.surface.Layered next.surface := by
  obtain ⟨touches, paints, same⟩ := exists_touches_of_step stepped
  rw [same]
  exact scanner.surface.layered_draw fun touch member => (paints touch member).layers

theorem layered_replay {scanner drawn : Scanner} {cache : CoverageCache}
    (replayed : scanner.replay cache = .ok drawn) :
    scanner.surface.Layered drawn.surface := by
  obtain ⟨touches, paints, same⟩ := exists_touches_of_replay replayed
  rw [same]
  exact scanner.surface.layered_draw fun touch member => (paints touch member).layers

/-- Whether a call overwrites pixels, instead of painting over them. -/
def Call.clears : Call → Bool
  | clearRect _ _ _ _ _ => true
  | _ => false

theorem layered_perform {scanner next : Scanner} {call : Call} (layers : call.clears = false)
    (performed : scanner.perform call = .ok next) :
    scanner.surface.Layered next.surface := by
  have unchanged := scanner.surface.layered_refl
  cases call with
  | setGrid lgX lgY =>
      cases performed
      exact unchanged
  | setRule rule =>
      cases performed
      exact unchanged
  | setClip clip =>
      cases performed
      exact unchanged
  | setPaint paint =>
      cases performed
      exact unchanged
  | setCache cache =>
      cases performed
      exact unchanged
  | send commands =>
      exact @send_keeps (fun next => scanner.surface.Layered next.surface)
        (fun layered stepped => layered.trans (layered_step stepped)) _ _ _ unchanged performed
  | clearRect x y width height color => cases layers
  | replay cache => exact layered_replay performed

theorem layered_performAll {scanner drawn : Scanner} {calls : List Call}
    (layers : ∀ call ∈ calls, call.clears = false)
    (performed : scanner.performAll calls = .ok drawn) :
    scanner.surface.Layered drawn.surface := by
  refine @foldlM_keeps _ _ _ (fun next => scanner.surface.Layered next.surface) _ ?_ _ _
    scanner.surface.layered_refl performed
  intro before after call member layered performed
  exact layered.trans (layered_perform (layers call member) performed)

/-- Paths and replays lose no opacity, whatever the layout of the surface.  With an alpha
channel, no pixel that can be read has less alpha afterward, so an opaque surface stays opaque;
without one, the alpha byte of an element that was changed is full.  Where the source is blended,
the denominator of the source-over rule is not zero. -/
theorem opacity_kept_by_drawing {scanner drawn : Scanner} {calls : List Call}
    (layers : ∀ call ∈ calls, call.clears = false)
    (performed : scanner.performAll calls = .ok drawn) :
    (scanner.surface.format = .argb8888 →
      (∀ x y before, scanner.surface.get? x y = some before →
        ∃ after, drawn.surface.get? x y = some after ∧
          Argb.alpha before ≤ Argb.alpha after) ∧
      (scanner.surface.Solid → drawn.surface.Solid)) ∧
    (scanner.surface.format = .rgb888 →
      ∀ (index before : Nat), scanner.surface.elements[index]? = some before →
        ∃ after, drawn.surface.elements[index]? = some after ∧
          (after = before ∨ Argb.alpha after = 255)) ∧
    ∀ target source opacity, opacity ≠ 0 → opacity < Alpha.full →
      PixelFormat.blendDenominator target opacity ≠ 0 ∧
        ∃ red green blue, PixelFormat.argb8888.composite target source opacity =
          Argb.pack (PixelFormat.blendDenominator target opacity / 256) red green blue := by
  have layered := layered_performAll layers performed
  refine ⟨?_, ?_, ?_⟩
  · intro translucent
    refine ⟨fun x y before read => layered.exists_get? translucent read, ?_⟩
    exact layered.solid translucent
  · intro withoutAlpha index before found
    have drawnOver := layered.exists_after found
    rw [withoutAlpha] at drawnOver
    exact drawnOver
  · intro target source opacity visible partly
    have nonzero := PixelFormat.blendDenominator_ne_zero visible target
    obtain ⟨red, green, blue, blended, _⟩ := PixelFormat.blendArgb_of_ne_zero nonzero source
    refine ⟨nonzero, red, green, blue, ?_⟩
    rw [← blended, PixelFormat.composite, if_neg visible, if_pos partly]
    rfl

/-- A triangle in a translucent color and a replay of two runs over it, on a pixel without alpha
and one with some. -/
theorem opacity_kept_by_drawing_translucent :
    let surface : Surface := ⟨.argb8888, 2, 1, .packed 2, #[0, 2164195328]⟩
    let calls : List Call :=
      [.setGrid 1 1, .setPaint (.solid ⟨40, 200, 0, 90⟩),
        .send [.moveTo ⟨0, 0⟩, .lineTo ⟨131072, 0⟩, .lineTo ⟨0, 65536⟩, .finish],
        .replay (CoverageCache.empty.record 4 [⟨0, 0, [1, 4]⟩] none)]
    ∃ drawn, (Scanner.new surface).performAll calls = .ok drawn ∧
      drawn.surface.elements ≠ surface.elements ∧
      ∀ x y before, surface.get? x y = some before →
        ∃ after, drawn.surface.get? x y = some after ∧ Argb.alpha before ≤ Argb.alpha after := by
  have draws : ((Scanner.new ⟨.argb8888, 2, 1, .packed 2, #[0, 2164195328]⟩).performAll
      [.setGrid 1 1, .setPaint (.solid ⟨40, 200, 0, 90⟩),
        .send [.moveTo ⟨0, 0⟩, .lineTo ⟨131072, 0⟩, .lineTo ⟨0, 65536⟩, .finish],
        .replay (CoverageCache.empty.record 4 [⟨0, 0, [1, 4]⟩] none)]).map
          (fun drawn => decide (drawn.surface.elements = #[0, 2164195328])) = .ok false := by
    decide +kernel
  obtain ⟨drawn, performed, different⟩ := exists_of_map_eq_ok draws
  have changed := of_decide_eq_false different
  exact ⟨drawn, performed, changed,
    ((opacity_kept_by_drawing (by decide) performed).1 rfl).1⟩

end Raster.Scanner
