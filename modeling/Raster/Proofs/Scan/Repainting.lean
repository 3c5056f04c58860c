import Raster.Proofs.Pixel.Repainting
import Raster.Proofs.Scan.Layering

/-!
# Drawing in the color that is there

While a scanner paints in one color, every touch of a path and of a replay has that color.  What one
touch keeps true of an element is therefore kept by all of them: without alpha the element keeps the
color if it has it, and with alpha its channels fade, though an opaque one by one level at most.
-/

namespace Raster

/-- What survives a touch in the color survives any number of them. -/
theorem Surface.holds_draw {surface : Surface} {argb index : Nat} {property : Nat → Prop}
    (survives : surface.format.Survives argb property) {touches : List Touch}
    (colored : ∀ touch ∈ touches, touch.Layers ∧ touch.argb = argb)
    (holds : ∀ element, surface.elements[index]? = some element → property element) :
    ∀ element, (surface.draw touches).elements[index]? = some element → property element := by
  induction touches generalizing surface with
  | nil => exact holds
  | cons touch rest inductionHypothesis =>
      rw [draw_cons]
      have survivesNext : (surface.touch touch).format.Survives argb property := survives
      refine inductionHypothesis survivesNext
        (fun other member => colored other (List.mem_cons_of_mem _ member)) ?_
      obtain ⟨layers, rfl⟩ := colored touch List.mem_cons_self
      intro element found
      rw [Surface.touch, Array.getElem?_modify] at found
      split at found
      · obtain ⟨before, there, rfl⟩ := Option.map_eq_some_iff.mp found
        exact survives before touch.opacity layers (holds before there)
      · exact holds element found

namespace Scanner

/-- Whether a call paints in the color only, if the paint before it does. -/
def Call.PaintsIn (color : Color) : Call → Prop
  | setPaint paint => paint.solidColor? = some color
  | clearRect _ _ _ _ _ => False
  | _ => True

theorem Call.PaintsIn.clears {color : Color} {call : Call} (paintsIn : call.PaintsIn color) :
    call.clears = false := by
  cases call with
  | clearRect x y width height color => exact absurd paintsIn id
  | _ => rfl

/-- The scanner paints in the color, and an element of its surface has the property. -/
structure Repaints (color : Color) (format : PixelFormat) (index : Nat) (property : Nat → Prop)
    (scanner : Scanner) : Prop where
  solid : scanner.paint.solidColor? = some color
  format_eq : scanner.surface.format = format
  holds : ∀ element, scanner.surface.elements[index]? = some element → property element

section Repaints

variable {color : Color} {format : PixelFormat} {index : Nat} {property : Nat → Prop}
  {scanner next : Scanner}

/-- Touches under the paint of the scanner keep what survives its color. -/
theorem Repaints.draw (repaints : scanner.Repaints color format index property)
    (survives : format.Survives color.argb property) {touches : List Touch}
    (paints : ∀ touch ∈ touches, scanner.Paints touch)
    (drawn : next.surface = scanner.surface.draw touches) (paint : next.paint = scanner.paint)
    (layered : scanner.surface.Layered next.surface) :
    next.Repaints color format index property := by
  obtain ⟨solid, rfl, holds⟩ := repaints
  refine ⟨paint ▸ solid, layered.format, ?_⟩
  rw [drawn]
  exact Surface.holds_draw survives
    (fun touch member => ⟨(paints touch member).layers, (paints touch member).argb_eq solid⟩) holds

theorem Repaints.step (repaints : scanner.Repaints color format index property)
    (survives : format.Survives color.argb property) {command : LineCommand}
    (stepped : scanner.step command = .ok next) : next.Repaints color format index property := by
  obtain ⟨touches, paints, drawn⟩ := exists_touches_of_step stepped
  have paint : next.paint = scanner.paint := by
    obtain ⟨_, _, _, _, _, _, _, rfl, _⟩ := exists_of_step stepped
    rfl
  exact repaints.draw survives paints drawn paint (layered_step stepped)

theorem Repaints.replay (repaints : scanner.Repaints color format index property)
    (survives : format.Survives color.argb property) {cache : CoverageCache}
    (replayed : scanner.replay cache = .ok next) : next.Repaints color format index property := by
  obtain ⟨touches, paints, drawn⟩ := exists_touches_of_replay replayed
  have paint : next.paint = scanner.paint := by
    obtain ⟨_, _, _, rfl⟩ := exists_of_replay replayed
    rfl
  exact repaints.draw survives paints drawn paint (layered_replay replayed)

theorem Repaints.perform (repaints : scanner.Repaints color format index property)
    (survives : format.Survives color.argb property) {call : Call} (paintsIn : call.PaintsIn color)
    (performed : scanner.perform call = .ok next) :
    next.Repaints color format index property := by
  obtain ⟨solid, format_eq, holds⟩ := repaints
  cases call with
  | setGrid lgX lgY =>
      cases performed
      exact ⟨solid, format_eq, holds⟩
  | setRule rule =>
      cases performed
      exact ⟨solid, format_eq, holds⟩
  | setClip clip =>
      cases performed
      exact ⟨solid, format_eq, holds⟩
  | setPaint paint =>
      cases performed
      exact ⟨paintsIn, format_eq, holds⟩
  | setCache cache =>
      cases performed
      exact ⟨solid, format_eq, holds⟩
  | send commands =>
      exact @send_keeps (Repaints color format index property)
        (fun repaints stepped => repaints.step survives stepped) _ _ _ ⟨solid, format_eq, holds⟩
        performed
  | clearRect x y width height color => exact absurd paintsIn id
  | replay cache => exact Repaints.replay ⟨solid, format_eq, holds⟩ survives performed

theorem Repaints.performAll (repaints : scanner.Repaints color format index property)
    (survives : format.Survives color.argb property) {calls : List Call}
    (paintsIn : ∀ call ∈ calls, call.PaintsIn color)
    (performed : scanner.performAll calls = .ok next) :
    next.Repaints color format index property := by
  refine @foldlM_keeps _ _ _ (Repaints color format index property) _ ?_ _ _ repaints performed
  intro before after call member repaints performed
  exact repaints.perform survives (paintsIn call member) performed

/-- Paths and replays in one color take it from no element that has it, unless the format has alpha.
There the source-over rule takes one level from each color channel above zero, unless the reciprocal
of its denominator is exact.  No number of paths and replays brings a channel above that of the
color, nor a channel of an opaque element further down than that one level. -/
theorem repainting_fades_only_with_alpha {drawn : Scanner}
    (solid : scanner.paint.solidColor? = some color) {calls : List Call}
    (paintsIn : ∀ call ∈ calls, call.PaintsIn color)
    (performed : scanner.performAll calls = .ok drawn) :
    (∀ index before : Nat, scanner.surface.elements[index]? = some before →
      scanner.surface.format.HasColor before color.argb →
      ∃ after, drawn.surface.elements[index]? = some after ∧
        (scanner.surface.format ≠ .argb8888 →
          before < Nat.pow 2 scanner.surface.format.bits →
          scanner.surface.format.HasColor after color.argb) ∧
        (scanner.surface.format = .argb8888 →
          (∀ channel : Channel, channel ≠ .alpha →
            channel.ofWord after ≤ channel.ofWord color.argb) ∧
          (Argb.alpha before = 255 → Argb.alpha after = 255 ∧
            ∀ channel : Channel, channel ≠ .alpha →
              channel.ofWord color.argb ≤ channel.ofWord after + 1))) ∧
    ∀ (format : PixelFormat) (target argb opacity : Nat), 1 ≤ opacity → opacity ≤ 255 →
      format.HasColor target argb →
      (format ≠ .argb8888 → target < Nat.pow 2 format.bits →
        format.HasColor (format.blend target (format.encode argb) opacity) argb) ∧
      (format = .argb8888 → ∀ channel : Channel, channel ≠ .alpha →
        channel.ofWord (format.blend target (format.encode argb) opacity) =
          if channel.ofWord argb = 0 ∨
              PixelFormat.blendDenominator target opacity ∣ 16777216 then
            channel.ofWord argb
          else
            channel.ofWord argb - 1) := by
  constructor
  · intro index before found has
    have layered := layered_performAll (fun call member => (paintsIn call member).clears) performed
    obtain ⟨after, there, _⟩ := layered.exists_after found
    have run {property : Nat → Prop}
        (survives : scanner.surface.format.Survives color.argb property)
        (holds : property before) : property after := by
      have repaints : scanner.Repaints color scanner.surface.format index property := by
        refine ⟨solid, rfl, ?_⟩
        intro element same
        exact Option.some.inj (found.symm.trans same) ▸ holds
      exact (repaints.performAll survives paintsIn performed).holds after there
    refine ⟨after, there, ?_, ?_⟩
    · intro noAlpha fits
      exact (run (PixelFormat.survives_hasColor noAlpha color.argb) ⟨fits, has⟩).2
    · intro translucent
      rw [translucent] at has run
      have same := PixelFormat.hasColor_argb8888_iff.mp has
      have faded : PixelFormat.Faded color.argb before := fun channel isColor =>
        (same channel isColor).le
      refine ⟨run (PixelFormat.survives_faded color.argb) faded, ?_⟩
      intro opaqueBefore
      have once : PixelFormat.FadedOnce color.argb before :=
        ⟨opaqueBefore, faded, fun channel isColor =>
          (same channel isColor).ge.trans (Nat.le_succ _)⟩
      obtain ⟨opaqueAfter, _, near⟩ := run (PixelFormat.survives_fadedOnce color.argb) once
      exact ⟨opaqueAfter, near⟩
  · intro format target argb opacity visible partly has
    constructor
    · intro noAlpha fits
      rw [PixelFormat.blend_of_hasColor noAlpha fits has (Nat.le_succ_of_le partly)]
      exact format.hasColor_encode argb
    · rintro rfl channel isColor
      exact PixelFormat.ofWord_blendArgb_of_eq visible partly isColor
        (PixelFormat.hasColor_argb8888_iff.mp has channel isColor)

/-- A white triangle and a replay of two runs over opaque white.  The pixel that is never covered
completely has lost one level, the other one is white again. -/
theorem repainting_fades_only_with_alpha_white :
    let white : Color := ⟨255, 255, 255, 255⟩
    let scanner := (Scanner.new ⟨.argb8888, 2, 1, .packed 2, #[4294967295, 4294967295]⟩).setPaint
      (.solid white)
    let calls : List Call :=
      [.setGrid 1 1, .send [.moveTo ⟨0, 0⟩, .lineTo ⟨131072, 0⟩, .lineTo ⟨0, 65536⟩, .finish],
        .replay (CoverageCache.empty.record 4 [⟨0, 0, [1, 4]⟩] none)]
    ∃ drawn, scanner.performAll calls = .ok drawn ∧
      drawn.surface.elements = #[4294901502, 4294967295] ∧
      ∃ after, drawn.surface.elements[0]? = some after ∧ Argb.alpha after = 255 ∧
        ∀ channel : Channel, channel ≠ .alpha →
          channel.ofWord white.argb ≤ channel.ofWord after + 1 := by
  intro white scanner calls
  have run : (scanner.performAll calls).map (fun drawn => drawn.surface.elements) =
      .ok #[4294901502, 4294967295] := by
    decide +kernel
  obtain ⟨drawn, performed, elements⟩ := exists_of_map_eq_ok run
  have paintsIn : ∀ call ∈ calls, call.PaintsIn white := by
    simp [calls, Call.PaintsIn]
  have solid : scanner.paint.solidColor? = some white := rfl
  obtain ⟨drawnOver, _⟩ := repainting_fades_only_with_alpha solid paintsIn performed
  obtain ⟨after, there, _, translucent⟩ := drawnOver 0 4294967295 rfl (by decide)
  exact ⟨drawn, performed, elements, after, there, (translucent rfl).2 (by decide)⟩

end Repaints

end Scanner

end Raster
