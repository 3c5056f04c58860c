import Raster.Proofs.Coverage.Touching
import Raster.Scan.RectFill

/-!
# Layers of paint

The opacity of a touch is full only where the pixel is covered completely and the source is
opaque, so that a stored color is opaque.  Every other touch is blended.  Neither lowers the
alpha of an element, and an element without alpha gets the alpha of an opaque color.
-/

namespace Raster

/-! ## Opacities -/

namespace Argb

theorem alpha_le (word : Nat) : alpha word ≤ 255 := by
  unfold alpha
  omega

end Argb

namespace Alpha

/-- The opacity that a source of some alpha has is in range, and full only for an opaque one. -/
structure Bounds (sourceAlpha opacity : Nat) : Prop where
  opacity_le : opacity ≤ full
  alpha_eq : opacity = full → sourceAlpha = 255

/-- The rounded quotient stays below a bound that the exact one keeps a half below. -/
theorem ofCoverage_lt {most sourceAlpha coverage top bound : Nat} (positive : 0 < most)
    (alphaLe : sourceAlpha ≤ top) (coverageLe : coverage ≤ most)
    (below : 256 * top + 128 ≤ 255 * bound) :
    ofCoverage most sourceAlpha coverage < bound := by
  have product : coverage * sourceAlpha ≤ most * top := Nat.mul_le_mul coverageLe alphaLe
  have scaled : most * (256 * top + 128) ≤ most * (255 * bound) := Nat.mul_le_mul_left most below
  have regrouped : most * (255 * bound) = bound * (most * 255) := by
    rw [← Nat.mul_assoc, Nat.mul_comm]
  unfold ofCoverage full
  change (_ + most * 255 / 2) / (most * 255) < bound
  rw [Nat.div_lt_iff_lt_mul (Nat.mul_pos positive (by decide)), ← regrouped]
  refine Nat.lt_of_lt_of_le ?_ scaled
  rw [Nat.mul_add, Nat.mul_left_comm]
  omega

theorem bounds_ofCoverage {most sourceAlpha coverage : Nat} (positive : 0 < most)
    (alphaLe : sourceAlpha ≤ 255) (coverageLe : coverage ≤ most) :
    Bounds sourceAlpha (ofCoverage most sourceAlpha coverage) := by
  constructor
  · exact Nat.le_of_lt_succ (ofCoverage_lt positive alphaLe coverageLe (by decide))
  · intro isFull
    rcases Nat.lt_or_ge sourceAlpha 255 with translucent | solid
    · exact absurd isFull (Nat.ne_of_lt
        (ofCoverage_lt positive (Nat.le_of_lt_succ translucent) coverageLe (by decide)))
    · exact Nat.le_antisymm alphaLe solid

theorem bounds_modulate {opacity paintAlpha : Nat} (opacityLe : opacity ≤ full)
    (alphaLe : paintAlpha ≤ 255) : Bounds paintAlpha (modulate opacity paintAlpha) := by
  have atMost : ∀ {top}, paintAlpha ≤ top → opacity * paintAlpha ≤ 256 * top :=
    fun below => Nat.mul_le_mul opacityLe below
  constructor
  · have product := atMost alphaLe
    unfold modulate full
    omega
  · intro isFull
    unfold modulate full at isFull
    rcases Nat.lt_or_ge paintAlpha 255 with translucent | solid
    · have product := atMost (Nat.le_of_lt_succ translucent)
      omega
    · exact Nat.le_antisymm alphaLe solid

/-- What a table answers is in range. -/
theorem bounds_of_lookup {maxCoverage sourceAlpha coverage opacity : Nat}
    (alphaLe : sourceAlpha ≤ 255)
    (found : lookup (table maxCoverage sourceAlpha) coverage = .ok opacity) :
    Bounds sourceAlpha opacity := by
  have inTable : coverage ≤ max maxCoverage 1 := by
    have below := lookup_eq_ok_iff.mp ⟨opacity, found⟩
    rw [size_table] at below
    omega
  rw [lookup_table inTable] at found
  obtain rfl := Except.ok.inj found
  exact bounds_ofCoverage (by omega) alphaLe inTable

end Alpha

/-- A touch whose color is opaque if it is stored. -/
def Touch.Layers (touch : Touch) : Prop :=
  Alpha.Bounds (Argb.alpha touch.argb) touch.opacity

namespace RowTarget

/-- The touch of a pixel in a row: its color is one of the row, and its opacity is the one that some
coverage has in the table. -/
def Gives (target : RowTarget) (touch : Touch) : Prop :=
  ∃ coverage opacity count, Alpha.lookup target.alphas coverage = .ok opacity ∧
    touch.argb ∈ target.source.colors count ∧
    touch.opacity = target.source.opacity opacity touch.argb

/-- All touches of the target layer their colors. -/
def Layers (target : RowTarget) : Prop :=
  ∀ {coverage opacity count argb : Nat}, Alpha.lookup target.alphas coverage = .ok opacity →
    argb ∈ target.source.colors count →
      Alpha.Bounds (Argb.alpha argb) (target.source.opacity opacity argb)

theorem Layers.touch {target : RowTarget} (layers : target.Layers) {touch : Touch}
    (gives : target.Gives touch) : touch.Layers := by
  obtain ⟨coverage, opacity, count, found, colored, same⟩ := gives
  rw [Touch.Layers, same]
  exact layers found colored

/-- A flat color is drawn with the table of its own alpha. -/
theorem layers_flat (width height maxCoverage : Nat) (color : Color) :
    Layers ⟨width, height, Alpha.table maxCoverage color.alpha.toNat, .flat color.argb⟩ := by
  intro coverage opacity count argb found member
  obtain rfl := List.eq_of_mem_replicate member
  rw [Color.alpha_argb]
  exact Alpha.bounds_of_lookup (Nat.le_of_lt_succ color.alpha.toNat_lt) found

/-- The colors of a paint are drawn with the table of an opaque color. -/
theorem layers_perPixel (width height maxCoverage : Nat) (colors : List Nat) :
    Layers ⟨width, height, Alpha.table maxCoverage 255, .perPixel colors⟩ := by
  intro coverage opacity count argb found member
  have bounds := Alpha.bounds_of_lookup (Nat.le_refl 255) found
  exact Alpha.bounds_modulate bounds.opacity_le (Argb.alpha_le argb)

end RowTarget

/-! ## Rows -/

theorem CoverageRow.gives_of_mem_touches {row : CoverageRow} {target : RowTarget}
    {touches : List Touch} (touched : row.touches target = .ok touches) {touch : Touch}
    (member : touch ∈ touches) : target.Gives touch := by
  unfold CoverageRow.touches at touched
  split at touched
  · obtain ⟨⟨x, coverage, argb⟩, visible, answered⟩ := exists_of_mem_mapM touched member
    obtain ⟨opacity, found, rfl⟩ := exists_of_map_eq_ok answered
    obtain ⟨zipped, _⟩ := RowTarget.bounds_of_mem_place (List.mem_filter.mp visible).1
    exact ⟨coverage, opacity, _, found, (List.of_mem_zip zipped).2, rfl⟩
  · cases touched
    cases member

namespace RunRow

theorem gives_of_mem_touchesFrom {target : RowTarget} {count : Nat} {y x : Int}
    {colors : List Nat} (colored : ∀ argb ∈ colors, argb ∈ target.source.colors count)
    {runs : List (Nat × Nat)} {touches : List Touch}
    (touched : touchesFrom target y x colors runs = .ok touches) {touch : Touch}
    (member : touch ∈ touches) : target.Gives touch := by
  induction runs generalizing x colors touches with
  | nil =>
      cases touched
      cases member
  | cons run rest inductionHypothesis =>
      obtain ⟨value, length⟩ := run
      obtain ⟨opacity, found, afterLookup⟩ := exists_of_bind_eq_ok touched
      obtain ⟨later, touchedLater, done⟩ := exists_of_bind_eq_ok afterLookup
      cases done
      rcases List.mem_append.mp member with here | there
      · split at here
        · cases here
        · obtain ⟨⟨column, argb⟩, visible, rfl⟩ := List.mem_map.mp here
          obtain ⟨taken, _⟩ := RowTarget.bounds_of_mem_place (List.mem_filter.mp visible).1
          exact ⟨value, opacity, count, found, colored argb (List.mem_of_mem_take taken), rfl⟩
      · exact inductionHypothesis (fun argb dropped => colored argb (List.mem_of_mem_drop dropped))
          touchedLater there

theorem gives_of_mem_touches {row : RunRow} {target : RowTarget} {touches : List Touch}
    (touched : row.touches target = .ok touches) {touch : Touch} (member : touch ∈ touches) :
    target.Gives touch := by
  unfold RunRow.touches at touched
  split at touched
  · exact gives_of_mem_touchesFrom (fun _ own => own) touched member
  · cases touched
    cases member

end RunRow

/-- The pixels of a rectangle are rows of a single color. -/
theorem CellRect.gives_of_mem_touches {grid : Grid} {cells : CellRect} {width height : Nat}
    {alphas : Array Nat} {argb : Nat} {touches : List Touch}
    (touched : cells.touches grid width height alphas argb = .ok touches) {touch : Touch}
    (member : touch ∈ touches) : RowTarget.Gives ⟨width, height, alphas, .flat argb⟩ touch := by
  unfold CellRect.touches at touched
  split at touched
  · cases touched
    cases member
  · obtain ⟨⟨x, y⟩, _, answered⟩ := exists_of_mem_mapM touched member
    obtain ⟨opacity, found, rfl⟩ := exists_of_map_eq_ok answered
    exact ⟨_, opacity, 1, found, List.mem_replicate.mpr ⟨by decide, rfl⟩, rfl⟩

/-! ## Elements -/

namespace PixelFormat

/-- What drawing may do to the alpha of an element: it is not lowered, and where the format
has none, the alpha byte of an element that is drawn over is full. -/
def Layered : PixelFormat → Nat → Nat → Prop
  | argb8888, before, after => Argb.alpha before ≤ Argb.alpha after
  | rgb888, before, after => after = before ∨ Argb.alpha after = 255
  | rgb565, _, _ => True
  | gray8, _, _ => True

theorem layered_refl (format : PixelFormat) (element : Nat) : format.Layered element element := by
  cases format with
  | rgb888 => exact .inl rfl
  | argb8888 => exact Nat.le_refl _
  | rgb565 => trivial
  | gray8 => trivial

theorem Layered.trans {format : PixelFormat} {before between after : Nat}
    (first : format.Layered before between) (second : format.Layered between after) :
    format.Layered before after := by
  cases format with
  | rgb888 =>
      rcases second with rfl | solid
      · exact first
      · exact .inr solid
  | argb8888 => exact Nat.le_trans first second
  | rgb565 => trivial
  | gray8 => trivial

/-- The denominator that the source-over rule inverts. -/
def blendDenominator (target opacity : Nat) : Nat :=
  256 * Argb.alpha target + opacity * (255 - Argb.alpha target)

/-- A source that has any opacity is blended over every target without a division by zero. -/
theorem blendDenominator_ne_zero {opacity : Nat} (visible : opacity ≠ 0) (target : Nat) :
    blendDenominator target opacity ≠ 0 := by
  intro zero
  obtain ⟨noTarget, noSource⟩ := Nat.add_eq_zero_iff.mp zero
  rcases Nat.mul_eq_zero.mp noSource with invisible | covered
  · exact visible invisible
  · omega

theorem weigh_lt (targetWeight sourceWeight target source : Nat) :
    weigh targetWeight sourceWeight target source < 256 := by
  unfold weigh
  omega

theorem blendArgb_of_ne_zero {target opacity : Nat} (nonzero : blendDenominator target opacity ≠ 0)
    (source : Nat) :
    ∃ red green blue, blendArgb target source opacity =
        Argb.pack (blendDenominator target opacity / 256) red green blue ∧
      red < 256 ∧ green < 256 ∧ blue < 256 :=
  ⟨_, _, _, if_neg nonzero, weigh_lt _ _ _ _, weigh_lt _ _ _ _, weigh_lt _ _ _ _⟩

/-- Blending moves the alpha of the target toward the greatest one. -/
theorem alpha_le_alpha_blendArgb {opacity : Nat} (visible : opacity ≠ 0)
    (partly : opacity < Alpha.full) (target source : Nat) :
    Argb.alpha target ≤ Argb.alpha (blendArgb target source opacity) := by
  obtain ⟨red, green, blue, blended, redLt, greenLt, blueLt⟩ :=
    blendArgb_of_ne_zero (blendDenominator_ne_zero visible target) source
  have targetLe := Argb.alpha_le target
  have added : opacity * (255 - Argb.alpha target) ≤ 256 * (255 - Argb.alpha target) :=
    Nat.mul_le_mul_right _ (Nat.le_of_lt partly)
  have alphaLt : blendDenominator target opacity / 256 < 256 := by
    unfold blendDenominator
    omega
  rw [blended, Argb.alpha_pack alphaLt redLt greenLt blueLt]
  unfold blendDenominator
  omega

theorem mix_lt {target source opacity : Nat} (targetLt : target < 256) (sourceLt : source < 256)
    (partly : opacity < Alpha.full) : mix target source opacity < 256 := by
  unfold Alpha.full at partly
  have toGreatest : ((source : Int) - target) * opacity ≤ (255 - target) * opacity :=
    Int.mul_le_mul_of_nonneg_right (by omega) (by omega)
  have fully : (255 - (target : Int)) * opacity ≤ (255 - target) * 256 :=
    Int.mul_le_mul_of_nonneg_left (by omega) (by omega)
  unfold mix
  omega

theorem alpha_pack_full {red green blue : Nat} (redLt : red < 256) (greenLt : green < 256)
    (blueLt : blue < 256) : Argb.alpha (Argb.pack 255 red green blue) = 255 :=
  Argb.alpha_pack (by decide) redLt greenLt blueLt

/-- Drawing leaves an element, blends it or stores the source. -/
theorem composite_cases (format : PixelFormat) (target source opacity : Nat) :
    format.composite target source opacity = target ∨
      (1 ≤ opacity ∧ opacity ≤ 255 ∧
        format.composite target source opacity = format.blend target source opacity) ∨
      (Alpha.full ≤ opacity ∧ format.composite target source opacity = source) := by
  unfold composite
  split
  · exact .inl rfl
  · split
    · rename_i visible partly
      exact .inr (.inl ⟨Nat.one_le_iff_ne_zero.mpr visible, Nat.le_of_lt_succ partly, rfl⟩)
    · rename_i covered
      exact .inr (.inr ⟨Nat.le_of_not_lt covered, rfl⟩)

/-- Whatever is composited with an opacity in range is layered. -/
theorem layered_composite (format : PixelFormat) (target : Nat) {argb opacity : Nat}
    (bounds : Alpha.Bounds (Argb.alpha argb) opacity) :
    format.Layered target (format.composite target (format.encode argb) opacity) := by
  have channelLt : ∀ value, value % 256 < 256 := fun value => Nat.mod_lt value (by decide)
  rcases format.composite_cases target (format.encode argb) opacity with
    same | ⟨visible, below, same⟩ | ⟨covered, same⟩
  · rw [same]
    exact format.layered_refl target
  · have partly : opacity < Alpha.full := Nat.lt_succ_of_le below
    rw [same]
    cases format with
    | rgb888 =>
        exact .inr (alpha_pack_full (mix_lt (channelLt _) (channelLt _) partly)
          (mix_lt (channelLt _) (channelLt _) partly)
          (mix_lt (channelLt _) (channelLt _) partly))
    | argb8888 => exact alpha_le_alpha_blendArgb (Nat.ne_of_gt visible) partly target argb
    | rgb565 => trivial
    | gray8 => trivial
  · have isFull : opacity = Alpha.full := Nat.le_antisymm bounds.opacity_le covered
    rw [same]
    cases format with
    | rgb888 => exact .inr (alpha_pack_full (channelLt _) (channelLt _) (channelLt _))
    | argb8888 =>
        change Argb.alpha target ≤ Argb.alpha argb
        rw [bounds.alpha_eq isFull]
        exact Argb.alpha_le target
    | rgb565 => trivial
    | gray8 => trivial

end PixelFormat

/-! ## Surfaces -/

namespace Surface

/-- One surface is another one with paint in layers over it: every element is still there and
was changed as drawing may change it. -/
structure Layered (surface drawn : Surface) : Prop where
  format : drawn.format = surface.format
  layout : drawn.layout = surface.layout
  bounds : drawn.bounds = surface.bounds
  size : drawn.elements.size = surface.elements.size
  elements : ∀ index before after : Nat, surface.elements[index]? = some before →
    drawn.elements[index]? = some after → surface.format.Layered before after

theorem layered_refl (surface : Surface) : surface.Layered surface := by
  refine ⟨rfl, rfl, rfl, rfl, ?_⟩
  intro index before after found same
  rw [found] at same
  obtain rfl := Option.some.inj same
  exact surface.format.layered_refl before

theorem Layered.exists_after {surface drawn : Surface} (layered : surface.Layered drawn)
    {index before : Nat} (found : surface.elements[index]? = some before) :
    ∃ after, drawn.elements[index]? = some after ∧ surface.format.Layered before after := by
  have below : index < drawn.elements.size := by
    rw [layered.size]
    exact (Array.getElem?_eq_some_iff.mp found).1
  have there := Array.getElem?_eq_getElem below
  exact ⟨_, there, layered.elements index _ _ found there⟩

theorem Layered.trans {surface between drawn : Surface} (first : surface.Layered between)
    (second : between.Layered drawn) : surface.Layered drawn := by
  refine ⟨second.format.trans first.format, second.layout.trans first.layout,
    second.bounds.trans first.bounds, second.size.trans first.size, ?_⟩
  intro index before after found drawnThere
  obtain ⟨middle, there, here⟩ := first.exists_after found
  have later := second.elements index middle after there drawnThere
  rw [first.format] at later
  exact here.trans later

theorem layered_touch (surface : Surface) {touch : Touch} (layers : touch.Layers) :
    surface.Layered (surface.touch touch) := by
  refine ⟨rfl, rfl, rfl, surface.size_elements_touch touch, ?_⟩
  intro index before after found drawnThere
  simp only [Surface.touch, Array.getElem?_modify, found] at drawnThere
  split at drawnThere
  · obtain rfl := Option.some.inj drawnThere
    exact surface.format.layered_composite before layers
  · obtain rfl := Option.some.inj drawnThere
    exact surface.format.layered_refl before

theorem layered_draw (surface : Surface) {touches : List Touch}
    (layers : ∀ touch ∈ touches, touch.Layers) : surface.Layered (surface.draw touches) := by
  induction touches generalizing surface with
  | nil => exact surface.layered_refl
  | cons touch rest inductionHypothesis =>
      rw [draw_cons]
      exact (surface.layered_touch (layers touch List.mem_cons_self)).trans
        (inductionHypothesis _ fun other member => layers other (List.mem_cons_of_mem _ member))

/-- Every pixel that could be read can be read afterward, and its alpha is not lower. -/
theorem Layered.exists_get? {surface drawn : Surface} (layered : surface.Layered drawn)
    (translucent : surface.format = .argb8888) {x y : Int} {before : Nat}
    (read : surface.get? x y = some before) :
    ∃ after, drawn.get? x y = some after ∧ Argb.alpha before ≤ Argb.alpha after := by
  unfold get? at read ⊢
  rw [layered.bounds, layered.layout, layered.format]
  split at read
  · rename_i inside
    obtain ⟨element, found, rfl⟩ := Option.map_eq_some_iff.mp read
    obtain ⟨after, there, raised⟩ := layered.exists_after found
    rw [translucent] at raised ⊢
    refine ⟨after, ?_, raised⟩
    rw [if_pos inside, there]
    rfl
  · cases read

/-- No more pixels can be read afterward. -/
theorem Layered.get?_eq_none {surface drawn : Surface} (layered : surface.Layered drawn)
    {x y : Int} (unread : surface.get? x y = none) : drawn.get? x y = none := by
  unfold get? at unread ⊢
  rw [layered.bounds, layered.layout]
  split at unread
  · rename_i inside
    rw [if_pos inside, Option.map_eq_none_iff, Array.getElem?_eq_none_iff, layered.size,
      ← Array.getElem?_eq_none_iff, ← Option.map_eq_none_iff]
    exact unread
  · rename_i outside
    rw [if_neg outside]

/-- All pixels that can be read are opaque. -/
def Solid (surface : Surface) : Prop :=
  ∀ x y color, surface.get? x y = some color → Argb.alpha color = 255

/-- An opaque surface stays opaque. -/
theorem Layered.solid {surface drawn : Surface} (layered : surface.Layered drawn)
    (translucent : surface.format = .argb8888) (solid : surface.Solid) : drawn.Solid := by
  intro x y color read
  cases before : surface.get? x y with
  | none =>
      rw [layered.get?_eq_none before] at read
      cases read
  | some under =>
      obtain ⟨after, there, raised⟩ := layered.exists_get? translucent before
      obtain rfl := Option.some.inj (there.symm.trans read)
      rw [solid x y under before] at raised
      exact Nat.le_antisymm (Argb.alpha_le after) raised

end Surface

end Raster
