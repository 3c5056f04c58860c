import Raster.Proofs.Coverage.Touching

/-!
# Confined drawing

Drawing accesses the elements of the pixels that it touches, and no others.  On a surface that
its constructor has accepted, whatever the layout, the pixels inside the bounds are elements of
the buffer; rows only touch such pixels.
-/

namespace Raster

/-- The pixel that is touched. -/
def Touch.pixel (touch : Touch) : Int × Int :=
  (touch.x, touch.y)

namespace Surface

/-- The pixel lies on the surface. -/
def HasPixel (surface : Surface) (pixel : Int × Int) : Prop :=
  (0 ≤ pixel.1 ∧ pixel.1 < surface.width) ∧ 0 ≤ pixel.2 ∧ pixel.2 < surface.height

/-- The index of a pixel in the buffer. -/
def indexOf (surface : Surface) (pixel : Int × Int) : Nat :=
  surface.layout.index pixel.1 pixel.2

/-! ## Accepted surfaces -/

/-- The surface is not too large and its buffer holds every pixel. -/
structure Accepted (surface : Surface) : Prop where
  width_le : surface.width ≤ maxSize
  height_le : surface.height ≤ maxSize
  indexOf_lt : ∀ pixel, surface.HasPixel pixel →
    surface.indexOf pixel < surface.elements.size

/-- The constructor only accepts buffers that hold every pixel. -/
theorem accepted_of_new? {format : PixelFormat} {width height : Nat} {layout : Layout}
    {elements : Array Nat} {surface : Surface}
    (made : new? format width height layout elements = .ok surface) : surface.Accepted := by
  unfold new? at made
  split at made
  · cases made
  · rename_i size
    obtain ⟨notWide, notHigh⟩ := not_or.mp size
    have widthLe := Nat.le_of_not_gt notWide
    have heightLe := Nat.le_of_not_gt notHigh
    split at made
    · rename_i empty
      cases made
      refine ⟨widthLe, heightLe, ?_⟩
      rintro ⟨x, y⟩ ⟨⟨_, right⟩, _, bottom⟩
      simp only at right bottom
      omega
    · simp only at made
      split at made
      · cases made
      · split at made
        · cases made
        · rename_i enough
          cases made
          refine ⟨widthLe, heightLe, ?_⟩
          rintro ⟨x, y⟩ ⟨⟨left, right⟩, top, bottom⟩
          simp only at left right top bottom
          have rows : y.toNat * layout.rowStride ≤ (height - 1) * layout.rowStride :=
            Nat.mul_le_mul_right _ (by omega)
          have columns : x.toNat * layout.pixelStride ≤ (width - 1) * layout.pixelStride :=
            Nat.mul_le_mul_right _ (by omega)
          simp only [indexOf, Layout.index]
          omega

/-- The bounds of an accepted surface hold exactly its pixels. -/
theorem Accepted.contains_bounds_iff {surface : Surface} (accepted : surface.Accepted)
    (pixel : Int × Int) :
    surface.bounds.contains pixel.1 pixel.2 = true ↔ surface.HasPixel pixel := by
  have notSaturated : ∀ size : Nat, size ≤ maxSize → Word.clamp32 (0 + size) = size := by
    intro size atMost
    rw [Int.zero_add]
    apply Word.clamp32_eq_self
    unfold maxSize at atMost
    unfold Word.Fits32 Word.min32 Word.max32
    omega
  rw [PixelBox.contains_iff]
  simp only [bounds, PixelBox.ofSize, notSaturated _ accepted.width_le,
    notSaturated _ accepted.height_le, HasPixel]

/-! ## Changes -/

/-- One surface is another one with no more changed than the elements of some pixels. -/
structure ChangesOnly (surface changed : Surface) (pixels : List (Int × Int)) : Prop where
  format : changed.format = surface.format
  width : changed.width = surface.width
  height : changed.height = surface.height
  layout : changed.layout = surface.layout
  size : changed.elements.size = surface.elements.size
  elements : ∀ index, (∀ pixel ∈ pixels, surface.indexOf pixel ≠ index) →
    changed.elements[index]? = surface.elements[index]?

theorem ChangesOnly.refl (surface : Surface) (pixels : List (Int × Int)) :
    surface.ChangesOnly surface pixels :=
  ⟨rfl, rfl, rfl, rfl, rfl, fun _ _ => rfl⟩

/-- A change of one pixel followed by changes of others. -/
theorem ChangesOnly.cons {surface next changed : Surface} {pixel : Int × Int}
    {pixels : List (Int × Int)} (here : surface.ChangesOnly next [pixel])
    (later : next.ChangesOnly changed pixels) :
    surface.ChangesOnly changed (pixel :: pixels) := by
  obtain ⟨format, width, height, layout, size, elements⟩ := here
  constructor
  · rw [later.format, format]
  · rw [later.width, width]
  · rw [later.height, height]
  · rw [later.layout, layout]
  · rw [later.size, size]
  · intro index others
    rw [later.elements index, elements index]
    · rintro _ only
      rw [List.mem_singleton.mp only]
      exact others pixel List.mem_cons_self
    · intro other member
      rw [indexOf, layout]
      exact others other (List.mem_cons_of_mem _ member)

/-- A change of one element changes only the pixel that lies there. -/
theorem changesOnly_modify (surface : Surface) (pixel : Int × Int) (change : Nat → Nat) :
    surface.ChangesOnly
      { surface with elements := surface.elements.modify (surface.indexOf pixel) change }
      [pixel] := by
  refine ⟨rfl, rfl, rfl, rfl, Array.size_modify, ?_⟩
  intro index others
  simp only [Array.getElem?_modify, if_neg (others pixel List.mem_cons_self)]

theorem changesOnly_draw (surface : Surface) (touches : List Touch) :
    surface.ChangesOnly (surface.draw touches) (touches.map Touch.pixel) := by
  induction touches generalizing surface with
  | nil => exact .refl surface []
  | cons touch rest inductionHypothesis =>
      exact (surface.changesOnly_modify touch.pixel _).cons
        (inductionHypothesis (surface.touch touch))

theorem changesOnly_fill (surface : Surface) (box : PixelBox) (argb : Nat) :
    surface.ChangesOnly (surface.fill box argb) (surface.visible box) := by
  unfold fill
  generalize surface.visible box = pixels
  induction pixels generalizing surface with
  | nil => exact .refl surface []
  | cons pixel rest inductionHypothesis =>
      exact (surface.changesOnly_modify pixel _).cons
        (inductionHypothesis (surface.store argb pixel.1 pixel.2))

theorem ChangesOnly.accepted {surface changed : Surface} {pixels : List (Int × Int)}
    (changes : surface.ChangesOnly changed pixels) (accepted : surface.Accepted) :
    changed.Accepted := by
  obtain ⟨widthLe, heightLe, indexLt⟩ := accepted
  refine ⟨changes.width ▸ widthLe, changes.height ▸ heightLe, ?_⟩
  intro pixel inside
  rw [HasPixel, changes.width, changes.height] at inside
  rw [indexOf, changes.layout, changes.size]
  exact indexLt pixel inside

/-- All accessed pixels lie in a box and their elements in the buffer, and nothing else has
changed. -/
structure Confines (surface : Surface) (box : PixelBox) (accessed : List (Int × Int))
    (changed : Surface) : Prop where
  contained : ∀ pixel ∈ accessed, box.contains pixel.1 pixel.2 = true
  indexOf_lt : ∀ pixel ∈ accessed, surface.indexOf pixel < surface.elements.size
  changes : surface.ChangesOnly changed accessed

/-- The visible pixels of a box lie in the box and on the surface. -/
theorem hasPixel_of_mem_visible {surface : Surface} {box : PixelBox}
    {pixel : Int × Int} (member : pixel ∈ surface.visible box) :
    (box.left ≤ pixel.1 ∧ pixel.1 < Word.clamp32 (box.left + box.width)) ∧
      (box.top ≤ pixel.2 ∧ pixel.2 < Word.clamp32 (box.top + box.height)) ∧
        surface.HasPixel pixel := by
  simp only [visible, List.mem_flatMap, List.mem_map, List.mem_range] at member
  obtain ⟨row, rowLt, column, columnLt, rfl⟩ := member
  simp only [HasPixel]
  omega

end Surface

/-! ## Touches of rows -/

/-- A row of coverage touches only pixels of its own that the target shows. -/
theorem CoverageRow.bounds_of_mem_touches {row : CoverageRow} {target : RowTarget}
    {touches : List Touch} (touched : row.touches target = .ok touches) {touch : Touch}
    (member : touch ∈ touches) :
    target.hasColumn touch.x = true ∧ target.hasLine touch.y = true ∧ touch.y = row.y ∧
      row.x ≤ touch.x ∧ touch.x < row.x + row.values.length := by
  unfold CoverageRow.touches at touched
  split at touched
  · rename_i line
    obtain ⟨⟨x, coverage, argb⟩, visible, answered⟩ := exists_of_mem_mapM touched member
    obtain ⟨opacity, _, rfl⟩ := exists_of_map_eq_ok answered
    obtain ⟨placed, column⟩ := List.mem_filter.mp visible
    obtain ⟨zipped, left, right⟩ := RowTarget.bounds_of_mem_place placed
    rw [List.length_zip] at right
    refine ⟨column, line, rfl, left, ?_⟩
    change x < _
    omega
  · cases touched
    cases member

namespace RunRow

theorem hasColumn_of_mem_touchesFrom {target : RowTarget} {y x : Int} {colors : List Nat}
    {runs : List (Nat × Nat)} {touches : List Touch}
    (touched : touchesFrom target y x colors runs = .ok touches) {touch : Touch}
    (member : touch ∈ touches) : target.hasColumn touch.x = true ∧ touch.y = y := by
  induction runs generalizing x colors touches with
  | nil =>
      cases touched
      cases member
  | cons run rest inductionHypothesis =>
      obtain ⟨value, length⟩ := run
      obtain ⟨opacity, _, afterLookup⟩ := exists_of_bind_eq_ok touched
      obtain ⟨later, touchedLater, done⟩ := exists_of_bind_eq_ok afterLookup
      cases done
      rcases List.mem_append.mp member with here | there
      · split at here
        · cases here
        · obtain ⟨⟨column, argb⟩, visible, rfl⟩ := List.mem_map.mp here
          exact ⟨(List.mem_filter.mp visible).2, rfl⟩
      · exact inductionHypothesis touchedLater there

/-- A row of runs touches only pixels that the target shows. -/
theorem bounds_of_mem_touches {row : RunRow} {target : RowTarget} {touches : List Touch}
    (touched : row.touches target = .ok touches) {touch : Touch} (member : touch ∈ touches) :
    target.hasColumn touch.x = true ∧ target.hasLine touch.y = true := by
  unfold RunRow.touches at touched
  split at touched
  · rename_i line
    obtain ⟨column, onLine⟩ := hasColumn_of_mem_touchesFrom touched member
    rw [onLine]
    exact ⟨column, line⟩
  · cases touched
    cases member

end RunRow

end Raster
