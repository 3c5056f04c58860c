import Mathlib.Order.Bounds.Basic
import Raster.Proofs.Coverage.Confining
import Raster.Proofs.Word

/-!
# Addresses of pixels

The constructor of surfaces looks at one pixel only, the one in the far corner.  No other pixel has
a greater index, so that the buffer holds all pixels if it holds this one.  The length that the
constructor computes in checked words is the exact one or does not fit a word, and the indices that
are computed later, without checks, are parts of this computation.
-/

namespace Raster

namespace Word

/-- A value as an index, if it is one. -/
def index? (value : Nat) : Option Nat :=
  if value < indexLimit then some value else none

theorem index?_eq_some {value : Nat} (below : value < indexLimit) : index? value = some value :=
  if_pos below

theorem index?_eq_none {value : Nat} (beyond : indexLimit ≤ value) : index? value = none :=
  if_neg (Nat.not_lt.mpr beyond)

/-- A part need not be checked before the whole. -/
theorem index?_bind (whole : Nat → Nat) {part : Nat} (atMost : part ≤ whole part) :
    (index? part >>= fun part => index? (whole part)) = index? (whole part) := by
  rcases Nat.lt_or_ge part indexLimit with below | beyond
  · exact bind_eq_of_eq_some (index?_eq_some below) rfl
  · rw [index?_eq_none beyond, index?_eq_none (Nat.le_trans beyond atMost)]
    rfl

end Word

namespace Layout

/-- The index of a pixel in words. -/
def index? (layout : Layout) (x y : Int) : Option Nat := do
  let rows ← Word.index? (y.toNat * layout.rowStride)
  let line ← Word.index? (layout.offset + rows)
  let columns ← Word.index? (x.toNat * layout.pixelStride)
  Word.index? (line + columns)

/-- The length in words of a buffer that holds the far corner. -/
def required? (layout : Layout) (width height : Nat) : Option Nat := do
  let last ← layout.index? ↑(width - 1) ↑(height - 1)
  Word.index? (last + 1)

/-- The indices of the pixels of a surface of some size. -/
def indices (layout : Layout) (width height : Nat) : Set Nat :=
  {index | ∃ x < width, ∃ y < height,
    index = layout.offset + y * layout.rowStride + x * layout.pixelStride}

/-- No operation leaves the range unless the index does. -/
theorem index?_eq (layout : Layout) (x y : Int) :
    layout.index? x y = Word.index? (layout.index x y) := by
  have lastColumn (line : Nat) :
      (Word.index? (x.toNat * layout.pixelStride) >>= fun columns =>
          Word.index? (line + columns)) =
        Word.index? (line + x.toNat * layout.pixelStride) :=
    Word.index?_bind (line + ·) (Nat.le_add_left ..)
  have lastLine (rows : Nat) :
      (Word.index? (layout.offset + rows) >>= fun line =>
          Word.index? (line + x.toNat * layout.pixelStride)) =
        Word.index? (layout.offset + rows + x.toNat * layout.pixelStride) :=
    Word.index?_bind (· + x.toNat * layout.pixelStride) (Nat.le_add_right ..)
  simp only [index?, lastColumn, lastLine]
  exact Word.index?_bind (layout.offset + · + x.toNat * layout.pixelStride) (by omega)

theorem required?_eq (layout : Layout) (width height : Nat) :
    layout.required? width height =
      Word.index? (layout.index ↑(width - 1) ↑(height - 1) + 1) := by
  rw [required?, index?_eq]
  exact Word.index?_bind (· + 1) (Nat.le_succ _)

/-- The pixel in the far corner has the greatest index, whatever the strides. -/
theorem isGreatest_indices (layout : Layout) {width height : Nat} (wide : 0 < width)
    (high : 0 < height) :
    IsGreatest (layout.indices width height) (layout.index ↑(width - 1) ↑(height - 1)) := by
  constructor
  · exact ⟨width - 1, by omega, height - 1, by omega, rfl⟩
  · rintro _ ⟨x, xLt, y, yLt, rfl⟩
    have rows : y * layout.rowStride ≤ (height - 1) * layout.rowStride :=
      Nat.mul_le_mul_right _ (by omega)
    have columns : x * layout.pixelStride ≤ (width - 1) * layout.pixelStride :=
      Nat.mul_le_mul_right _ (by omega)
    exact Nat.add_le_add (Nat.add_le_add_left rows _) columns

/-- Without a pixel there is no index. -/
theorem indices_eq_empty (layout : Layout) {width height : Nat} (empty : width = 0 ∨ height = 0) :
    layout.indices width height = ∅ := by
  rw [Set.eq_empty_iff_forall_notMem]
  rintro _ ⟨x, xLt, y, yLt, _⟩
  omega

end Layout

namespace Surface

/-- A surface over a buffer, as it is built in words. -/
def newWords? (format : PixelFormat) (width height : Nat) (layout : Layout)
    (elements : Array Nat) : Except Error Surface :=
  if width > maxSize ∨ height > maxSize then
    .error (.surfaceTooLarge width height)
  else if 0 < width ∧ 0 < height then
    match layout.required? width height with
    | none => .error .layoutOverflow
    | some required =>
        if elements.size < required then
          .error (.bufferTooSmall required elements.size)
        else
          .ok ⟨format, width, height, layout, elements⟩
  else
    .ok ⟨format, width, height, layout, elements⟩

section Construction

variable {format : PixelFormat} {width height : Nat} {layout : Layout} {elements : Array Nat}

theorem new?_of_large (large : width > maxSize ∨ height > maxSize) :
    new? format width height layout elements = .error (.surfaceTooLarge width height) :=
  if_pos large

theorem new?_of_empty (small : width ≤ maxSize ∧ height ≤ maxSize)
    (empty : width = 0 ∨ height = 0) :
    new? format width height layout elements = .ok ⟨format, width, height, layout, elements⟩ := by
  rw [new?, if_neg (by omega), if_pos empty]

/-- A surface with pixels is built from the index in the far corner. -/
theorem new?_of_pos (small : width ≤ maxSize ∧ height ≤ maxSize) (wide : 0 < width)
    (high : 0 < height) :
    new? format width height layout elements =
      if Word.indexLimit ≤ layout.index ↑(width - 1) ↑(height - 1) + 1 then
        .error .layoutOverflow
      else if elements.size < layout.index ↑(width - 1) ↑(height - 1) + 1 then
        .error (.bufferTooSmall (layout.index ↑(width - 1) ↑(height - 1) + 1) elements.size)
      else
        .ok ⟨format, width, height, layout, elements⟩ := by
  rw [new?, if_neg (by omega), if_neg (by omega)]
  rfl

theorem newWords?_eq (format : PixelFormat) (width height : Nat) (layout : Layout)
    (elements : Array Nat) :
    newWords? format width height layout elements = new? format width height layout elements := by
  unfold newWords?
  split
  · rename_i large
    exact (new?_of_large large).symm
  · rename_i notLarge
    split
    · rename_i pixels
      rw [new?_of_pos (by omega) pixels.1 pixels.2, Layout.required?_eq]
      generalize layout.index ↑(width - 1) ↑(height - 1) + 1 = required
      rcases Nat.lt_or_ge required Word.indexLimit with fits | overflows
      · rw [Word.index?_eq_some fits, if_neg (Nat.not_le.mpr fits)]
      · rw [Word.index?_eq_none overflows, if_pos overflows]
    · exact (new?_of_empty (by omega) (by omega)).symm

/-- All pixels lie in the buffer if the last one does. -/
theorem forall_indices_lt_iff (wide : 0 < width) (high : 0 < height) {size : Nat} :
    (∀ index ∈ layout.indices width height, index < size) ↔
      layout.index ↑(width - 1) ↑(height - 1) < size := by
  have greatest := layout.isGreatest_indices wide high
  constructor
  · intro inside
    exact inside _ greatest.1
  · intro inside index member
    exact Nat.lt_of_le_of_lt (greatest.2 member) inside

theorem exists_new?_eq_ok_iff (addressable : elements.size < Word.indexLimit) :
    (∃ surface, new? format width height layout elements = .ok surface) ↔
      (width ≤ maxSize ∧ height ≤ maxSize) ∧
        ∀ index ∈ layout.indices width height, index < elements.size := by
  by_cases small : width ≤ maxSize ∧ height ≤ maxSize
  · rw [and_iff_right small]
    by_cases pixels : 0 < width ∧ 0 < height
    · rw [forall_indices_lt_iff pixels.1 pixels.2, new?_of_pos small pixels.1 pixels.2]
      generalize layout.index ↑(width - 1) ↑(height - 1) = last
      by_cases inside : last < elements.size
      · rw [if_neg (by omega), if_neg (by omega)]
        exact ⟨fun _ => inside, fun _ => ⟨_, rfl⟩⟩
      · refine ⟨?_, fun contrary => absurd contrary inside⟩
        rintro ⟨surface, made⟩
        rw [if_pos (by omega : elements.size < last + 1)] at made
        split at made <;> cases made
    · have empty : width = 0 ∨ height = 0 := by omega
      rw [new?_of_empty small empty, layout.indices_eq_empty empty]
      exact ⟨fun _ _ member => member.elim, fun _ => ⟨_, rfl⟩⟩
  · rw [new?_of_large (by omega)]
    exact ⟨fun ⟨_, made⟩ => (nomatch made), fun accepted => absurd accepted.1 small⟩

/-- The layout is refused exactly if the length up to the last pixel is no word. -/
theorem new?_eq_layoutOverflow_iff :
    new? format width height layout elements = .error .layoutOverflow ↔
      (width ≤ maxSize ∧ height ≤ maxSize) ∧
        ∃ largest, IsGreatest (layout.indices width height) largest ∧
          Word.indexLimit ≤ largest + 1 := by
  by_cases small : width ≤ maxSize ∧ height ≤ maxSize
  · rw [and_iff_right small]
    by_cases pixels : 0 < width ∧ 0 < height
    · have greatest := layout.isGreatest_indices pixels.1 pixels.2
      rw [new?_of_pos small pixels.1 pixels.2]
      constructor
      · intro refused
        refine ⟨_, greatest, ?_⟩
        by_contra fits
        rw [if_neg fits] at refused
        split at refused <;> cases refused
      · rintro ⟨largest, isLargest, overflows⟩
        rw [isLargest.unique greatest] at overflows
        exact if_pos overflows
    · have empty : width = 0 ∨ height = 0 := by omega
      rw [new?_of_empty small empty, layout.indices_eq_empty empty]
      exact ⟨fun refused => (nomatch refused), fun ⟨_, greatest, _⟩ => greatest.1.elim⟩
  · rw [new?_of_large (by omega)]
    exact ⟨fun refused => (nomatch refused), fun accepted => absurd accepted.1 small⟩

theorem eq_of_new? {surface : Surface}
    (made : new? format width height layout elements = .ok surface) :
    surface = ⟨format, width, height, layout, elements⟩ := by
  by_cases small : width ≤ maxSize ∧ height ≤ maxSize
  · by_cases pixels : 0 < width ∧ 0 < height
    · rw [new?_of_pos small pixels.1 pixels.2] at made
      split at made
      · cases made
      · split at made
        · cases made
        · exact (Except.ok.inj made).symm
    · rw [new?_of_empty small (by omega)] at made
      exact (Except.ok.inj made).symm
  · rw [new?_of_large (by omega)] at made
    cases made

/-- The checks of the constructor are exact for every buffer that a machine can hold, and are
computed in words.  It accepts a surface exactly if no side is too long and the buffer holds every
pixel.  If no side is too long, it finds the layout to overflow exactly if the greatest index of a
pixel, plus one, is no word.  The index of a pixel of an accepted surface lies in the buffer, and no
step of its computation leaves the range of words. -/
theorem accepted_iff_pixels_held (addressable : elements.size < Word.indexLimit)
    (format : PixelFormat) (width height : Nat) (layout : Layout) :
    newWords? format width height layout elements = new? format width height layout elements ∧
      ((∃ surface, new? format width height layout elements = .ok surface) ↔
        (width ≤ maxSize ∧ height ≤ maxSize) ∧
          ∀ index ∈ layout.indices width height, index < elements.size) ∧
      (new? format width height layout elements = .error .layoutOverflow ↔
        (width ≤ maxSize ∧ height ≤ maxSize) ∧
          ∃ largest, IsGreatest (layout.indices width height) largest ∧
            Word.indexLimit ≤ largest + 1) ∧
      ∀ surface, new? format width height layout elements = .ok surface →
        surface = ⟨format, width, height, layout, elements⟩ ∧
          ∀ x y, surface.bounds.contains x y = true →
            surface.layout.index? x y = some (surface.layout.index x y) ∧
              surface.layout.index x y < surface.elements.size := by
  refine ⟨newWords?_eq format width height layout elements, exists_new?_eq_ok_iff addressable,
    new?_eq_layoutOverflow_iff, ?_⟩
  intro surface made
  have same := eq_of_new? made
  have accepted := accepted_of_new? made
  refine ⟨same, fun x y inside => ?_⟩
  have held : surface.layout.index x y < surface.elements.size :=
    accepted.indexOf_lt (x, y) ((accepted.contains_bounds_iff (x, y)).mp inside)
  have sameSize : surface.elements.size = elements.size := congrArg (·.elements.size) same
  refine ⟨?_, held⟩
  rw [Layout.index?_eq]
  exact Word.index?_eq_some (by omega)

/-- A single element is a buffer for the largest surface if all pixels lie there, but the last word
is no place for a pixel. -/
theorem accepted_iff_pixels_held_one_element :
    (#[7] : Array Nat).size < Word.indexLimit ∧
      (∃ surface, new? .gray8 32768 32768 ⟨0, 0, 0⟩ #[7] = .ok surface) ∧
      (∀ index ∈ Layout.indices ⟨0, 0, 0⟩ 32768 32768, index < 1) ∧
      (∃ largest, IsGreatest (Layout.indices ⟨18446744073709551615, 0, 0⟩ 1 1) largest ∧
        Word.indexLimit ≤ largest + 1) ∧
      new? .gray8 1 1 ⟨18446744073709551615, 0, 0⟩ #[7] = .error .layoutOverflow := by
  have addressable : (#[7] : Array Nat).size < Word.indexLimit := by decide
  obtain ⟨_, held, _⟩ :=
    accepted_iff_pixels_held addressable .gray8 32768 32768 ⟨0, 0, 0⟩
  obtain ⟨_, _, overflows, _⟩ :=
    accepted_iff_pixels_held addressable .gray8 1 1 ⟨18446744073709551615, 0, 0⟩
  have made : ∃ surface, new? .gray8 32768 32768 ⟨0, 0, 0⟩ #[7] = .ok surface := ⟨_, rfl⟩
  have refused : new? .gray8 1 1 ⟨18446744073709551615, 0, 0⟩ #[7] = .error .layoutOverflow := rfl
  exact ⟨addressable, made, (held.mp made).2, (overflows.mp refused).2, refused⟩

/-- A side that is too long is found first, even if the layout overflows as well. -/
theorem size_refused_before_layout :
    (∃ largest, IsGreatest (Layout.indices ⟨18446744073709551615, 0, 0⟩ 32769 1) largest ∧
        Word.indexLimit ≤ largest + 1) ∧
      new? .gray8 32769 1 ⟨18446744073709551615, 0, 0⟩ #[7] =
        .error (.surfaceTooLarge 32769 1) ∧
      new? .gray8 32769 1 ⟨18446744073709551615, 0, 0⟩ #[7] ≠ .error .layoutOverflow := by
  have greatest := Layout.isGreatest_indices ⟨18446744073709551615, 0, 0⟩
    (by decide : 0 < 32769) (by decide : 0 < 1)
  have refused : new? .gray8 32769 1 ⟨18446744073709551615, 0, 0⟩ #[7] =
      .error (.surfaceTooLarge 32769 1) := new?_of_large (by decide)
  refine ⟨⟨_, greatest, by decide⟩, refused, ?_⟩
  rw [refused]
  nofun

end Construction

end Surface

end Raster
