import Mathlib.Tactic.NormNum
import Raster.Proofs.Paint.Bordering
import Raster.Proofs.Paint.Interpolating
import Raster.Proofs.Paint.Placing

/-!
# Sampling textures

An image covers an unbounded plane with texels: repeated without end, or continued by its edges.  A
texture shows the colors of this plane, at every position if it repeats and inside the image if not,
though it keeps no more of the plane than the image and a border one texel wide.  Only a texture so
large that the number of its texels wraps does not: it lacks texels of the image itself.
-/

namespace Raster

/-! ## Images -/

/-- A picture of packed colors by column and row. -/
structure Image where
  width : Nat
  height : Nat
  texel : Nat → Nat → Nat

namespace Image

/-- The image whose rows start `stride` elements apart in a buffer. -/
def ofBuffer (data : Array Nat) (width height stride : Nat) : Image where
  width := width
  height := height
  texel column row := data.getD (row * stride + column) 0

/-- The plane tiled with copies of the image. -/
def tiled (image : Image) : Texels := fun column row =>
  image.texel (column % image.width).toNat (row % image.height).toNat

/-- The plane onto which the edges of the image are continued. -/
def extended (image : Image) : Texels := fun column row =>
  image.texel (min column.toNat (image.width - 1)) (min row.toNat (image.height - 1))

/-- The plane around an image. -/
def plane (image : Image) (repeats : Bool) : Texels :=
  if repeats then image.tiled else image.extended

/-- Whether a position lies on the image. -/
def Covers (image : Image) (x y : ℚ) : Prop :=
  (0 ≤ x ∧ x < image.width) ∧ 0 ≤ y ∧ y < image.height

instance (image : Image) (x y : ℚ) : Decidable (image.Covers x y) :=
  inferInstanceAs (Decidable (_ ∧ _))

/-- The color that an image paints at a position.  It paints nothing around itself, unless it
repeats. -/
def colorAt (image : Image) (repeats interpolates : Bool) (x y : ℚ) : Nat :=
  if repeats ∨ image.Covers x y then
    (image.plane repeats).colorAt interpolates x y
  else
    0

/-- Copies of the image are alike. -/
theorem tiled_sub (image : Image) (column row columns rows : Int) :
    image.tiled (column - image.width * columns) (row - image.height * rows) =
      image.tiled column row := by
  simp only [tiled, Int.sub_mul_emod_self_left]

end Image

/-- Rows of equal length that follow each other are indexed by row and column. -/
theorem getElem?_flatten_of_equal {rows : List (List Nat)} {length : Nat}
    (equal : ∀ row ∈ rows, row.length = length) {column : Nat} (inside : column < length)
    (index : Nat) :
    rows.flatten[index * length + column]? = rows[index]?.bind fun row => row[column]? := by
  induction rows generalizing index with
  | nil => rfl
  | cons first rest inductionHypothesis =>
      have here := equal first List.mem_cons_self
      rw [List.flatten_cons]
      cases index with
      | zero =>
          rw [Nat.zero_mul, Nat.zero_add, List.getElem?_append_left (by omega)]
          rfl
      | succ index =>
          rw [Nat.succ_mul, List.getElem?_append_right (by omega), List.getElem?_cons_succ,
            ← inductionHypothesis fun row member => equal row (List.mem_cons_of_mem _ member)]
          congr 1
          omega

theorem length_flatten_of_equal {rows : List (List Nat)} {length : Nat}
    (equal : ∀ row ∈ rows, row.length = length) : rows.flatten.length = rows.length * length := by
  induction rows with
  | nil => exact (Nat.zero_mul length).symm
  | cons first rest inductionHypothesis =>
      rw [List.flatten_cons, List.length_append, equal first List.mem_cons_self,
        inductionHypothesis fun row member => equal row (List.mem_cons_of_mem _ member),
        List.length_cons, Nat.succ_mul, Nat.add_comm]

namespace Texture

/-! ## What a border shows -/

/-- The border of a repeating image continues the tiling. -/
theorem borderSource_of_repeats {extent : Nat} (positive : 0 < extent) {coordinate : Int}
    (first : -1 ≤ coordinate) (last : coordinate ≤ extent) :
    borderSource true extent (coordinate + 1).toNat = (coordinate % extent).toNat := by
  rcases lt_or_ge coordinate 0 with before | onward
  · have one : coordinate = -1 := by omega
    have opposite : coordinate % extent = extent - 1 := by
      rw [← Int.add_emod_right, Int.emod_eq_of_lt (by omega) (by omega), one]
      omega
    rw [opposite, one, borderSource, if_pos (by omega), if_pos rfl]
    omega
  · rcases eq_or_lt_of_le last with beyond | inside
    · rw [beyond, Int.emod_self, borderSource, if_neg (by omega), if_pos (by omega), if_pos rfl]
      rfl
    · rw [Int.emod_eq_of_lt onward inside, Int.toNat_add onward zero_le_one]
      exact borderSource_succ true (by omega)

/-- The border of another image continues its edges. -/
theorem borderSource_of_ends {extent : Nat} (positive : 0 < extent) {coordinate : Int}
    (first : -1 ≤ coordinate) (last : coordinate ≤ extent) :
    borderSource false extent (coordinate + 1).toNat = min coordinate.toNat (extent - 1) := by
  unfold borderSource
  grind

/-- The texture keeps an image and the texels of the plane next to it. -/
structure Shows (texture : Texture) (image : Image) : Prop where
  width : texture.width = image.width
  height : texture.height = image.height
  wide : 0 < image.width
  high : 0 < image.height
  size : texture.texels.size = (image.width + 2) * (image.height + 2)
  texel : ∀ {column row : Int}, -1 ≤ column → column ≤ image.width → -1 ≤ row →
    row ≤ image.height →
    texture.texel? column row = some (image.plane texture.repeats column row)

section Building

variable {data : Array Nat} {width height stride : Nat} {repeats : Bool} {toUser : Affine}

theorem length_of_mem_borderedRows {row : List Nat}
    (member : row ∈ borderedRows data width height stride repeats) : row.length = width + 2 := by
  obtain ⟨index, _, rfl⟩ := List.mem_map.mp member
  rw [List.length_map, List.length_range]

/-- The bordered image has as many texels as there is room for. -/
theorem length_borderedTexels :
    (borderedTexels data width height stride repeats).length = borderedCount width height := by
  rw [borderedTexels, List.length_append, List.length_replicate,
    length_flatten_of_equal fun row => length_of_mem_borderedRows, borderedRows, List.length_map,
    List.length_range, copiedRows]
  exact Nat.div_add_mod' _ _

/-- A texel of the plane is kept where the border says. -/
theorem texel_plane (wide : 0 < width) (high : 0 < height)
    (unwrapped : requiredLength width height stride < Word.indexLimit) {column row : Int}
    (columns : -1 ≤ column ∧ column ≤ width) (rows : -1 ≤ row ∧ row ≤ height) :
    data.getD (Word.wrapIndex (borderSource repeats height (row + 1).toNat * stride) +
        borderSource repeats width (column + 1).toNat) 0 =
      (Image.ofBuffer data width height stride).plane repeats column row := by
  have start : borderSource repeats height (row + 1).toNat * stride < Word.indexLimit := by
    have below : borderSource repeats height (row + 1).toNat < height :=
      borderSource_lt repeats high (by omega)
    have bound : borderSource repeats height (row + 1).toNat * stride ≤
        stride * (height - 1) := by
      rw [Nat.mul_comm]
      exact Nat.mul_le_mul_left stride (by omega)
    rw [requiredLength] at unwrapped
    omega
  rw [Word.wrapIndex_eq_self start]
  cases repeats with
  | true =>
      rw [borderSource_of_repeats wide columns.1 columns.2,
        borderSource_of_repeats high rows.1 rows.2]
      rfl
  | false =>
      rw [borderSource_of_ends wide columns.1 columns.2, borderSource_of_ends high rows.1 rows.2]
      rfl

theorem shows_ofRows (wide : 0 < width) (high : 0 < height)
    (held : requiredLength width height stride < Word.indexLimit)
    (unwrapped : (width + 2) * (height + 2) < Word.indexLimit) :
    (ofRows data width height stride repeats toUser).Shows
      (Image.ofBuffer data width height stride) where
  width := rfl
  height := rfl
  wide := wide
  high := high
  size := by
    rw [ofRows, List.size_toArray, length_borderedTexels, (copiedRows_eq unwrapped).1]
    rfl
  texel := by
    intro column row left right top bottom
    change column ≤ width at right
    change row ≤ height at bottom
    have index : ((row + 1) * ((width : Nat) + 2 : Int) + (column + 1)).toNat =
        (row + 1).toNat * (width + 2) + (column + 1).toNat := by
      have down : row + 1 = ((row + 1).toNat : Int) := by omega
      have across : column + 1 = ((column + 1).toNat : Int) := by omega
      rw [down, across]
      norm_cast
    obtain ⟨count, copied⟩ := copiedRows_eq unwrapped
    have equal : ∀ row ∈ borderedRows data width height stride repeats, row.length = width + 2 :=
      fun row => length_of_mem_borderedRows
    have rows : (borderedRows data width height stride repeats).length = height + 2 := by
      rw [borderedRows, List.length_map, List.length_range, copied]
    have inside : (row + 1).toNat * (width + 2) + (column + 1).toNat <
        (borderedRows data width height stride repeats).flatten.length := by
      have start := Nat.mul_le_mul_right (width + 2) (show (row + 1).toNat ≤ height + 1 by omega)
      rw [length_flatten_of_equal equal, rows, show height + 2 = height + 1 + 1 from rfl,
        Nat.succ_mul]
      omega
    have below : (row + 1).toNat * (width + 2) + (column + 1).toNat < Word.indexLimit := by
      rw [length_flatten_of_equal equal, rows, Nat.mul_comm (height + 2)] at inside
      exact inside.trans unwrapped
    rw [texel?]
    simp only [ofRows, index, List.getElem?_toArray]
    rw [Word.wrapIndex_eq_self below, borderedTexels, List.getElem?_append_left inside,
      getElem?_flatten_of_equal equal (by omega), borderedRows, copied,
      List.getElem?_map, List.getElem?_range (by omega), Option.map_some, Option.bind_some,
      List.getElem?_map, List.getElem?_range (by omega), Option.map_some,
      texel_plane wide high held ⟨left, right⟩ ⟨top, bottom⟩]

end Building

/-- What qualities and drawing transformations make of a texture. -/
inductive Adjusted (built : Texture) : Texture → Prop
  | unchanged : Adjusted built built
  | quality {texture : Texture} (adjusted : Adjusted built texture) (quality : Int) :
      Adjusted built (texture.setQuality quality)
  | drawn {texture : Texture} (adjusted : Adjusted built texture) (drawing : Affine) :
      Adjusted built (texture.draw drawing)

/-- Neither of them changes the image. -/
theorem Adjusted.same {built texture : Texture} (adjusted : Adjusted built texture) :
    texture.width = built.width ∧ texture.height = built.height ∧
      texture.texels = built.texels := by
  induction adjusted with
  | unchanged => exact ⟨rfl, rfl, rfl⟩
  | quality _ _ inductionHypothesis => exact inductionHypothesis
  | drawn _ _ inductionHypothesis => exact inductionHypothesis

/-- An adjusted texture still shows its image in the same way. -/
theorem Shows.adjusted {built texture : Texture} {image : Image} (shows : built.Shows image)
    (adjusted : Adjusted built texture) :
    texture.Shows image ∧ texture.repeats = built.repeats := by
  induction adjusted with
  | unchanged => exact ⟨shows, rfl⟩
  | quality _ _ inductionHypothesis =>
      obtain ⟨⟨width, height, wide, high, size, texel⟩, same⟩ := inductionHypothesis
      exact ⟨⟨width, height, wide, high, size, texel⟩, same⟩
  | drawn _ _ inductionHypothesis =>
      obtain ⟨⟨width, height, wide, high, size, texel⟩, same⟩ := inductionHypothesis
      exact ⟨⟨width, height, wide, high, size, texel⟩, same⟩

/-! ## Texels that are read -/

/-- The columns and rows of the texels that the color at a position is made of. -/
def reads (texture : Texture) (x y : Int) : List (Int × Int) :=
  match fold? texture.repeats texture.width x, fold? texture.repeats texture.height y with
  | some x, some y =>
      let left := (x - Fixed.half) / 65536
      let top := (y - Fixed.half) / 65536
      if texture.interpolates then
        [(left, top), (left + 1, top), (left, top + 1), (left + 1, top + 1)]
      else
        [(x / 65536, y / 65536)]
  | _, _ => []

/-- No other texels count. -/
theorem sample?_congr {texture : Texture} {texels : Array Nat} {x y : Int}
    (same : ∀ place ∈ texture.reads x y,
      { texture with texels := texels }.texel? place.1 place.2 =
        texture.texel? place.1 place.2) :
    { texture with texels := texels }.sample? x y = texture.sample? x y := by
  simp only [sample?, reads] at same ⊢
  cases foldedX : fold? texture.repeats texture.width x with
  | none => rfl
  | some column =>
      cases foldedY : fold? texture.repeats texture.height y with
      | none => rfl
      | some row =>
          simp only [foldedX, foldedY] at same ⊢
          split at same
          · rename_i interpolates
            rw [if_pos interpolates, if_pos interpolates]
            simp only [List.forall_mem_cons] at same
            obtain ⟨leftTop, rightTop, leftBottom, rightBottom, _⟩ := same
            rw [interpolate?, leftTop, rightTop, leftBottom, rightBottom, interpolate?]
          · rename_i nearest
            rw [if_neg nearest, if_neg nearest]
            exact same _ List.mem_cons_self

/-- A coordinate is folded into the image by whole extents of it, and by none if the image does not
repeat. -/
theorem exists_of_fold? {repeats : Bool} {extent : Nat} (positive : 0 < extent)
    {coordinate folded : Int} (done : fold? repeats extent coordinate = some folded) :
    (0 ≤ folded ∧ folded < extent * 65536) ∧
      ∃ periods, folded = coordinate - 65536 * (extent * periods) ∧
        (repeats = false → periods = 0) := by
  unfold fold? at done
  cases repeats with
  | true =>
      have equal := Option.some.inj done
      refine ⟨?_, coordinate / (extent * 65536), ?_, by simp⟩
      · rw [← equal]
        exact ⟨Int.emod_nonneg _ (by omega), Int.emod_lt_of_pos _ (by omega)⟩
      · rw [← equal, Int.emod_def]
        ring
  | false =>
      by_cases outside : coordinate < 0 ∨ (extent : Int) * 65536 ≤ coordinate
      · simp [outside] at done
      · simp only [outside, if_false, Bool.false_eq_true, Option.some.injEq] at done
        exact ⟨by omega, 0, by omega, fun _ => rfl⟩

/-- Texels around a folded coordinate are texels of the border or the image. -/
theorem places_of_folded {extent : Nat} {folded : Int}
    (inside : 0 ≤ folded ∧ folded < extent * 65536) :
    (-1 ≤ (folded - Fixed.half) / 65536 ∧ (folded - Fixed.half) / 65536 + 1 ≤ extent) ∧
      0 ≤ folded / 65536 ∧ folded / 65536 < extent := by
  unfold Fixed.half
  omega

theorem Shows.of_mem_reads {texture : Texture} {image : Image} (shows : texture.Shows image)
    {x y : Int} {place : Int × Int} (member : place ∈ texture.reads x y) :
    (-1 ≤ place.1 ∧ place.1 ≤ image.width) ∧ -1 ≤ place.2 ∧ place.2 ≤ image.height := by
  simp only [reads] at member
  split at member
  · rename_i column row foldedColumn foldedRow
    rw [shows.width] at foldedColumn
    rw [shows.height] at foldedRow
    have columns := places_of_folded (exists_of_fold? shows.wide foldedColumn).1
    have rows := places_of_folded (exists_of_fold? shows.high foldedRow).1
    split at member
    · simp only [List.mem_cons, List.not_mem_nil, or_false] at member
      rcases member with rfl | rfl | rfl | rfl <;> dsimp only <;> omega
    · rw [List.mem_singleton.mp member]
      dsimp only
      omega
  · cases member

/-- The place of a texel that is kept is a place of the array. -/
theorem Shows.index_lt {texture : Texture} {image : Image} (shows : texture.Shows image)
    {column row : Int} (columns : -1 ≤ column ∧ column ≤ image.width)
    (rows : -1 ≤ row ∧ row ≤ image.height) :
    0 ≤ (row + 1) * (texture.width + 2) + (column + 1) ∧
      (row + 1) * (texture.width + 2) + (column + 1) < texture.texels.size := by
  have start : (row + 1) * ((image.width : Int) + 2) ≤ (image.height + 1) * (image.width + 2) :=
    Int.mul_le_mul_of_nonneg_right (by omega) (by omega)
  have nonneg : 0 ≤ (row + 1) * ((image.width : Int) + 2) :=
    Int.mul_nonneg (by omega) (by omega)
  rw [shows.size, shows.width]
  push_cast
  constructor
  · omega
  · linarith

/-! ## The plane that is shown -/

/-- Positions that differ by whole copies of a repeating image have the same color. -/
theorem plane_sub (image : Image) {repeats : Bool} {columns rows : Int}
    (alone : repeats = false → columns = 0 ∧ rows = 0) (column row : Int) :
    image.plane repeats (column - image.width * columns) (row - image.height * rows) =
      image.plane repeats column row := by
  cases repeats with
  | true => exact image.tiled_sub column row columns rows
  | false =>
      rw [(alone rfl).1, (alone rfl).2, mul_zero, mul_zero, sub_zero, sub_zero]

theorem blended_of_periodic {texels : Texels} {columns rows : Int}
    (periodic : ∀ column row, texels (column - columns) (row - rows) = texels column row)
    (x y : Int) :
    texels.blended (x - 65536 * columns) (y - 65536 * rows) = texels.blended x y := by
  have cell (raw periods : Int) :
      (raw - 65536 * periods - Fixed.half) / 65536 = (raw - Fixed.half) / 65536 - periods := by
    omega
  have share (raw periods : Int) :
      (raw - 65536 * periods - Fixed.half) % 65536 = (raw - Fixed.half) % 65536 := by
    omega
  simp only [Texels.blended, cell, share, sub_add_eq_add_sub, periodic]

/-- A fixed-point position lies on an image exactly if both its coordinates stay as they are. -/
theorem covers_iff (image : Image) (x y : Int) :
    image.Covers ((x : ℚ) / 65536) ((y : ℚ) / 65536) ↔
      (0 ≤ x ∧ x < image.width * 65536) ∧ 0 ≤ y ∧ y < image.height * 65536 := by
  have nonneg (raw : Int) : 0 ≤ (raw : ℚ) / 65536 ↔ 0 ≤ raw := by
    rw [le_div_iff₀ (by norm_num), zero_mul, Int.cast_nonneg_iff]
  have below (raw : Int) (extent : Nat) :
      (raw : ℚ) / 65536 < extent ↔ raw < extent * 65536 := by
    rw [div_lt_iff₀ (by norm_num)]
    norm_cast
  rw [Image.Covers, nonneg, nonneg, below, below]

/-- Only a coordinate outside an image that does not repeat is not folded into it. -/
theorem fold?_eq_none_iff {repeats : Bool} {extent : Nat} {coordinate : Int} :
    fold? repeats extent coordinate = none ↔
      ¬ (repeats = true ∨ 0 ≤ coordinate ∧ coordinate < extent * 65536) := by
  unfold fold?
  cases repeats with
  | true => simp
  | false =>
      simp only [Bool.false_eq_true, if_false, false_or]
      split <;> simp only [reduceCtorEq, true_iff, false_iff] <;> omega

theorem Shows.sample?_of_folded {texture : Texture} {image : Image} (shows : texture.Shows image)
    {x y column row : Int} (foldedX : fold? texture.repeats texture.width x = some column)
    (foldedY : fold? texture.repeats texture.height y = some row) :
    texture.sample? x y = some ((image.plane texture.repeats).colorAt texture.interpolates
      (x / 65536) (y / 65536)) := by
  have inImageX := shows.width ▸ foldedX
  have inImageY := shows.height ▸ foldedY
  obtain ⟨insideX, columns, columnEq, aloneX⟩ := exists_of_fold? shows.wide inImageX
  obtain ⟨insideY, rows, rowEq, aloneY⟩ := exists_of_fold? shows.high inImageY
  have periodic := plane_sub image fun once => ⟨aloneX once, aloneY once⟩
  obtain ⟨aroundX, nearestX⟩ := places_of_folded insideX
  obtain ⟨aroundY, nearestY⟩ := places_of_folded insideY
  simp only [sample?, foldedX, foldedY, Texels.colorAt]
  split
  · rw [Texels.interpolated_eq_blended, ← blended_of_periodic periodic x y, ← columnEq, ← rowEq,
      interpolate?, shows.texel (by omega) (by omega) (by omega) (by omega),
      shows.texel (by omega) (by omega) (by omega) (by omega),
      shows.texel (by omega) (by omega) (by omega) (by omega),
      shows.texel (by omega) (by omega) (by omega) (by omega)]
    rfl
  · have cell (raw periods : Int) : (raw - 65536 * periods) / 65536 = raw / 65536 - periods := by
      omega
    rw [shows.texel (by omega) (by omega) (by omega) (by omega), Texels.floor_fixed,
      Texels.floor_fixed, columnEq, rowEq, cell, cell, periodic]

/-- Every position of a texture has the color that its image paints there. -/
theorem Shows.sample?_eq {texture : Texture} {image : Image} (shows : texture.Shows image)
    (x y : Int) :
    texture.sample? x y =
      some (image.colorAt texture.repeats texture.interpolates (x / 65536) (y / 65536)) := by
  have covers := covers_iff image x y
  have missX : fold? texture.repeats texture.width x = none ↔ _ := fold?_eq_none_iff
  have missY : fold? texture.repeats texture.height y = none ↔ _ := fold?_eq_none_iff
  rw [shows.width] at missX
  rw [shows.height] at missY
  rw [Image.colorAt]
  cases foldedX : fold? texture.repeats texture.width x with
  | none =>
      have outside := missX.mp (shows.width ▸ foldedX)
      rw [if_neg fun painted => outside (painted.imp_right fun covered => (covers.mp covered).1),
        sample?, foldedX]
  | some column =>
      cases foldedY : fold? texture.repeats texture.height y with
      | none =>
          have outside := missY.mp (shows.height ▸ foldedY)
          rw [if_neg fun painted =>
            outside (painted.imp_right fun covered => (covers.mp covered).2), sample?, foldedX,
            foldedY]
      | some row =>
          have insideX := not_not.mp (mt missX.mpr (by simp [← shows.width, foldedX]))
          have insideY := not_not.mp (mt missY.mpr (by simp [← shows.height, foldedY]))
          rw [if_pos (insideX.elim .inl fun inX => insideY.imp_right fun inY =>
            covers.mpr ⟨inX, inY⟩), shows.sample?_of_folded foldedX foldedY]

section Building

variable {data : Array Nat} {width height stride : Nat} {repeats : Bool} {toUser : Affine}

/-- A texture whose number of texels does not wrap keeps all of its image. -/
theorem shows_of_new? (room : 2 * data.size ≤ Word.indexLimit) (index : stride < Word.indexLimit)
    (unwrapped : (width + 2) * (height + 2) < Word.indexLimit) {built texture : Texture}
    (accepted : new? data width height stride repeats toUser = .ok (.ok built))
    (adjusted : Adjusted built texture) :
    texture.Shows (Image.ofBuffer data width height stride) ∧ texture.repeats = repeats ∧
      requiredLength width height stride ≤ data.size := by
  obtain ⟨rfl, wide, high, apart, _, copied⟩ := eq_ofRows_of_new? accepted
  have enough := (rowsHeld_iff room index wide high).mp
    ((copiesHeld_iff_rowsHeld high unwrapped).mp copied)
  have held : requiredLength width height stride < Word.indexLimit := by
    have positive : 0 < Word.indexLimit := by decide
    omega
  obtain ⟨shows, repeating⟩ := (shows_ofRows wide high held unwrapped).adjusted adjusted
  exact ⟨shows, repeating, enough⟩

/-- A paint of such a texture lacks no colors. -/
theorem isWhole_of_new? (room : 2 * data.size ≤ Word.indexLimit) (index : stride < Word.indexLimit)
    (unwrapped : (width + 2) * (height + 2) < Word.indexLimit) {built texture : Texture}
    (accepted : new? data width height stride repeats toUser = .ok (.ok built))
    (adjusted : Adjusted built texture) : (Paint.image texture).IsWhole := by
  apply Paint.isWhole_image
  intro x y
  rw [(shows_of_new? room index unwrapped accepted adjusted).1.sample?_eq]
  rfl

/-- A texture whose number of texels wraps lacks the texel in its second column and row. -/
theorem sample?_of_wraps (width32 : width < 4294967296) (height32 : height < 4294967296)
    (wraps : Word.indexLimit ≤ (width + 2) * (height + 2)) {built texture : Texture}
    (accepted : new? data width height stride repeats toUser = .ok (.ok built))
    (adjusted : Adjusted built texture) : texture.sample? 98304 98304 = none := by
  obtain ⟨wide, high, _, copied⟩ := copiedRows_le_one width32 height32 wraps
  obtain ⟨rfl, _⟩ := eq_ofRows_of_new? accepted
  obtain ⟨sameWidth, sameHeight, sameTexels⟩ := adjusted.same
  change texture.width = width at sameWidth
  have size : texture.texels.size < 2 * (width + 2) := by
    rw [sameTexels, ofRows, List.size_toArray, length_borderedTexels]
    rw [copiedRows] at copied
    exact (Nat.div_lt_iff_lt_mul (by omega)).mp (by omega)
  have missing : texture.texel? 1 1 = none := by
    have place : ((1 + 1 : Int) * (texture.width + 2) + (1 + 1)).toNat = 2 * (width + 2) + 2 := by
      rw [sameWidth]
      omega
    have limit : Word.indexLimit = 18446744073709551616 := rfl
    rw [texel?, place, Word.wrapIndex_eq_self (by omega)]
    exact Array.getElem?_eq_none (by omega)
  have folded : ∀ {extent : Nat}, 4294967294 ≤ extent →
      fold? texture.repeats extent 98304 = some 98304 := by
    intro extent large
    have stays : (98304 : Int) % (extent * 65536) = 98304 := Int.emod_eq_of_lt (by omega) (by omega)
    unfold fold?
    cases texture.repeats with
    | true => rw [if_pos rfl, stays]
    | false => rw [if_neg Bool.false_ne_true, if_neg (by omega)]
  rw [sample?, folded (sameWidth ▸ wide), folded (sameHeight ▸ high)]
  simp only
  split
  · change (texture.texel? 1 1).bind _ = none
    rw [missing]
    rfl
  · exact missing

/-- Sampling a texture gives the color of the ideal plane around its image, at every position and
under every quality, unless the number of its texels wraps.  It reads texels that the texture keeps
and no others, and an interpolated color stays between the four texels around the position.  If the
number wraps, there is a position of the image whose texel the texture does not keep. -/
theorem sample_of_ideal_plane (room : 2 * data.size ≤ Word.indexLimit)
    (index : stride < Word.indexLimit) {built : Texture}
    (accepted : new? data width height stride repeats toUser = .ok (.ok built)) {texture : Texture}
    (adjusted : Adjusted built texture) :
    ((width + 2) * (height + 2) < Word.indexLimit → ∀ x y,
      (∀ row < height, ∀ column < width, row * stride + column < data.size) ∧
      (∀ place ∈ texture.reads x y,
        0 ≤ (place.2 + 1) * (texture.width + 2) + (place.1 + 1) ∧
          (place.2 + 1) * (texture.width + 2) + (place.1 + 1) < texture.texels.size) ∧
      (∀ texels : Array Nat,
        (∀ place ∈ texture.reads x y, { texture with texels := texels }.texel? place.1 place.2 =
          texture.texel? place.1 place.2) →
        { texture with texels := texels }.sample? x y = texture.sample? x y) ∧
      texture.sample? x y = some ((Image.ofBuffer data width height stride).colorAt repeats
        texture.interpolates (x / 65536) (y / 65536)) ∧
      (texture.interpolates = true →
        repeats = true ∨ (Image.ofBuffer data width height stride).Covers (x / 65536) (y / 65536) →
        ∀ word, texture.sample? x y = some word →
          ((Image.ofBuffer data width height stride).plane repeats).Interpolates
            (x / 65536) (y / 65536) word)) ∧
    (width < 4294967296 → height < 4294967296 →
      ((∀ x y, Word.Fits64 x → Word.Fits64 y → texture.sample? x y ≠ none) ↔
        (width + 2) * (height + 2) < Word.indexLimit)) := by
  have unlessWrapped (unwrapped : (width + 2) * (height + 2) < Word.indexLimit) :=
    shows_of_new? room index unwrapped accepted adjusted
  refine ⟨fun unwrapped x y => ?_, fun width32 height32 => ⟨fun colored => ?_, ?_⟩⟩
  · obtain ⟨shows, repeating, enough⟩ := unlessWrapped unwrapped
    have sampled := shows.sample?_eq x y
    rw [repeating] at sampled
    refine ⟨?_, ?_, fun texels same => sample?_congr same, sampled, ?_⟩
    · intro row above column inside
      have start := Nat.mul_le_mul_left stride (show row ≤ height - 1 by omega)
      rw [requiredLength] at enough
      rw [Nat.mul_comm]
      omega
    · intro place member
      have kept := shows.of_mem_reads member
      exact shows.index_lt kept.1 kept.2
    · intro interpolates painted word colored
      rw [sampled, interpolates] at colored
      rw [← Option.some.inj colored, Image.colorAt, if_pos painted, Texels.colorAt,
        if_pos rfl, Texels.interpolated_eq_blended]
      exact Texels.interpolates_blended _ x y
  · by_contra wraps
    exact colored 98304 98304 (by decide) (by decide)
      (sample?_of_wraps width32 height32 (not_lt.mp wraps) accepted adjusted)
  · intro unwrapped x y _ _ missing
    rw [(unlessWrapped unwrapped).1.sample?_eq x y] at missing
    cases missing

/-- Where two copies of an image of a black and a blue texel meet, the color is halfway between
them. -/
theorem sample_of_ideal_plane_seam :
    let data : Array Nat := #[4278190080, 4278190335]
    let built := ofRows data 2 1 2 true .identity
    (2 * data.size ≤ Word.indexLimit ∧ 2 < Word.indexLimit ∧
      new? data 2 1 2 true .identity = .ok (.ok built) ∧
      Adjusted built (built.setQuality 65536) ∧ (2 + 2) * (1 + 2) < Word.indexLimit) ∧
    (built.setQuality 65536).sample? 0 0 = some 4278190208 ∧
    (Image.ofBuffer data 2 1 2).colorAt true true 0 0 = 4278190208 := by
  intro data built
  have accepted : new? data 2 1 2 true .identity = .ok (.ok built) := rfl
  have adjusted : Adjusted built (built.setQuality 65536) := .quality .unchanged 65536
  have unwrapped : (2 + 2) * (1 + 2) < Word.indexLimit := by decide
  obtain ⟨_, _, _, sampled, _⟩ :=
    (sample_of_ideal_plane (by decide) (by decide) accepted adjusted).1 unwrapped 0 0
  have seam : (built.setQuality 65536).sample? 0 0 = some 4278190208 := by decide
  refine ⟨⟨by decide, by decide, accepted, adjusted, unwrapped⟩, seam, ?_⟩
  rw [seam, Int.cast_zero, zero_div] at sampled
  exact (Option.some.inj sampled).symm

/-- A texture that is built from one white texel as the image of more texels than there are indices
keeps none, although the first of them is white. -/
theorem texel_missing_of_wrapped_count :
    ∃ texture, new? #[4294967295] 4294967294 4294967294 18446744073709551615 false .identity =
        .ok (.ok texture) ∧
      (Image.ofBuffer #[4294967295] 4294967294 4294967294 18446744073709551615).colorAt false false
        (32768 / 65536) (32768 / 65536) = 4294967295 ∧
      texture.sample? 32768 32768 = none := by
  have covers : (Image.ofBuffer #[4294967295] 4294967294 4294967294 18446744073709551615).Covers
      (32768 / 65536) (32768 / 65536) := by
    norm_num [Image.Covers, Image.ofBuffer]
  have first : ⌊(32768 / 65536 : ℚ)⌋ = 0 := by norm_num
  refine ⟨_, rfl, ?_, rfl⟩
  rw [Image.colorAt, if_pos (.inr covers), Texels.colorAt, if_neg Bool.false_ne_true, first]
  rfl

end Building

end Texture

end Raster
