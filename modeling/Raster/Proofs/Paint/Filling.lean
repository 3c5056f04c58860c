import Raster.Proofs.Fault
import Raster.Proofs.Paint.Sampling

/-!
# Filling blocks

A block is filled row by row.  Each row starts at its first touched pixel, but as the color of a
pixel does not depend on where its row starts, each touched pixel gets its own color.  Two numbers
are narrowed on the way: a width that is no signed 64-bit integer becomes negative and hides all
pixels, and positions wrap around the ends of the 32-bit range.
-/

namespace Raster

namespace Paint

/-! ## Overwriting -/

section Overwriting

variable {target : Array Nat} {start place : Nat} {colors : List Nat}

theorem overwrite_cons (color : Nat) :
    overwrite target start (color :: colors) =
      overwrite (target.setIfInBounds start color) (start + 1) colors :=
  rfl

theorem size_overwrite : (overwrite target start colors).size = target.size := by
  induction colors generalizing target start with
  | nil => rfl
  | cons color colors inductionHypothesis =>
      rw [overwrite_cons, inductionHypothesis, Array.size_setIfInBounds]

theorem getElem?_overwrite_outside
    (outside : place < start ∨ start + colors.length ≤ place) :
    (overwrite target start colors)[place]? = target[place]? := by
  induction colors generalizing target start with
  | nil => rfl
  | cons color colors inductionHypothesis =>
      rw [List.length_cons] at outside
      rw [overwrite_cons, inductionHypothesis (by omega),
        Array.getElem?_setIfInBounds_ne (by omega)]

theorem getElem?_overwrite_inside {index : Nat} (room : start + colors.length ≤ target.size)
    (inside : index < colors.length) :
    (overwrite target start colors)[start + index]? = colors[index]? := by
  induction colors generalizing target start index with
  | nil => cases inside
  | cons color colors inductionHypothesis =>
      rw [List.length_cons] at room inside
      rw [overwrite_cons]
      cases index with
      | zero =>
          rw [getElem?_overwrite_outside (by omega), Nat.add_zero,
            Array.getElem?_setIfInBounds_self_of_lt (by omega), List.getElem?_cons_zero]
      | succ index =>
          rw [← Nat.add_assoc, Nat.add_right_comm, List.getElem?_cons_succ]
          exact inductionHypothesis (by rw [Array.size_setIfInBounds]; omega) (by omega)

/-- Elements that are written where they were read are left as they were. -/
theorem overwrite_extract {stop : Nat} (room : stop ≤ target.size) :
    overwrite target start (target.extract start stop).toList = target := by
  have length : (target.extract start stop).toList.length = stop - start := by
    rw [Array.length_toList, Array.size_extract, Nat.min_eq_left room]
  refine Array.ext_getElem? fun place => ?_
  by_cases inside : start ≤ place ∧ place < stop
  · obtain ⟨index, rfl⟩ := Nat.exists_eq_add_of_le inside.1
    rw [getElem?_overwrite_inside (by omega) (by omega), Array.getElem?_toList,
      Array.getElem?_extract, if_pos (by omega)]
  · exact getElem?_overwrite_outside (by omega)

end Overwriting

/-! ## Painting rows -/

section Painting

variable {paint : Paint} {x y : Int} {row : List Nat}

/-- A degenerate paint writes nothing. -/
theorem paintRow_of_isDegenerate (blank : paint.isDegenerate = true) :
    paint.paintRow x y row = .ok row := by
  rw [paintRow, if_pos blank]

/-- Other paints write their colors, whatever was there before. -/
theorem paintRow_eq_ok_iff (sound : paint.isDegenerate = false) {colors : List Nat} :
    paint.paintRow x y row = .ok colors ↔ paint.row? x y row.length = some colors := by
  rw [paintRow, if_neg (by rw [sound]; exact Bool.false_ne_true)]
  cases paint.row? x y row.length <;> simp

theorem IsWhole.exists_paintRow (whole : paint.IsWhole) (x y : Int) (row : List Nat) :
    ∃ colors, paint.paintRow x y row = .ok colors := by
  cases blank : paint.isDegenerate with
  | true => exact ⟨row, paintRow_of_isDegenerate blank⟩
  | false =>
      obtain ⟨colors, evaluated⟩ := Option.isSome_iff_exists.mp (whole blank x y row.length)
      exact ⟨colors, (paintRow_eq_ok_iff blank).mpr evaluated⟩

end Painting

/-! ## Rows -/

namespace Block

variable (block : Block)

/-- The first and the last touched pixel of a row; a row without an entry has none. -/
def rowTouched (row : Nat) : Int × Int :=
  block.touched.getD row (0, -1)

/-- The first column of a row that is touched. -/
def firstColumn (row : Nat) : Int :=
  max (block.rowTouched row).1 0

/-- The last column of a row that is touched. -/
def lastColumn (row : Nat) : Int :=
  min (block.rowTouched row).2 (block.width - 1)

/-- The pixel in a row and a column of the block is touched. -/
def Touches (row column : Nat) : Prop :=
  row < block.height ∧ row < block.touched.length ∧ block.firstColumn row ≤ column ∧
    (column : Int) ≤ block.lastColumn row

/-- The element of the buffer for a pixel of the block. -/
def place (row column : Nat) : Nat :=
  row * block.stride + column

instance (row column : Nat) : Decidable (block.Touches row column) :=
  inferInstanceAs (Decidable (_ ∧ _))

/-- A buffer of this size has an element for every touched pixel. -/
def HasRoom (size : Nat) : Prop :=
  ∀ row column, block.Touches row column → block.place row column < size

/-- The pixel of the device that the color of a pixel of the block is computed for: the row starts
where the first touched pixel wraps to. -/
def devicePixel (row column : Nat) : Int × Int :=
  (Word.wrap32 (block.x + block.firstColumn row) + (column - block.firstColumn row),
    Word.wrap32 (block.y + row))

/-- The column that filling a row stops before, computed from the width as a signed integer. -/
def stop (row : Nat) : Int :=
  min ((block.rowTouched row).2 + 1) (Word.wrap64 block.width)

/-- Filling a row passes a column. -/
def Fills (row column : Nat) : Prop :=
  block.firstColumn row ≤ column ∧ (column : Int) < block.stop row

/-- Filling the block passes a column of a row that the block has. -/
def Passes (row column : Nat) : Prop :=
  row < block.height ∧ row < block.touched.length ∧ block.Fills row column

/-- All elements that filling the block passes are below a limit. -/
def PassesBelow (limit : Nat) : Prop :=
  ∀ row column, block.Passes row column → block.place row column < limit

/-- The rows of the block with their entries. -/
def rows : List ((Int × Int) × Nat) :=
  (block.touched.take block.height).zipIdx

variable {block} {row column : Nat}

theorem mem_rows_iff {touched : Int × Int} :
    (touched, row) ∈ block.rows ↔
      row < block.height ∧ row < block.touched.length ∧ touched = block.rowTouched row := by
  rw [rows, List.mem_zipIdx_iff_getElem?, List.getElem?_take, rowTouched,
    List.getD_eq_getElem?_getD]
  split
  · rename_i below
    rw [List.getElem?_eq_some_iff]
    constructor
    · rintro ⟨inside, found⟩
      exact ⟨below, inside, by rw [List.getElem?_eq_getElem inside, found]; rfl⟩
    · rintro ⟨_, inside, found⟩
      exact ⟨inside, by rw [found, List.getElem?_eq_getElem inside]; rfl⟩
  · grind

/-- A width that is a signed integer leaves the touched columns. -/
theorem passes_iff_of_narrow (narrow : (block.width : Int) ≤ Word.max64) :
    block.Passes row column ↔ block.Touches row column := by
  have fits : Word.Fits64 block.width := ⟨by unfold Word.min64; omega, narrow⟩
  rw [Passes, Touches, Fills, stop, lastColumn, Word.wrap64_eq_self fits]
  omega

/-- Any greater width leaves no column. -/
theorem not_passes_of_wide (wide : Word.max64 < (block.width : Int))
    (index : block.width < Word.indexLimit) : ¬ block.Passes row column := by
  unfold Word.max64 at wide
  unfold Word.indexLimit at index
  rw [Passes, Fills, stop, Word.wrap64]
  omega

theorem touches_of_passes (index : block.width < Word.indexLimit)
    (passes : block.Passes row column) : block.Touches row column := by
  by_cases narrow : (block.width : Int) ≤ Word.max64
  · exact (passes_iff_of_narrow narrow).mp passes
  · exact absurd passes (not_passes_of_wide (by omega) index)

/-- Rows that do not overlap put their pixels in different elements. -/
theorem place_ne_of_row_ne (apart : block.width ≤ block.stride) {otherRow otherColumn : Nat}
    (touches : block.Touches row column) (otherTouches : block.Touches otherRow otherColumn)
    (ne : otherRow ≠ row) : block.place otherRow otherColumn ≠ block.place row column := by
  have inside {row column : Nat} (touches : block.Touches row column) : column < block.stride := by
    have last := touches.2.2.2
    rw [lastColumn] at last
    omega
  have row_eq {row column : Nat} (touches : block.Touches row column) :
      block.place row column / block.stride = row := by
    have below := inside touches
    rw [place, Nat.mul_comm, Nat.mul_add_div (by omega), Nat.div_eq_of_lt below, Nat.add_zero]
  intro same
  exact ne (by rw [← row_eq otherTouches, same, row_eq touches])

/-- A row that is filled ends where its last element does. -/
theorem end_le_of_fills {limit : Nat} (nonempty : ¬ block.stop row ≤ block.firstColumn row)
    (below : ∀ column, block.Fills row column → block.place row column < limit) :
    row * block.stride < limit ∧ row * block.stride + (block.stop row).toNat ≤ limit := by
  have nonneg : 0 ≤ block.firstColumn row := le_max_right _ _
  have last := below (block.stop row - 1).toNat ⟨by omega, by omega⟩
  rw [place] at last
  omega

theorem devicePixel_eq_of_fits (xFits : Word.Fits32 block.x)
    (touched : block.firstColumn row ≤ column) (columnFits : Word.Fits32 (block.x + column))
    (rowFits : Word.Fits32 (block.y + row)) :
    block.devicePixel row column = (block.x + column, block.y + row) := by
  have first : Word.Fits32 (block.x + block.firstColumn row) := by
    have nonneg : 0 ≤ block.firstColumn row := le_max_right _ _
    exact ⟨by have := xFits.1; omega, by have := columnFits.2; omega⟩
  rw [devicePixel, Word.wrap32_eq_self first, Word.wrap32_eq_self rowFits]
  exact Prod.ext (by simp only; omega) rfl

end Block

/-! ## Filling rows -/

section Filling

variable {paint : Paint} {block : Block} {row : Nat} {before after : Array Nat}

/-- What filling a row makes of a buffer. -/
structure RowFilled (paint : Paint) (block : Block) (row : Nat) (before after : Array Nat) :
    Prop where
  size : after.size = before.size
  written : paint.isDegenerate = false → ∀ column, block.Fills row column →
    after[block.place row column]? =
      paint.pixel? (block.devicePixel row column).1 (block.devicePixel row column).2
  kept : ∀ place, (∀ column, block.Fills row column → place ≠ block.place row column) →
    after[place]? = before[place]?
  blank : paint.isDegenerate = true → after = before

theorem fillRow_rowTouched :
    paint.fillRow block row (block.rowTouched row) before =
      if block.stop row ≤ block.firstColumn row then
        .ok before
      else if Word.wrapIndex (row * block.stride) + (block.stop row).toNat ≤ before.size then do
        let place := Word.wrapIndex (row * block.stride) + (block.firstColumn row).toNat
        let stop := Word.wrapIndex (row * block.stride) + (block.stop row).toNat
        let colors ← paint.paintRow (Word.wrap32 (block.x + block.firstColumn row))
          (Word.wrap32 (block.y + row)) (before.extract place stop).toList
        pure (overwrite before place colors)
      else
        .error .rowOutsideBuffer :=
  rfl

theorem exists_fillRow_eq_ok (whole : paint.IsWhole)
    (room : ∀ column, block.Fills row column → block.place row column < before.size) :
    ∃ after, paint.fillRow block row (block.rowTouched row) before = .ok after := by
  rw [fillRow_rowTouched]
  split
  · exact ⟨before, rfl⟩
  · rename_i nonempty
    have inside := (Block.end_le_of_fills nonempty room).2
    have start := Word.wrapIndex_le (row * block.stride)
    obtain ⟨colors, painted⟩ := whole.exists_paintRow
      (Word.wrap32 (block.x + block.firstColumn row)) (Word.wrap32 (block.y + row))
      (before.extract (Word.wrapIndex (row * block.stride) + (block.firstColumn row).toNat)
        (Word.wrapIndex (row * block.stride) + (block.stop row).toNat)).toList
    rw [if_pos (by omega)]
    simp only [painted]
    exact ⟨_, rfl⟩

/-- A row without pixels, or of a paint without colors, is left as it is. -/
theorem rowFilled_refl (idle : paint.isDegenerate = true ∨ ∀ column, ¬ block.Fills row column) :
    RowFilled paint block row before before := by
  refine ⟨rfl, fun sound column fills => ?_, fun _ _ => rfl, fun _ => rfl⟩
  rcases idle with blank | empty
  · cases blank.symm.trans sound
  · exact absurd fills (empty column)

/-- The colors of a row that starts at its first touched pixel, written from there on. -/
theorem rowFilled_overwrite (placed : paint.isRadial = false) {colors : List Nat}
    (evaluated : paint.row? (Word.wrap32 (block.x + block.firstColumn row))
      (Word.wrap32 (block.y + row)) (block.stop row - block.firstColumn row).toNat = some colors)
    (room : row * block.stride + (block.stop row).toNat ≤ before.size) :
    RowFilled paint block row before
      (overwrite before (row * block.stride + (block.firstColumn row).toNat) colors) := by
  have length := length_row? evaluated
  have nonneg : 0 ≤ block.firstColumn row := le_max_right _ _
  refine ⟨size_overwrite, fun _ column fills => ?_, fun place other => ?_, fun blank => ?_⟩
  · obtain ⟨touched, inside⟩ := fills
    have below : (column - block.firstColumn row).toNat <
      (block.stop row - block.firstColumn row).toNat := by omega
    have color := getElem?_row? placed evaluated below
    rw [Int.toNat_of_nonneg (by omega)] at color
    have offset : block.place row column = row * block.stride + (block.firstColumn row).toNat +
        (column - block.firstColumn row).toNat := by
      rw [Block.place]
      omega
    rw [offset, getElem?_overwrite_inside (by omega) (by omega), color]
    rfl
  · refine getElem?_overwrite_outside ?_
    by_contra inside
    refine other (place - row * block.stride) ⟨by omega, by omega⟩ ?_
    rw [Block.place]
    omega
  · rw [row?_of_isDegenerate blank] at evaluated
    cases evaluated

theorem rowFilled_of_fillRow (placed : paint.isRadial = false)
    (unwrapped : ∀ column, block.Fills row column → block.place row column < Word.indexLimit)
    (done : paint.fillRow block row (block.rowTouched row) before = .ok after) :
    RowFilled paint block row before after := by
  rw [fillRow_rowTouched] at done
  split at done
  · rename_i empty
    cases done
    exact rowFilled_refl (.inr fun column fills => by obtain ⟨touched, inside⟩ := fills; omega)
  · rename_i nonempty
    rw [Word.wrapIndex_eq_self (Block.end_le_of_fills nonempty unwrapped).1] at done
    split at done
    · rename_i room
      obtain ⟨colors, painted, written⟩ := exists_of_bind_eq_ok done
      cases written
      cases sound : paint.isDegenerate with
      | true =>
          rw [paintRow_of_isDegenerate sound, Except.ok.injEq] at painted
          rw [← painted, overwrite_extract room]
          exact rowFilled_refl (.inl sound)
      | false =>
          have nonneg : 0 ≤ block.firstColumn row := le_max_right _ _
          rw [paintRow_eq_ok_iff sound, Array.length_toList, Array.size_extract,
            Nat.min_eq_left room, show row * block.stride + (block.stop row).toNat -
              (row * block.stride + (block.firstColumn row).toNat) =
                (block.stop row - block.firstColumn row).toNat by omega] at painted
          exact rowFilled_overwrite placed painted room
    · cases done

/-! ## Filling blocks -/

theorem exists_fillBlock_eq_ok (placed : paint.isRadial = false) (whole : paint.IsWhole)
    (room : block.PassesBelow before.size) (index : before.size ≤ Word.indexLimit) :
    ∃ after, paint.fillBlock block before = .ok after := by
  refine @exists_foldlM_eq_ok _ _ _ (fun state => state.size = before.size) _ ?_ _ rfl
  rintro state ⟨touched, row⟩ member same
  obtain ⟨below, listed, rfl⟩ := Block.mem_rows_iff.mp member
  have inside column fills := room row column ⟨below, listed, fills⟩
  obtain ⟨next, filled⟩ : ∃ next, paint.fillRow block row (block.rowTouched row) state = .ok next :=
    exists_fillRow_eq_ok whole fun column fills => same ▸ inside column fills
  have rowFilled := rowFilled_of_fillRow placed
    (fun column fills => Nat.lt_of_lt_of_le (inside column fills) index) filled
  exact ⟨next, filled, rowFilled.size.trans same⟩

section Run

variable (placed : paint.isRadial = false) (unwrapped : block.PassesBelow Word.indexLimit)
  (property : Array Nat → Prop)
  (kept : ∀ {row : Nat} {state next : Array Nat}, row < block.height →
    row < block.touched.length → RowFilled paint block row state next → property state →
    property next)
  (done : paint.fillBlock block before = .ok after)

include placed unwrapped in
theorem rowFilled_of_mem_rows {touched : Int × Int} {state next : Array Nat}
    (member : (touched, row) ∈ block.rows)
    (filled : paint.fillRow block row touched state = .ok next) :
    row < block.height ∧ row < block.touched.length ∧ RowFilled paint block row state next := by
  obtain ⟨below, listed, rfl⟩ := Block.mem_rows_iff.mp member
  exact ⟨below, listed, rowFilled_of_fillRow placed
    (fun column fills => unwrapped row column ⟨below, listed, fills⟩) filled⟩

include placed unwrapped kept done

/-- What filling any row keeps is kept by filling the block. -/
theorem fillBlock_keeps (holds : property before) : property after := by
  refine @foldlM_keeps _ _ _ property _ ?_ _ _ holds done
  rintro state next ⟨touched, row⟩ member same filled
  obtain ⟨below, listed, rowFilled⟩ := rowFilled_of_mem_rows placed unwrapped member filled
  exact kept below listed rowFilled same

/-- What filling one row reaches and filling any row keeps is reached by filling the block. -/
theorem fillBlock_reaches (below : row < block.height) (listed : row < block.touched.length)
    (reached : ∀ {state next : Array Nat}, RowFilled paint block row state next → property next) :
    property after := by
  have member : (block.rowTouched row, row) ∈ block.rows :=
    Block.mem_rows_iff.mpr ⟨below, listed, rfl⟩
  refine @foldlM_reaches _ _ _ property _ _ member ?_ ?_ _ _ done
  · intro state next filled
    exact reached (rowFilled_of_mem_rows placed unwrapped member filled).2.2
  · rintro state next ⟨touched, row⟩ otherMember same filled
    obtain ⟨below, listed, rowFilled⟩ := rowFilled_of_mem_rows placed unwrapped otherMember filled
    exact kept below listed rowFilled same

end Run

/-- What filling a block makes of a buffer. -/
structure BlockFilled (paint : Paint) (block : Block) (before after : Array Nat) : Prop where
  size : after.size = before.size
  /-- Only elements of touched pixels change. -/
  kept : ∀ place, (∀ row column, block.Touches row column → place ≠ block.place row column) →
    after[place]? = before[place]?
  /-- A paint without colors changes nothing. -/
  blank : paint.isDegenerate = true → after = before
  /-- Nor does a block whose width is no signed integer. -/
  hidden : Word.max64 < (block.width : Int) → after = before
  /-- Otherwise every touched pixel gets the color of a pixel of the device. -/
  written : paint.isDegenerate = false → (block.width : Int) ≤ Word.max64 →
    block.width ≤ block.stride → ∀ row column, block.Touches row column →
      after[block.place row column]? =
        paint.pixel? (block.devicePixel row column).1 (block.devicePixel row column).2
  /-- It is the pixel at its offset from the corner of the block, if that is inside the range. -/
  exact : paint.isDegenerate = false → (block.width : Int) ≤ Word.max64 →
    block.width ≤ block.stride → ∀ row column : Nat, block.Touches row column →
      Word.Fits32 (block.x + column) → Word.Fits32 (block.y + row) →
      after[block.place row column]? = paint.pixel? (block.x + column) (block.y + row)

theorem blockFilled_of_fillBlock (placed : paint.isRadial = false) (xFits : Word.Fits32 block.x)
    (index : block.width < Word.indexLimit) (unwrapped : block.PassesBelow Word.indexLimit)
    (done : paint.fillBlock block before = .ok after) : BlockFilled paint block before after := by
  have written (sound : paint.isDegenerate = false) (narrow : (block.width : Int) ≤ Word.max64)
      (apart : block.width ≤ block.stride) (row column : Nat)
      (touches : block.Touches row column) : after[block.place row column]? =
        paint.pixel? (block.devicePixel row column).1 (block.devicePixel row column).2 := by
    obtain ⟨below, listed, fills⟩ := (Block.passes_iff_of_narrow narrow).mpr touches
    -- The row writes the color.  It would write the same again, and no other row reaches it.
    refine fillBlock_reaches placed unwrapped (fun state => state[block.place row column]? = _)
      (fun {other state next} otherBelow otherListed filled colored => ?_) done below listed
      (fun filled => filled.written sound column fills)
    by_cases same : other = row
    · subst same
      exact filled.written sound column fills
    · refine (filled.kept _ fun otherColumn otherFills => ?_).trans colored
      exact (Block.place_ne_of_row_ne apart touches
        (Block.touches_of_passes index ⟨otherBelow, otherListed, otherFills⟩) same).symm
  refine
    { size := ?_, kept := ?_, blank := ?_, hidden := ?_, written := written, exact := ?_ }
  · exact fillBlock_keeps placed unwrapped (fun state => state.size = before.size)
      (fun _ _ filled same => filled.size.trans same) done rfl
  · intro place untouched
    refine fillBlock_keeps placed unwrapped (fun state => state[place]? = before[place]?)
      (fun below listed filled same => (filled.kept place fun column fills => ?_).trans same) done
      rfl
    exact untouched _ column (Block.touches_of_passes index ⟨below, listed, fills⟩)
  · intro blank
    exact fillBlock_keeps placed unwrapped (fun state => state = before)
      (fun _ _ filled same => (filled.blank blank).trans same) done rfl
  · intro wide
    refine fillBlock_keeps placed unwrapped (fun state => state = before)
      (fun below listed filled same => ?_) done rfl
    refine (Array.ext_getElem? fun place => filled.kept place fun column fills => ?_).trans same
    exact absurd ⟨below, listed, fills⟩ (Block.not_passes_of_wide wide index)
  · intro sound narrow apart row column touches columnFits rowFits
    rw [written sound narrow apart row column touches,
      Block.devicePixel_eq_of_fits xFits touches.2.2.1 columnFits rowFits]

/-- A degenerate paint writes nothing into a row, and other paints write the color of each pixel as
it is evaluated alone.  A block is filled with the colors of its touched pixels, and it is filled if
the buffer has room for it and the paint lacks no colors. -/
theorem fillBlock_paints_touched_pixels (placed : paint.isRadial = false) :
    (∀ x y row, paint.isDegenerate = true → paint.paintRow x y row = .ok row) ∧
    (∀ x y row colors, paint.isDegenerate = false →
      (paint.paintRow x y row = .ok colors ↔
        (List.range row.length).mapM (fun index : Nat => paint.pixel? (x + index) y) =
          some colors)) ∧
    ∀ (block : Block) (buffer : Array Nat), Word.Fits32 block.x →
      block.width < Word.indexLimit → buffer.size ≤ Word.indexLimit →
      block.HasRoom buffer.size →
      (paint.IsWhole → ∃ filled, paint.fillBlock block buffer = .ok filled) ∧
        ∀ filled, paint.fillBlock block buffer = .ok filled →
          BlockFilled paint block buffer filled := by
  refine ⟨fun x y row blank => paintRow_of_isDegenerate blank, fun x y row colors sound => ?_,
    fun block buffer xFits index size room => ?_⟩
  · rw [paintRow_eq_ok_iff sound, row?_eq_mapM_pixel? placed sound]
  · have passes : block.PassesBelow buffer.size := fun row column passes =>
      room row column (Block.touches_of_passes index passes)
    exact ⟨fun whole => exists_fillBlock_eq_ok placed whole passes size,
      fun filled done => blockFilled_of_fillBlock placed xFits index
        (fun row column passed => Nat.lt_of_lt_of_le (passes row column passed) size) done⟩

/-- Two rows of vertical stripes that begin left of the origin and between touched pixels. -/
theorem fillBlock_paints_touched_pixels_stripes :
    let texture := Texture.ofRows #[10, 20] 2 1 2 true .identity
    let paint : Paint := .image texture
    let block : Block := ⟨-3, 0, 4, 2, [(-1, 2), (1, 9)], 5⟩
    paint.isRadial = false ∧ paint.IsWhole ∧ block.HasRoom 10 ∧
      ∃ filled, paint.fillBlock block (Array.replicate 10 0) = .ok filled ∧
        filled[0]? = some 20 ∧ filled[8]? = some 10 ∧ filled[9]? = some 0 := by
  intro texture paint block
  have placed : paint.isRadial = false := rfl
  have accepted : Texture.new? #[10, 20] 2 1 2 true .identity = .ok (.ok texture) := rfl
  have whole : paint.IsWhole :=
    Texture.isWhole_of_new? (by decide) (by decide) (by decide) accepted .unchanged
  have place_le {row column : Nat} (touches : block.Touches row column) :
      block.place row column ≤ 8 := by
    have below : row < 2 := touches.1
    have inside : (column : Int) ≤ min (block.rowTouched row).2 3 := touches.2.2.2
    have place : block.place row column = row * 5 + column := rfl
    omega
  have room : block.HasRoom 10 := fun row column touches =>
    Nat.lt_of_le_of_lt (place_le touches) (by decide)
  obtain ⟨fills, exactly⟩ := (fillBlock_paints_touched_pixels placed).2.2 block
    (Array.replicate 10 0) (by decide) (by decide) (by decide) room
  obtain ⟨filled, done⟩ := fills whole
  have blockFilled := exactly filled done
  have sound : paint.isDegenerate = false := by decide +kernel
  have pixel := blockFilled.exact sound (by decide) (by decide)
  refine ⟨placed, whole, room, filled, done, ?_, ?_, ?_⟩
  · exact (pixel 0 0 (by decide) (by decide) (by decide)).trans (by decide +kernel)
  · exact (pixel 1 3 (by decide) (by decide) (by decide)).trans (by decide +kernel)
  · refine (blockFilled.kept 9 fun row column touches same => ?_).trans rfl
    have := place_le touches
    omega

/-- A pixel is touched, its row is as wide as a row of the buffer, and it has no color: the width is
beyond the signed 64-bit integers. -/
theorem fillBlock_hides_touched_pixel :
    let block : Block :=
      ⟨0, 0, 9223372036854775808, 1, [(0, 0)], 9223372036854775808⟩
    block.Touches 0 0 ∧ block.width ≤ block.stride ∧ block.place 0 0 = 0 ∧
      (solid .black).pixel? 0 0 = some 4278190080 ∧
        (solid .black).fillBlock block #[0] = .ok #[0] := by
  decide

end Filling

end Paint

end Raster
