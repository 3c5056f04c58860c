import Raster.Paint.Texture
import Raster.Proofs.Fault

/-!
# Building textures

A texture is built from a buffer that holds its rows.  The length that they take up is compared with
the buffer as a buffer index, which wraps; so are the starts of the rows and the number of texels of
the bordered image.  A length that wraps can pass the comparison, but then some row starts beyond
every buffer that there is room for.  A number of texels that wraps leaves a bordered image of at
most one row, so that hardly any row is looked for.
-/

namespace Raster

namespace Texture

/-! ## Borders -/

/-- The border shows texels of the image only. -/
theorem borderSource_lt (repeats : Bool) {extent index : Nat} (positive : 0 < extent)
    (inside : index < extent + 2) : borderSource repeats extent index < extent := by
  cases repeats <;> simp only [borderSource] <;> grind

/-- Inside its border the image is shown as it is. -/
theorem borderSource_succ (repeats : Bool) {extent index : Nat} (inside : index < extent) :
    borderSource repeats extent (index + 1) = index := by
  rw [borderSource, if_neg (Nat.succ_ne_zero index), if_neg (by omega), Nat.add_sub_cancel]

section Building

variable {data : Array Nat} {width height stride : Nat} {repeats : Bool}

/-- The number of rows of the bordered image that are copied. -/
def copiedRows (width height : Nat) : Nat :=
  borderedCount width height / (width + 2)

/-- The buffer holds every row that is copied where the row is read from. -/
def CopiesHeld (data : Array Nat) (width height stride : Nat) (repeats : Bool) : Prop :=
  ∀ row < copiedRows width height,
    Word.wrapIndex (borderSource repeats height row * stride) + width ≤ data.size

instance : Decidable (CopiesHeld data width height stride repeats) :=
  inferInstanceAs (Decidable (∀ row < _, _))

/-- The rows of the bordered image that are copied. -/
def borderedRows (data : Array Nat) (width height stride : Nat) (repeats : Bool) :
    List (List Nat) :=
  (List.range (copiedRows width height)).map fun row => (List.range (width + 2)).map fun column =>
    data.getD (Word.wrapIndex (borderSource repeats height row * stride) +
      borderSource repeats width column) 0

/-- The texels of the bordered image. -/
def borderedTexels (data : Array Nat) (width height stride : Nat) (repeats : Bool) : List Nat :=
  (borderedRows data width height stride repeats).flatten ++
    List.replicate (borderedCount width height % (width + 2)) 0

theorem bordered_of_copiesHeld (fits : borderedCount width height ≤ Word.maxLength)
    (held : CopiesHeld data width height stride repeats) :
    bordered data width height stride repeats =
      .ok (borderedTexels data width height stride repeats).toArray := by
  simp only [bordered]
  rw [if_neg (by omega), mapM_eq_ok (g := fun row => (List.range (width + 2)).map fun column =>
    data.getD (Word.wrapIndex (borderSource repeats height row * stride) +
      borderSource repeats width column) 0)]
  · rfl
  · intro row member
    rw [borderedRow, if_pos (held row (List.mem_range.mp member))]

theorem bordered_of_not_copiesHeld (fits : borderedCount width height ≤ Word.maxLength)
    (overrun : ¬ CopiesHeld data width height stride repeats) :
    bordered data width height stride repeats = .error .texelsOutsideBuffer := by
  obtain ⟨row, inside, beyond⟩ : ∃ row, ∃ _ : row < copiedRows width height,
      ¬ Word.wrapIndex (borderSource repeats height row * stride) + width ≤ data.size := by
    simpa only [CopiesHeld, Classical.not_forall] using overrun
  simp only [bordered]
  rw [if_neg (by omega), mapM_eq_error]
  · rfl
  · intro row _ other failed
    rw [borderedRow] at failed
    split at failed
    · cases failed
    · cases failed
      rfl
  · refine ⟨row, List.mem_range.mpr inside, ?_⟩
    rw [borderedRow, if_neg beyond]

/-! ## Texels -/

/-- As long as the number of texels does not wrap, every row of the bordered image is copied. -/
theorem copiedRows_eq (unwrapped : (width + 2) * (height + 2) < Word.indexLimit) :
    borderedCount width height = (width + 2) * (height + 2) ∧
      copiedRows width height = height + 2 := by
  have count : borderedCount width height = (width + 2) * (height + 2) :=
    Word.wrapIndex_eq_self unwrapped
  refine ⟨count, ?_⟩
  rw [copiedRows, count, Nat.mul_div_cancel_left _ (by omega)]

/-- The number of texels wraps only for the two greatest widths and heights, and then one row is
copied at most. -/
theorem copiedRows_le_one (width32 : width < 4294967296) (height32 : height < 4294967296)
    (wraps : Word.indexLimit ≤ (width + 2) * (height + 2)) :
    4294967294 ≤ width ∧ 4294967294 ≤ height ∧ borderedCount width height ≤ Word.maxLength ∧
      copiedRows width height ≤ 1 := by
  have wide : 4294967294 ≤ width := by
    refine Nat.le_of_not_lt fun narrow => ?_
    have atMost : (width + 2) * (height + 2) ≤ 4294967295 * 4294967297 :=
      Nat.mul_le_mul (by omega) (by omega)
    exact absurd (Nat.le_trans wraps atMost) (by decide)
  have high : 4294967294 ≤ height := by
    refine Nat.le_of_not_lt fun low => ?_
    have atMost : (width + 2) * (height + 2) ≤ 4294967297 * 4294967295 :=
      Nat.mul_le_mul (by omega) (by omega)
    exact absurd (Nat.le_trans wraps atMost) (by decide)
  refine ⟨wide, high, ?_⟩
  obtain rfl | rfl : width = 4294967294 ∨ width = 4294967295 := by omega
  all_goals
    obtain rfl | rfl : height = 4294967294 ∨ height = 4294967295 := by omega
    all_goals decide

/-! ## Lengths -/

/-- The buffer holds every row of the image where the row is read from. -/
def RowsHeld (data : Array Nat) (width height stride : Nat) : Prop :=
  ∀ row < height, Word.wrapIndex (row * stride) + width ≤ data.size

/-- The border shows every row of the image. -/
theorem copiesHeld_iff_rowsHeld (high : 0 < height)
    (unwrapped : (width + 2) * (height + 2) < Word.indexLimit) :
    CopiesHeld data width height stride repeats ↔ RowsHeld data width height stride := by
  rw [CopiesHeld, (copiedRows_eq unwrapped).2]
  constructor
  · intro held row inside
    have copied := held (row + 1) (by omega)
    rwa [borderSource_succ repeats inside] at copied
  · intro held row inside
    exact held _ (borderSource_lt repeats high inside)

/-- The number of buffer elements up to the last texel. -/
def requiredLength (width height stride : Nat) : Nat :=
  stride * (height - 1) + width

/-- No buffer takes up more than half of all indices.  From one row that it holds to the next the
start cannot jump over the other half, so that the starts do not wrap before a row is missing. -/
theorem rowsHeld_iff (room : 2 * data.size ≤ Word.indexLimit) (index : stride < Word.indexLimit)
    (wide : 0 < width) (high : 0 < height) :
    RowsHeld data width height stride ↔ requiredLength width height stride ≤ data.size := by
  constructor
  · intro held
    have unwrapped : ∀ row < height, row * stride + width ≤ data.size := by
      intro row
      induction row with
      | zero =>
          intro inside
          simpa only [Nat.zero_mul, Word.wrapIndex, Nat.zero_mod] using held 0 inside
      | succ row inductionHypothesis =>
          intro inside
          have before := inductionHypothesis (by omega)
          have second := held 1 (by omega)
          rw [Nat.one_mul, Word.wrapIndex_eq_self index] at second
          have here := held (row + 1) inside
          rw [Word.wrapIndex_eq_self (by rw [Nat.succ_mul]; omega)] at here
          exact here
    have last := unwrapped (height - 1) (by omega)
    rwa [requiredLength, Nat.mul_comm]
  · intro enough row inside
    have start : row * stride ≤ stride * (height - 1) := by
      rw [Nat.mul_comm]
      exact Nat.mul_le_mul_left stride (by omega)
    rw [requiredLength] at enough
    rw [Word.wrapIndex_eq_self (by omega)]
    omega

/-! ## Textures -/

variable {toUser : Affine}

/-- The texture with the rows of a buffer, under no drawing transformation. -/
def ofRows (data : Array Nat) (width height stride : Nat) (repeats : Bool) (toUser : Affine) :
    Texture where
  width := width
  height := height
  texels := (borderedTexels data width height stride repeats).toArray
  repeats := repeats
  interpolates := false
  space := PaintSpace.new toUser
  inverse := (PaintSpace.new toUser).fromDevice

/-- What becomes of the arguments. -/
theorem new?_eq (data : Array Nat) (width height stride : Nat) (repeats : Bool)
    (toUser : Affine) :
    new? data width height stride repeats toUser =
      if width = 0 ∨ height = 0 then
        .ok (.error .emptyTexture)
      else if stride < width then
        .ok (.error (.textureStrideTooSmall stride width))
      else if data.size < Word.wrapIndex (requiredLength width height stride) then
        .ok (.error (.textureBufferTooSmall
          (Word.wrapIndex (requiredLength width height stride)) data.size))
      else if Word.maxLength < borderedCount width height then
        .error .bufferTooLarge
      else if CopiesHeld data width height stride repeats then
        .ok (.ok (ofRows data width height stride repeats toUser))
      else
        .error .texelsOutsideBuffer := by
  have length : Word.wrapIndex (stride * (height - 1) + width) =
    Word.wrapIndex (requiredLength width height stride) := rfl
  simp only [new?, length]
  split
  · rfl
  · split
    · rfl
    · split
      · rfl
      · split
        · rename_i large
          simp only [bordered, if_pos large]
          rfl
        · rename_i fits
          split
          · rename_i held
            rw [bordered_of_copiesHeld (Nat.le_of_not_lt fits) held]
            rfl
          · rename_i overrun
            rw [bordered_of_not_copiesHeld (Nat.le_of_not_lt fits) overrun]
            rfl

/-- What a texture that was built shows, and that the buffer holds the rows that it copies. -/
theorem eq_ofRows_of_new? {texture : Texture}
    (built : new? data width height stride repeats toUser = .ok (.ok texture)) :
    texture = ofRows data width height stride repeats toUser ∧ 0 < width ∧ 0 < height ∧
      width ≤ stride ∧ borderedCount width height ≤ Word.maxLength ∧
      CopiesHeld data width height stride repeats := by
  rw [new?_eq] at built
  split at built
  · cases built
  · split at built
    · cases built
    · split at built
      · cases built
      · split at built
        · cases built
        · split at built
          · cases built
            exact ⟨rfl, by omega, by omega, by omega, by omega, by assumption⟩
          · cases built

/-- The three kinds of answers. -/
theorem new?_iff (data : Array Nat) (width height stride : Nat) (repeats : Bool)
    (toUser : Affine) :
    ((∃ texture, new? data width height stride repeats toUser = .ok (.ok texture)) ↔
      0 < width ∧ 0 < height ∧ width ≤ stride ∧
        Word.wrapIndex (requiredLength width height stride) ≤ data.size ∧
        borderedCount width height ≤ Word.maxLength ∧
        CopiesHeld data width height stride repeats) ∧
    (∀ error, new? data width height stride repeats toUser = .ok (.error error) ↔
      (width = 0 ∨ height = 0) ∧ error = .emptyTexture ∨
      0 < width ∧ 0 < height ∧ stride < width ∧ error = .textureStrideTooSmall stride width ∨
      0 < width ∧ 0 < height ∧ width ≤ stride ∧
        data.size < Word.wrapIndex (requiredLength width height stride) ∧
        error = .textureBufferTooSmall (Word.wrapIndex (requiredLength width height stride))
          data.size) ∧
    (∀ fault, new? data width height stride repeats toUser = .error fault ↔
      0 < width ∧ 0 < height ∧ width ≤ stride ∧
        Word.wrapIndex (requiredLength width height stride) ≤ data.size ∧
        (Word.maxLength < borderedCount width height ∧ fault = .bufferTooLarge ∨
          borderedCount width height ≤ Word.maxLength ∧
            ¬ CopiesHeld data width height stride repeats ∧ fault = .texelsOutsideBuffer)) := by
  rw [new?_eq]
  split
  · grind
  · split
    · grind
    · split
      · grind
      · split
        · grind
        · split <;> grind

/-- A texture is built exactly if the length that its rows take up passes the comparison with the
buffer and the buffer holds the rows that are copied.  It is refused for the first condition that
fails.  If the bordered image is not too large for a buffer, then every row is copied, the texture
is built exactly if the buffer holds all of them, and there is a fault exactly if the length wraps.
If the number of its texels wraps, one row is copied at most. -/
theorem built_iff_texels_held (room : 2 * data.size ≤ Word.indexLimit)
    (index : stride < Word.indexLimit) :
    ((∃ texture, new? data width height stride repeats toUser = .ok (.ok texture)) ↔
      0 < width ∧ 0 < height ∧ width ≤ stride ∧
        Word.wrapIndex (requiredLength width height stride) ≤ data.size ∧
        borderedCount width height ≤ Word.maxLength ∧
        CopiesHeld data width height stride repeats) ∧
    (∀ error, new? data width height stride repeats toUser = .ok (.error error) ↔
      (width = 0 ∨ height = 0) ∧ error = .emptyTexture ∨
      0 < width ∧ 0 < height ∧ stride < width ∧ error = .textureStrideTooSmall stride width ∨
      0 < width ∧ 0 < height ∧ width ≤ stride ∧
        data.size < Word.wrapIndex (requiredLength width height stride) ∧
        error = .textureBufferTooSmall (Word.wrapIndex (requiredLength width height stride))
          data.size) ∧
    (∀ fault, new? data width height stride repeats toUser = .error fault ↔
      0 < width ∧ 0 < height ∧ width ≤ stride ∧
        Word.wrapIndex (requiredLength width height stride) ≤ data.size ∧
        (Word.maxLength < borderedCount width height ∧ fault = .bufferTooLarge ∨
          borderedCount width height ≤ Word.maxLength ∧
            ¬ CopiesHeld data width height stride repeats ∧ fault = .texelsOutsideBuffer)) ∧
    ((width + 2) * (height + 2) ≤ Word.maxLength →
      ((∃ texture, new? data width height stride repeats toUser = .ok (.ok texture)) ↔
        0 < width ∧ 0 < height ∧ width ≤ stride ∧
          requiredLength width height stride ≤ data.size) ∧
      (∀ fault, new? data width height stride repeats toUser = .error fault ↔
        0 < width ∧ 0 < height ∧ width ≤ stride ∧
          Word.wrapIndex (requiredLength width height stride) ≤ data.size ∧
          data.size < requiredLength width height stride ∧ fault = .texelsOutsideBuffer) ∧
      (requiredLength width height stride < Word.indexLimit →
        Word.wrapIndex (requiredLength width height stride) = requiredLength width height stride ∧
          ∃ result, new? data width height stride repeats toUser = .ok result)) ∧
    (width < 4294967296 → height < 4294967296 →
      Word.indexLimit ≤ (width + 2) * (height + 2) →
      4294967294 ≤ width ∧ 4294967294 ≤ height ∧ borderedCount width height ≤ Word.maxLength ∧
        (CopiesHeld data width height stride repeats ↔
          copiedRows width height = 0 ∨
            Word.wrapIndex (borderSource repeats height 0 * stride) + width ≤ data.size)) := by
  obtain ⟨built, refused, faulty⟩ := new?_iff data width height stride repeats toUser
  refine ⟨built, refused, faulty, ?_, ?_⟩
  · intro fits
    have below : requiredLength width height stride < Word.indexLimit → _ := Word.wrapIndex_eq_self
    have atMost := Word.wrapIndex_le (requiredLength width height stride)
    have unwrapped : (width + 2) * (height + 2) < Word.indexLimit :=
      Nat.lt_of_le_of_lt fits (by decide)
    have count := (copiedRows_eq unwrapped).1
    have held : 0 < width → 0 < height → (CopiesHeld data width height stride repeats ↔
        requiredLength width height stride ≤ data.size) := fun wide high =>
      (copiesHeld_iff_rowsHeld high unwrapped).trans (rowsHeld_iff room index wide high)
    rw [new?_eq, if_neg (show ¬ Word.maxLength < borderedCount width height by omega)]
    split
    · grind
    · split
      · grind
      · split
        · grind
        · split <;> grind
  · intro width32 height32 wraps
    obtain ⟨wide, high, fits, copied⟩ := copiedRows_le_one width32 height32 wraps
    refine ⟨wide, high, fits, ?_⟩
    obtain none | one : copiedRows width height = 0 ∨ copiedRows width height = 1 := by omega
    · simp [CopiesHeld, none]
    · simp [CopiesHeld, one]

/-- Two rows of two texels that start four elements apart end after six elements; of five, they are
told to be one short.  Of the greatest textures, one is built without any texels, and another asks
for a single row, which its buffer does not hold. -/
theorem built_iff_texels_held_strided :
    2 * (#[1, 2, 0, 0, 3, 4] : Array Nat).size ≤ Word.indexLimit ∧ 4 < Word.indexLimit ∧
      (∃ texture, new? #[1, 2, 0, 0, 3, 4] 2 2 4 true .identity = .ok (.ok texture)) ∧
      new? #[1, 2, 0, 0, 3] 2 2 4 true .identity = .ok (.error (.textureBufferTooSmall 6 5)) ∧
      (∃ texture, new? #[7] 4294967294 4294967294 18446744073709551615 false .identity =
        .ok (.ok texture)) ∧
      new? #[7] 4294967294 4294967295 18446744073709551615 false .identity =
        .error .texelsOutsideBuffer := by
  refine ⟨by decide, by decide, ?_, ?_, ?_, ?_⟩
  · exact ((built_iff_texels_held (by decide) (by decide)).2.2.2.1 (by decide)).1.mpr (by decide)
  · exact ((built_iff_texels_held (by decide) (by decide)).2.1 _).mpr (by decide)
  · exact (built_iff_texels_held (by decide) (by decide)).1.mpr (by decide)
  · exact ((built_iff_texels_held (by decide) (by decide)).2.2.1 _).mpr (by decide)

/-- Three rows that start half of all indices apart end one element after all indices, which wraps
to the first element.  The second row then starts outside the buffer. -/
theorem fault_of_wrapped_length :
    (#[4294967295] : Array Nat).size < requiredLength 1 3 9223372036854775808 ∧
      new? #[4294967295] 1 3 9223372036854775808 false .identity = .error .texelsOutsideBuffer := by
  refine ⟨by decide, ?_⟩
  rw [new?_eq]
  rfl

end Building

end Texture

end Raster
