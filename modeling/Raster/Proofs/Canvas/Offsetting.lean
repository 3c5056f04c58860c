import Raster.Canvas.Drawing

/-!
# Strokes between offset shapes

The stroke of a rectangle, a circle or a rectangle with round corners is filled between two shapes
whose corners and sides are sums of 32-bit integers.  The ceiling for the sides of a shape keeps
most of these sums within a word.  The others wrap near the ends of the range of coordinates, around
a circle with a line as wide as the ceiling leaves room for, and for corners with a very negative
diameter; where none of them wraps the shapes are the offset ones.
-/

namespace Raster

theorem Word.wrap32_eq_self_iff {value : Int} : Word.wrap32 value = value ↔ Word.Fits32 value :=
  ⟨fun same => same ▸ Word.fits32_wrap32 value, Word.wrap32_eq_self⟩

/-- The frame's left and top sides lie half a line width before those of another one, and its right
and bottom sides half a line width behind them; of an odd width the smaller half is before. -/
structure Frame.LiesAround (outer frame : Frame) (line : Int) : Prop where
  left : outer.x = frame.x - line / 2
  top : outer.y = frame.y - line / 2
  right : outer.x + outer.width = frame.x + frame.width + (line + 1) / 2
  bottom : outer.y + outer.height = frame.y + frame.height + (line + 1) / 2

/-! ## The sums of an offset -/

/-- A sum that offsetting a shape computes: a corner, a side or the diameter of the arcs of the
shape around the stroke or of the shape inside it. -/
inductive OffsetSum where
  | outerLeft
  | outerTop
  | outerWidth
  | outerHeight
  | innerLeft
  | innerTop
  | innerWidth
  | innerHeight
  | outerArc
  | innerArc
deriving DecidableEq

namespace Shape

/-- The diameter of the corners; shapes without round corners have none. -/
def arcDiameter (shape : Shape) : Int :=
  match shape.kind with
  | .roundRect arcWidth _ => arcWidth
  | _ => 0

/-- The numbers that describe a shape are signed 32-bit integers. -/
structure Fits32 (shape : Shape) : Prop where
  x : Word.Fits32 shape.frame.x
  y : Word.Fits32 shape.frame.y
  width : Word.Fits32 shape.frame.width
  height : Word.Fits32 shape.frame.height
  arc : Word.Fits32 shape.arcDiameter

end Shape

namespace OffsetSum

/-- The integer that a sum stands for. -/
def exact (shape : Shape) (line : Int) : OffsetSum → Int
  | outerLeft => shape.frame.x - line / 2
  | outerTop => shape.frame.y - line / 2
  | outerWidth => shape.frame.width + line
  | outerHeight => shape.frame.height + line
  | innerLeft => shape.frame.x + line / 2
  | innerTop => shape.frame.y + line / 2
  | innerWidth => shape.frame.width - line
  | innerHeight => shape.frame.height - line
  | outerArc => shape.arcDiameter + line
  | innerArc => shape.arcDiameter - line

/-- The condition for a sum to be within the range of a word, where it is computed. -/
def InRange (shape : Shape) (line : Int) : OffsetSum → Prop
  | outerLeft => Word.min32 + line / 2 ≤ shape.frame.x
  | outerTop => Word.min32 + line / 2 ≤ shape.frame.y
  | outerWidth => shape.kind = .oval → line ≤ Word.max32 - shape.frame.width
  | outerHeight => shape.kind = .oval → line ≤ Word.max32 - shape.frame.height
  | innerLeft => shape.frame.x ≤ Word.max32 - line / 2
  | innerTop => shape.frame.y ≤ Word.max32 - line / 2
  | innerWidth => True
  | innerHeight => True
  | outerArc => True
  | innerArc => Word.min32 + line ≤ shape.arcDiameter

/-- The sums for the frame around a stroke. -/
def outerSums : List OffsetSum :=
  [outerLeft, outerTop, outerWidth, outerHeight]

/-- The sums for the frame inside a stroke. -/
def innerSums : List OffsetSum :=
  [innerLeft, innerTop, innerWidth, innerHeight]

end OffsetSum

namespace Shape

open OffsetSum

/-- The sums that are computed for a shape.  A circle that is not wider than the line has no
inside. -/
def offsetSums (shape : Shape) (line : Int) : List OffsetSum :=
  match shape.kind with
  | .rect => outerSums ++ innerSums
  | .oval => if line < shape.frame.width then outerSums ++ innerSums else outerSums
  | .roundRect _ _ => outerSums ++ innerSums ++ [outerArc, innerArc]
  | .arc _ _ _ => []

/-- The frame around a stroke, with a function for how sums are computed. -/
def outerFrame (compute : Int → Int) (shape : Shape) (line : Int) : Frame :=
  { x := compute (outerLeft.exact shape line)
    y := compute (outerTop.exact shape line)
    width := compute (outerWidth.exact shape line)
    height := compute (outerHeight.exact shape line) }

/-- The frame inside a stroke. -/
def innerFrame (compute : Int → Int) (shape : Shape) (line : Int) : Frame :=
  { x := compute (innerLeft.exact shape line)
    y := compute (innerTop.exact shape line)
    width := compute (innerWidth.exact shape line)
    height := compute (innerHeight.exact shape line) }

/-- The outlines between which the stroke of a shape lies. -/
def offsetOutlines (compute : Int → Int) (shape : Shape) (line : Int) : List Outline :=
  let around (kind : ShapeKind) : Outline :=
    (Shape.mk (shape.outerFrame compute line) kind).outline
  let inside (kind : ShapeKind) : Outline :=
    (Shape.mk (shape.innerFrame compute line) kind).outline.reverse
  match shape.kind with
  | .rect => [around .rect, inside .rect]
  | .oval => if line < shape.frame.width then [around .oval, inside .oval] else [around .oval]
  | .roundRect _ _ =>
      let outerArc := compute (outerArc.exact shape line)
      let innerArc := max (compute (innerArc.exact shape line)) 0
      [around (.roundRect outerArc outerArc), inside (.roundRect innerArc innerArc)]
  | .arc _ _ _ => []

/-! ## When the sums are exact -/

/-- What is known of a shape whose stroke is had by offsetting. -/
structure Offsets (shape : Shape) (line : Int) : Prop where
  line_pos : 0 < line
  width_pos : 0 < shape.frame.width
  height_pos : 0 < shape.frame.height
  width_le : shape.frame.width ≤ Frame.maxSide
  height_le : shape.frame.height ≤ Frame.maxSide
  exceeds : shape.kind ≠ .oval → line < shape.frame.width ∧ line < shape.frame.height
  round : shape.kind = .oval → shape.frame.width = shape.frame.height
  arc_le : shape.arcDiameter ≤ shape.frame.width

theorem line_pos_of_isSolid {style : StrokeStyle} (solid : style.isSolid = true) :
    0 < style.width :=
  of_decide_eq_true (Bool.and_eq_true_iff.mp solid).2

theorem lt_sides_of_exceeds {frame : Frame} {line : Int} (exceeds : frame.exceeds line = true) :
    line < frame.width ∧ line < frame.height := by
  simpa [Frame.exceeds] using exceeds

/-- Where a stroke is had by offsetting, these are the sums and outlines that are computed. -/
theorem offsets_of_strokeOutlines? {style : StrokeStyle} {shape : Shape}
    (drawable : shape.isDrawable = true) (chosen : (shape.strokeOutlines? style).isSome = true) :
    shape.Offsets style.width ∧
      shape.strokeOutlines? style = some (shape.offsetOutlines Word.wrap32 style.width) := by
  obtain ⟨⟨x, y, width, height⟩, kind⟩ := shape
  have sides : 0 < width ∧ 0 < height ∧ width ≤ Frame.maxSide ∧ height ≤ Frame.maxSide := by
    have frame := (Bool.and_eq_true_iff.mp drawable).1
    simpa [Frame.isDrawable, and_assoc] using frame
  obtain ⟨widthPos, heightPos, widthLe, heightLe⟩ := sides
  cases kind with
  | rect =>
      simp only [strokeOutlines?] at chosen ⊢
      split at chosen
      · rename_i condition
        obtain ⟨square, exceeds⟩ := Bool.and_eq_true_iff.mp condition
        have solid := (Bool.and_eq_true_iff.mp square).2
        rw [if_pos condition]
        exact ⟨⟨line_pos_of_isSolid solid, widthPos, heightPos, widthLe, heightLe,
          fun _ => lt_sides_of_exceeds exceeds, nofun, Int.le_of_lt widthPos⟩, rfl⟩
      · cases chosen
  | oval =>
      simp only [strokeOutlines?] at chosen ⊢
      split at chosen
      · rename_i condition
        obtain ⟨round, solid⟩ := Bool.and_eq_true_iff.mp condition
        rw [if_pos condition]
        refine ⟨⟨line_pos_of_isSolid solid, widthPos, heightPos, widthLe, heightLe,
          fun other => absurd rfl other, fun _ => of_decide_eq_true round,
          Int.le_of_lt widthPos⟩, ?_⟩
        simp only [offsetOutlines]
        split <;> rfl
      · cases chosen
  | roundRect arcWidth arcHeight =>
      simp only [strokeOutlines?] at chosen ⊢
      split at chosen
      · rename_i condition
        rw [if_pos condition]
        simp only [Bool.and_eq_true, decide_eq_true_eq] at condition
        obtain ⟨⟨⟨⟨_, arcLe⟩, _⟩, solid⟩, exceeds⟩ := condition
        exact ⟨⟨line_pos_of_isSolid solid, widthPos, heightPos, widthLe, heightLe,
          fun _ => lt_sides_of_exceeds exceeds, nofun,
          Int.le_trans arcLe (Int.min_le_left _ _)⟩, rfl⟩
      · cases chosen
  | arc start extent closure => cases chosen

theorem kind_ne_oval_of_outerArc_mem {shape : Shape} {line : Int}
    (computed : outerArc ∈ shape.offsetSums line) : shape.kind ≠ .oval := by
  intro oval
  simp only [offsetSums, oval] at computed
  split at computed <;> simp [outerSums, innerSums] at computed

/-- A sum that is computed wraps exactly if it is out of its range. -/
theorem Offsets.wrap32_exact_iff {shape : Shape} {line : Int} (offsets : shape.Offsets line)
    (fits : shape.Fits32) (lineFits : Word.Fits32 line) {sum : OffsetSum}
    (computed : sum ∈ shape.offsetSums line) :
    Word.wrap32 (sum.exact shape line) = sum.exact shape line ↔ sum.InRange shape line := by
  rw [Word.wrap32_eq_self_iff]
  obtain ⟨xFits, yFits, widthFits, heightFits, arcFits⟩ := fits
  obtain ⟨linePos, widthPos, heightPos, widthLe, heightLe, exceeds, round, arcLe⟩ := offsets
  unfold Word.Fits32 at *
  unfold Word.min32 Word.max32 Frame.maxSide at *
  cases sum with
  | outerLeft => simp only [exact, InRange, Word.min32]; omega
  | outerTop => simp only [exact, InRange, Word.min32]; omega
  | innerLeft => simp only [exact, InRange, Word.max32]; omega
  | innerTop => simp only [exact, InRange, Word.max32]; omega
  | outerWidth =>
      simp only [exact, InRange, Word.max32]
      by_cases oval : shape.kind = .oval
      · simp only [oval, true_implies]
        omega
      · have := exceeds oval
        simp only [oval, false_implies, iff_true]
        omega
  | outerHeight =>
      simp only [exact, InRange, Word.max32]
      by_cases oval : shape.kind = .oval
      · simp only [oval, true_implies]
        omega
      · have := exceeds oval
        simp only [oval, false_implies, iff_true]
        omega
  | innerWidth => simp only [exact, InRange, iff_true]; omega
  | innerHeight => simp only [exact, InRange, iff_true]; omega
  | outerArc =>
      -- Only corners are computed from arcs, and a line with corners is narrower than its frame.
      have := exceeds (kind_ne_oval_of_outerArc_mem computed)
      simp only [exact, InRange, iff_true]
      omega
  | innerArc => simp only [exact, InRange, Word.min32]; omega

theorem outerFrame_wrap32_eq {shape : Shape} {line : Int}
    (unwrapped : ∀ sum ∈ outerSums, Word.wrap32 (sum.exact shape line) = sum.exact shape line) :
    shape.outerFrame Word.wrap32 line = shape.outerFrame id line := by
  simp only [outerSums, List.forall_mem_cons] at unwrapped
  simp [outerFrame, unwrapped]

theorem innerFrame_wrap32_eq {shape : Shape} {line : Int}
    (unwrapped : ∀ sum ∈ innerSums, Word.wrap32 (sum.exact shape line) = sum.exact shape line) :
    shape.innerFrame Word.wrap32 line = shape.innerFrame id line := by
  simp only [innerSums, List.forall_mem_cons] at unwrapped
  simp [innerFrame, unwrapped]

/-- Where no sum wraps the frames and arcs are the exact ones. -/
theorem offsetOutlines_wrap32_eq {shape : Shape} {line : Int}
    (unwrapped : ∀ sum ∈ shape.offsetSums line,
      Word.wrap32 (sum.exact shape line) = sum.exact shape line) :
    shape.offsetOutlines Word.wrap32 line = shape.offsetOutlines id line := by
  unfold offsetSums at unwrapped
  unfold offsetOutlines
  cases kind : shape.kind with
  | rect =>
      simp only [kind, List.forall_mem_append] at unwrapped
      simp only [outerFrame_wrap32_eq unwrapped.1, innerFrame_wrap32_eq unwrapped.2]
  | oval =>
      simp only [kind] at unwrapped
      simp only
      split
      · rename_i inside
        rw [if_pos inside, List.forall_mem_append] at unwrapped
        rw [outerFrame_wrap32_eq unwrapped.1, innerFrame_wrap32_eq unwrapped.2]
      · rename_i filled
        rw [if_neg filled] at unwrapped
        rw [outerFrame_wrap32_eq unwrapped]
  | roundRect arcWidth arcHeight =>
      simp only [kind, List.forall_mem_append] at unwrapped
      obtain ⟨⟨outerUnwrapped, innerUnwrapped⟩, arcs⟩ := unwrapped
      have outerArcs := arcs outerArc (by simp)
      have innerArcs := arcs innerArc (by simp)
      simp only [outerFrame_wrap32_eq outerUnwrapped, innerFrame_wrap32_eq innerUnwrapped,
        outerArcs, innerArcs, id]
  | arc start extent closure => rfl

theorem liesAround_outerFrame (shape : Shape) (line : Int) :
    (shape.outerFrame id line).LiesAround shape.frame line := by
  constructor <;> simp only [outerFrame, exact, id] <;> omega

theorem liesAround_innerFrame (shape : Shape) (line : Int) :
    shape.frame.LiesAround (shape.innerFrame id line) line := by
  constructor <;> simp only [innerFrame, exact, id] <;> omega

end Shape

namespace Canvas

theorem strokeOutlines?_of_isSome {canvas : Canvas} {shape : Shape}
    (chosen : (canvas.strokeOutlines? shape).isSome = true) :
    canvas.strokeOutlines? shape = shape.strokeOutlines? canvas.stroke := by
  unfold strokeOutlines? at chosen ⊢
  split at chosen
  · rename_i unbiased
    rw [if_pos unbiased]
  · cases chosen

/-- Wherever the stroke of a shape is had by offsetting, it is what the computed outlines fill.  Each
sum of the computation is exact if and only if it is in its range: sides are, except for circles, and
so are corners unless they lie within half a line width of the ends of the range of coordinates.  If
all are in range, the stroke is filled between the frames half a line width around the shape and
inside it. -/
theorem offset_exact_iff_inRange (canvas : Canvas) (shape : Shape) (fits : shape.Fits32)
    (lineFits : Word.Fits32 canvas.stroke.width) (drawable : shape.isDrawable = true)
    (chosen : (canvas.strokeOutlines? shape).isSome = true) :
    canvas.strokeShape shape =
        canvas.drawOutlines .fill .nonZero
          (shape.offsetOutlines Word.wrap32 canvas.stroke.width) ∧
      (∀ sum ∈ shape.offsetSums canvas.stroke.width,
        Word.wrap32 (sum.exact shape canvas.stroke.width) = sum.exact shape canvas.stroke.width ↔
          sum.InRange shape canvas.stroke.width) ∧
      ((∀ sum ∈ shape.offsetSums canvas.stroke.width, sum.InRange shape canvas.stroke.width) →
        canvas.strokeShape shape =
          canvas.drawOutlines .fill .nonZero (shape.offsetOutlines id canvas.stroke.width)) ∧
      (shape.outerFrame id canvas.stroke.width).LiesAround shape.frame canvas.stroke.width ∧
      shape.frame.LiesAround (shape.innerFrame id canvas.stroke.width) canvas.stroke.width := by
  have unbiased := strokeOutlines?_of_isSome chosen
  rw [unbiased] at chosen
  obtain ⟨offsets, outlines⟩ := Shape.offsets_of_strokeOutlines? drawable chosen
  have stroked : canvas.strokeShape shape = canvas.drawOutlines .fill .nonZero
      (shape.offsetOutlines Word.wrap32 canvas.stroke.width) := by
    unfold strokeShape
    rw [if_pos drawable, unbiased, outlines]
  have exact_iff : ∀ sum ∈ shape.offsetSums canvas.stroke.width,
      Word.wrap32 (sum.exact shape canvas.stroke.width) = sum.exact shape canvas.stroke.width ↔
        sum.InRange shape canvas.stroke.width :=
    fun sum computed => offsets.wrap32_exact_iff fits lineFits computed
  refine ⟨stroked, exact_iff, ?_, shape.liesAround_outerFrame _, shape.liesAround_innerFrame _⟩
  intro inRange
  rw [stroked, Shape.offsetOutlines_wrap32_eq]
  exact fun sum computed => (exact_iff sum computed).mpr (inRange sum computed)

/-- A square of four pixels with a line of one pixel. -/
theorem offset_exact_iff_inRange_square :
    let canvas := new ⟨.gray8, 1, 1, .packed 1, #[0]⟩ .default
    let square : Shape := ⟨⟨0, 0, 262144, 262144⟩, .rect⟩
    square.Fits32 ∧ Word.Fits32 canvas.stroke.width ∧ square.isDrawable = true ∧
      (canvas.strokeOutlines? square).isSome = true ∧
      canvas.strokeShape square =
        canvas.drawOutlines .fill .nonZero
          [.rect (-32768) (-32768) 327680 327680, (Outline.rect 32768 32768 196608 196608).reverse] := by
  intro canvas square
  have fits : square.Fits32 := ⟨by decide, by decide, by decide, by decide, by decide⟩
  have lineFits : Word.Fits32 canvas.stroke.width := by decide
  have drawable : square.isDrawable = true := by decide
  have chosen : (canvas.strokeOutlines? square).isSome = true := by decide +kernel
  have ⟨_, _, exact, _⟩ := offset_exact_iff_inRange canvas square fits lineFits drawable chosen
  refine ⟨fits, lineFits, drawable, chosen, exact ?_⟩
  intro sum computed
  cases sum with
  | outerLeft => exact (by decide : (-2147450880 : Int) ≤ 0)
  | outerTop => exact (by decide : (-2147450880 : Int) ≤ 0)
  | innerLeft => exact (by decide : (0 : Int) ≤ 2147450879)
  | innerTop => exact (by decide : (0 : Int) ≤ 2147450879)
  | outerWidth => exact nofun
  | outerHeight => exact nofun
  | innerWidth => trivial
  | innerHeight => trivial
  | outerArc => trivial
  | innerArc => exact (by decide : (-2147418112 : Int) ≤ 0)

/-- A circle as wide as shapes may be, with a line of the same width: the diameter of the circle
around the stroke wraps to the least word, and that is the width of the oval that is filled. -/
theorem circle_wraps_of_wide_line :
    let canvas := (new ⟨.gray8, 1, 1, .packed 1, #[0]⟩ .default).setStroke
      { StrokeStyle.default with width := 1073741824 }
    let circle : Shape := ⟨⟨0, 0, 1073741824, 1073741824⟩, .oval⟩
    circle.Fits32 ∧ Word.Fits32 canvas.stroke.width ∧ circle.isDrawable = true ∧
      OffsetSum.outerWidth.exact circle canvas.stroke.width = 2147483648 ∧
      Word.wrap32 2147483648 = -2147483648 ∧
      canvas.strokeShape circle =
        canvas.drawOutlines .fill .nonZero
          [.oval (-536870912) (-536870912) (-2147483648) (-2147483648)] := by
  intro canvas circle
  have drawable : circle.isDrawable = true := by decide
  have outlines : canvas.strokeOutlines? circle =
      some [.oval (-536870912) (-536870912) (-2147483648) (-2147483648)] := rfl
  refine ⟨⟨by decide, by decide, by decide, by decide, by decide⟩, by decide, drawable, rfl, rfl, ?_⟩
  unfold strokeShape
  rw [if_pos drawable, outlines]

end Canvas

end Raster
