import Raster.Path.Command

/-!
# Flattening curves

A flattener replaces each curve by straight lines.  A curve that is not flat
enough is halved, and its halves are flattened in turn; a flat one is replaced by
its control polygon.  A corner is marked ahead of every incoming segment and of
`close`, never inside a curve.

All lengths are in units of `1 / 65536` pixel, and squared lengths in units of
`2 ^ -32` square pixel.
-/

namespace Raster

namespace Curve

/-- A chord whose squared length exceeds this is always halved: 16 pixels. -/
def maxChordSq : Int := 1099511627776

/-- A curve whose points lie this close together is never halved: half a pixel. -/
def minChordSq : Int := 1073741824

/-- No curve is halved more often than this, whatever its points. -/
def maxDepth : Nat := 32

/-- The squared length of a displacement. -/
def lengthSq (dx dy : Int) : Int :=
  dx * dx + dy * dy

/-- The difference between the greatest and the least of some coordinates. -/
def spread (first : Int) (rest : List Int) : Int :=
  rest.foldl max first - rest.foldl min first

/-- The squared diagonal of the smallest box around some points. -/
def diagonalSq (first : Point) (rest : List Point) : Int :=
  lengthSq (spread first.x (rest.map (·.x))) (spread first.y (rest.map (·.y)))

/-- The squared area spanned by the chord `(dx, dy)` from `origin` and the
displacement of `point` from `origin`.  Divided by the squared length of the
chord it is the squared distance of `point` from the chord. -/
def deviationSq (origin : Point) (dx dy : Int) (point : Point) : Int :=
  let area := (dx * (point.y - origin.y) - dy * (point.x - origin.x)) / 65536
  area * area

/-- The flatness test that both kinds of curve share, with `deviation` as the
test against the scaled squared flatness. -/
def isFlat (flatness : Int) (start : Point) (controls : List Point) (stop : Point)
    (deviation : Int → Bool) : Bool :=
  let chordSq := lengthSq (stop.x - start.x) (stop.y - start.y)
  if chordSq > maxChordSq then
    false
  else if chordSq < minChordSq && diagonalSq start (controls ++ [stop]) < minChordSq then
    true
  else
    deviation (chordSq * (flatness * flatness / 65536) / 65536)

/-- Whether a quadratic curve lies close enough to its chord. -/
def isFlatQuad (flatness : Int) (p₀ p₁ p₂ : Point) : Bool :=
  let dx := p₂.x - p₀.x
  let dy := p₂.y - p₀.y
  isFlat flatness p₀ [p₁] p₂ fun limit => deviationSq p₀ dx dy p₁ < limit

/-- Whether a cubic curve lies close enough to its chord. -/
def isFlatCubic (flatness : Int) (p₀ p₁ p₂ p₃ : Point) : Bool :=
  let dx := p₃.x - p₀.x
  let dy := p₃.y - p₀.y
  isFlat flatness p₀ [p₁, p₂] p₃ fun limit =>
    deviationSq p₀ dx dy p₁ ≤ limit && deviationSq p₀ dx dy p₂ < limit

/-- The point halfway between two points, rounded down. -/
def middle₂ (a b : Point) : Point :=
  ⟨(a.x + b.x) / 2, (a.y + b.y) / 2⟩

/-- The middle of a quadratic curve, rounded down. -/
def middle₃ (a b c : Point) : Point :=
  ⟨(a.x + 2 * b.x + c.x) / 4, (a.y + 2 * b.y + c.y) / 4⟩

/-- The middle of a cubic curve, rounded down. -/
def middle₄ (a b c d : Point) : Point :=
  ⟨(a.x + 3 * b.x + 3 * c.x + d.x) / 8, (a.y + 3 * b.y + 3 * c.y + d.y) / 8⟩

/-- The vertices of a flattened quadratic curve after its start, halving it at
most `depth` times. -/
def quadVertices (flatness : Int) : Nat → Point → Point → Point → List Point
  | 0, _, p₁, p₂ => [p₁, p₂]
  | depth + 1, p₀, p₁, p₂ =>
      if isFlatQuad flatness p₀ p₁ p₂ then
        [p₁, p₂]
      else
        let center := middle₃ p₀ p₁ p₂
        quadVertices flatness depth p₀ (middle₂ p₀ p₁) center ++
          quadVertices flatness depth center (middle₂ p₁ p₂) p₂

/-- The vertices of a flattened cubic curve after its start, halving it at most
`depth` times. -/
def cubicVertices (flatness : Int) : Nat → Point → Point → Point → Point → List Point
  | 0, _, p₁, p₂, p₃ => [p₁, p₂, p₃]
  | depth + 1, p₀, p₁, p₂, p₃ =>
      if isFlatCubic flatness p₀ p₁ p₂ p₃ then
        [p₁, p₂, p₃]
      else
        let center := middle₄ p₀ p₁ p₂ p₃
        cubicVertices flatness depth p₀ (middle₂ p₀ p₁) (middle₃ p₀ p₁ p₂) center ++
          cubicVertices flatness depth center (middle₃ p₁ p₂ p₃) (middle₂ p₂ p₃) p₃

end Curve

/-- The state of flattening: the greatest deviation of a line from its curve, and
the points that relative geometry needs. -/
structure Flattener where
  flatness : Int
  start : Point
  current : Point
deriving Repr, DecidableEq

namespace Flattener

/-- The flatness of filled paths unless set otherwise: half a pixel. -/
def fillFlatness : Int := 32768

/-- The flatness of stroked paths unless set otherwise: one pixel. -/
def strokeFlatness : Int := 65536

/-- A flattener that has received nothing. -/
def new (flatness : Int) : Flattener := ⟨flatness, .origin, .origin⟩

/-- Answers one command. -/
def step (flattener : Flattener) : PathCommand → Flattener × List LineCommand
  | .moveTo point => ({ flattener with start := point, current := point }, [.moveTo point])
  | .lineJoin => (flattener, [.lineJoin])
  | .lineTo point => ({ flattener with current := point }, [.lineJoin, .lineTo point])
  | .close => ({ flattener with current := flattener.start }, [.lineJoin, .close])
  | .finish => (flattener, [.finish])
  | .quadTo control point =>
      let vertices :=
        Curve.quadVertices flattener.flatness Curve.maxDepth flattener.current control point
      ({ flattener with current := point }, .lineJoin :: vertices.map .lineTo)
  | .cubicTo control₁ control₂ point =>
      let vertices :=
        Curve.cubicVertices flattener.flatness Curve.maxDepth flattener.current control₁
          control₂ point
      ({ flattener with current := point }, .lineJoin :: vertices.map .lineTo)

/-- Flattening never changes the flatness. -/
@[simp]
theorem flatness_step (flattener : Flattener) (command : PathCommand) :
    (flattener.step command).1.flatness = flattener.flatness := by
  cases command with
  | line command => cases command <;> rfl
  | quadTo control point => rfl
  | cubicTo control₁ control₂ point => rfl

end Flattener

end Raster
