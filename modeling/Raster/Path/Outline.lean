import Raster.Path.Command

/-!
# Outlines of shapes

An outline is a single subpath with double-precision points, which are quantized
when it is turned into commands.  The shapes run clockwise on a screen whose y
axis points down; an arc runs counterclockwise for a positive extent.
-/

namespace Raster

/-- How an arc is closed. -/
inductive ArcClosure where
  /-- Not at all; filling still closes it by a straight line. -/
  | opened
  /-- By a straight line between its ends. -/
  | chord
  /-- By straight lines to its center. -/
  | pie
deriving Repr, DecidableEq, Inhabited

namespace Outline

/-- A part of an outline, which starts where the part before it ends. -/
inductive Part where
  | line (stop : Vec)
  | cubic (control₁ control₂ stop : Vec)
deriving Repr, DecidableEq

namespace Part

/-- The end of a part. -/
def stop : Part → Vec
  | line stop => stop
  | cubic _ _ stop => stop

/-- The same part traversed backward, to the point where it started. -/
def backTo (source : Vec) : Part → Part
  | line _ => line source
  | cubic control₁ control₂ _ => cubic control₂ control₁ source

/-- The command that draws a part. -/
def toCommand : Part → PathCommand
  | line stop => .lineTo stop.toPoint
  | cubic control₁ control₂ stop =>
      .cubicTo control₁.toPoint control₂.toPoint stop.toPoint

end Part

end Outline

/-- A single subpath. -/
structure Outline where
  start : Vec
  parts : List Outline.Part
  closed : Bool
deriving Repr, DecidableEq

namespace Outline

/-- The point where some parts that start at `start` end. -/
def stopOf (start : Vec) (parts : List Part) : Vec :=
  parts.foldl (fun _ part => part.stop) start

/-- Some parts that start at `start`, traversed backward. -/
def reversedParts (start : Vec) : List Part → List Part
  | [] => []
  | part :: rest => reversedParts part.stop rest ++ [part.backTo start]

/-- The outline traversed in the opposite direction. -/
def reverse (outline : Outline) : Outline :=
  { start := stopOf outline.start outline.parts
    parts := reversedParts outline.start outline.parts
    closed := outline.closed }

/-- The commands that draw an outline. -/
def commands (outline : Outline) : List PathCommand :=
  .moveTo outline.start.toPoint :: outline.parts.map Part.toCommand ++
    (if outline.closed then [.close] else [])

/-! ## Shapes -/

/-- A rectangle. -/
def rect (x y w h : Int) : Outline :=
  let x₀ := Fixed.toFloat x
  let y₀ := Fixed.toFloat y
  let x₁ := x₀ + Fixed.toFloat w
  let y₁ := y₀ + Fixed.toFloat h
  { start := ⟨x₀, y₀⟩
    parts := [.line ⟨x₁, y₀⟩, .line ⟨x₁, y₁⟩, .line ⟨x₀, y₁⟩]
    closed := true }

/-- The distance of the control points of a cubic quarter circle from its ends, as
a share of the radius. -/
def kappa : Float := 0.5522847498307934

/-- The ellipse inscribed in a rectangle. -/
def oval (x y w h : Int) : Outline :=
  let rx := Fixed.toFloat w * 0.5
  let ry := Fixed.toFloat h * 0.5
  let cx := Fixed.toFloat x + rx
  let cy := Fixed.toFloat y + ry
  let kx := rx * kappa
  let ky := ry * kappa
  { start := ⟨cx + rx, cy⟩
    parts :=
      [ .cubic ⟨cx + rx, cy + ky⟩ ⟨cx + kx, cy + ry⟩ ⟨cx, cy + ry⟩
      , .cubic ⟨cx - kx, cy + ry⟩ ⟨cx - rx, cy + ky⟩ ⟨cx - rx, cy⟩
      , .cubic ⟨cx - rx, cy - ky⟩ ⟨cx - kx, cy - ry⟩ ⟨cx, cy - ry⟩
      , .cubic ⟨cx + kx, cy - ry⟩ ⟨cx + rx, cy - ky⟩ ⟨cx + rx, cy⟩ ]
    closed := true }

/-- The distance of the control points of a rounded corner from the corner, as a
share of the arc's diameter. -/
def cornerShare : Float := 0.22385762508460333

/-- A rectangle with elliptical corners.  The diameters of the corners are limited
to the size of the rectangle. -/
def roundRect (x y w h arcWidth arcHeight : Int) : Outline :=
  let x₀ := Fixed.toFloat x
  let y₀ := Fixed.toFloat y
  let w := Fixed.toFloat w
  let h := Fixed.toFloat h
  let aw := Scalar.smaller (Scalar.larger (Fixed.toFloat arcWidth) 0.0) w
  let ah := Scalar.smaller (Scalar.larger (Fixed.toFloat arcHeight) 0.0) h
  let cw := aw * cornerShare
  let ch := ah * cornerShare
  let x₁ := x₀ + w
  let y₁ := y₀ + h
  { start := ⟨x₀ + aw * 0.5, y₀⟩
    parts :=
      [ .line ⟨x₁ - aw * 0.5, y₀⟩
      , .cubic ⟨x₁ - cw, y₀⟩ ⟨x₁, y₀ + ch⟩ ⟨x₁, y₀ + ah * 0.5⟩
      , .line ⟨x₁, y₁ - ah * 0.5⟩
      , .cubic ⟨x₁, y₁ - ch⟩ ⟨x₁ - cw, y₁⟩ ⟨x₁ - aw * 0.5, y₁⟩
      , .line ⟨x₀ + aw * 0.5, y₁⟩
      , .cubic ⟨x₀ + cw, y₁⟩ ⟨x₀, y₁ - ch⟩ ⟨x₀, y₁ - ah * 0.5⟩
      , .line ⟨x₀, y₀ + ah * 0.5⟩
      , .cubic ⟨x₀, y₀ + ch⟩ ⟨x₀ + cw, y₀⟩ ⟨x₀ + aw * 0.5, y₀⟩ ]
    closed := true }

/-- An arc of the ellipse inscribed in a rectangle.  Angles are in degrees, counted
counterclockwise on screen from the x axis; the extent is limited to one turn.
The arc is made of as many cubic parts as it has quarter turns. -/
def arc (x y w h start extent : Int) (closure : ArcClosure) : Outline :=
  let rx := Fixed.toFloat w * 0.5
  let ry := Fixed.toFloat h * 0.5
  let center : Vec := ⟨Fixed.toFloat x + rx, Fixed.toFloat y + ry⟩
  let angle := Scalar.radians (Fixed.toFloat start)
  let sweep :=
    Scalar.radians (Scalar.smaller (Scalar.larger (Fixed.toFloat extent) (-360.0)) 360.0)
  let pointAt (t : Float) : Vec := center + ⟨rx * t.cos, -ry * t.sin⟩
  let tangentAt (t : Float) : Vec := ⟨-rx * t.sin, -ry * t.cos⟩
  let count := max 1 (Scalar.ceilNat (sweep.abs / (Scalar.pi * 0.5)))
  let step := sweep / Float.ofNat count
  let k := 4.0 / 3.0 * (step * 0.25).tan
  let part (i : Nat) : Part :=
    let t₀ := angle + step * Float.ofNat i
    let t₁ := angle + step * Float.ofNat (i + 1)
    .cubic (pointAt t₀ + tangentAt t₀ * k) (pointAt t₁ - tangentAt t₁ * k) (pointAt t₁)
  let parts := (List.range count).map part
  { start := pointAt angle
    parts := if closure = .pie then parts ++ [.line center] else parts
    closed := closure ≠ .opened }

end Outline

end Raster
