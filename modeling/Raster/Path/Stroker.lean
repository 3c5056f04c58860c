import Raster.Path.Pen
import Raster.Stage

/-!
# Strokes

A stroker replaces each subpath by polygons whose union is its stroke: one for
each segment, one for each join and one for each cap.  All polygons run in the
same direction, so the union is what the nonzero rule fills.

The vertices of a polygon are collected in a buffer that is used for all polygons, and
taken from it when the polygon is drawn.
-/

namespace Raster

/-- The shape of the ends of an open subpath. -/
inductive CapStyle where
  | butt
  | round
  | square
deriving Repr, DecidableEq, Inhabited

/-- The shape of a corner. -/
inductive JoinStyle where
  | miter
  | round
  | bevel
deriving Repr, DecidableEq, Inhabited

/-- How lines are drawn.  Lengths are fixed-point numbers in user space. -/
structure StrokeStyle where
  width : Int
  cap : CapStyle
  join : JoinStyle
  /-- The greatest ratio of the length of a miter to the line width; a corner that
  needs more is beveled. -/
  miterLimit : Int
  /-- Alternating "on" and "off" lengths; without any, lines are solid. -/
  dash : List Int
  dashPhase : Int
deriving Repr, DecidableEq

namespace StrokeStyle

/-- Solid lines one unit wide, with flat ends and mitered corners. -/
def default : StrokeStyle :=
  { width := Fixed.one
    cap := .butt
    join := .miter
    miterLimit := 10 * Fixed.one
    dash := []
    dashPhase := 0 }

end StrokeStyle

namespace Stroker

/-- The subpath that is being stroked. -/
structure Subpath where
  start : Vec
  current : Vec
  /-- The first segment, and whether its start was marked as a corner. -/
  first : Option (Heading × Bool)
  /-- The segment that ends at the current point. -/
  last : Option Heading
  /-- Whether the subpath has more than its start. -/
  drawn : Bool
deriving Repr, DecidableEq

/-- The subpath that starts at a point. -/
def Subpath.at (point : Vec) : Subpath := ⟨point, point, none, none, false⟩

end Stroker

/-- A pen with the subpath that it is drawing. -/
structure Stroker where
  cap : CapStyle
  join : JoinStyle
  miterLimit : Float
  /-- A singular transformation leaves no pen. -/
  pen : Option Pen
  subpath : Option Stroker.Subpath
  /-- Whether a corner mark waits for the next segment. -/
  corner : Bool
  /-- The vertices of the polygon that is drawn next. -/
  vertices : List Vec
deriving Repr, DecidableEq

namespace Stroker

/-- The stroker for a style.  `transform` is the transformation that took the path
from user space to device space. -/
def new (style : StrokeStyle) (transform : Affine) : Stroker :=
  { cap := style.cap
    join := style.join
    miterLimit := Scalar.larger (Fixed.toFloat style.miterLimit) 1.0
    pen := Pen.new? style.width transform
    subpath := none
    corner := false
    vertices := [] }

/-! ## Polygons -/

/-- Twice the signed area of a polygon, given its first vertex and the others. -/
def doubledArea (first : Vec) (vertices : List Vec) : Float :=
  let rec go (sum : Float) : Vec → List Vec → Float
    | last, [] => sum + (last.x * first.y - first.x * last.y)
    | previous, vertex :: rest =>
        go (sum + (previous.x * vertex.y - vertex.x * previous.y)) vertex rest
  go 0.0 first vertices

/-- The commands that draw a polygon through some vertices. -/
def outlineCommands : List Vec → List LineCommand
  | [] => []
  | first :: rest =>
      .moveTo first.toPoint :: rest.map (fun vertex => .lineTo vertex.toPoint) ++ [.close]

/-- A polygon drawn in the positive direction; one without area is left out. -/
def polygon : List Vec → List LineCommand
  | first :: second :: third :: rest =>
      let vertices := first :: second :: third :: rest
      let area := doubledArea first (second :: third :: rest)
      if area == 0 then
        []
      else if area > 0 then
        outlineCommands vertices
      else
        outlineCommands vertices.reverse
  | _ => []

/-- Adds vertices to those in the buffer and draws the polygon through all of them. -/
def emit (stroker : Stroker) (vertices : List Vec) : Stroker × List LineCommand :=
  ({ stroker with vertices := [] }, polygon (stroker.vertices ++ vertices))

/-- The pen put down at a point. -/
def penAt (pen : Pen) (center : Vec) : List Vec :=
  pen.outline.map (center + ·)

/-- The rectangle that the pen sweeps along a segment. -/
def sweep (source target : Vec) (heading : Heading) : List Vec :=
  let n := heading.normal
  [source + n, target + n, target - n, source - n]

/-- The miter's tip, if the corner is not too sharp for one. -/
def miterTip? (limit : Float) (outer₁ outer₂ : Vec) (before after : Heading) : Option Vec :=
  let turn := before.direction.cross after.direction
  if turn == 0 then
    none
  else
    let cosine := Scalar.smaller (Scalar.larger (before.user.dot after.user) (-1.0)) 1.0
    let halfCosine := ((1.0 + cosine) * 0.5).sqrt
    if halfCosine * limit ≥ 1.0 then
      some (outer₁ + before.direction * ((outer₂ - outer₁).cross after.direction / turn))
    else
      none

/-- The polygon that joins two segments at a vertex.  A vertex that is no corner
is joined round, and a straight continuation needs no join. -/
def joinAt? (stroker : Stroker) (pen : Pen) (vertex : Vec) (before after : Heading)
    (corner : Bool) : Option (List Vec) :=
  let style := if corner then stroker.join else .round
  let turn := before.direction.cross after.direction
  if turn == 0 && before.direction.dot after.direction > 0 then
    none
  else if style = .round then
    some (penAt pen vertex)
  else
    let side : Float := if before.normal.dot after.direction < 0 then 1.0 else -1.0
    let outer₁ := vertex + before.normal * side
    let outer₂ := vertex + after.normal * side
    let tip :=
      if style = .miter then
        miterTip? stroker.miterLimit outer₁ outer₂ before after
      else
        none
    match tip with
    | some tip => some [vertex, outer₁, tip, outer₂]
    | none => some [vertex, outer₁, outer₂]

/-- The cap of an end whose segment points outward. -/
def capAt? (stroker : Stroker) (pen : Pen) (point : Vec) (heading : Heading) :
    Option (List Vec) :=
  match stroker.cap with
  | .butt => none
  | .round => some (penAt pen point)
  | .square =>
      let n := heading.normal
      let e := heading.along
      some [point + n, point + n + e, point - n + e, point - n]

/-- The mark of a subpath without extent. -/
def dotAt? (stroker : Stroker) (pen : Pen) (point : Vec) : Option (List Vec) :=
  match stroker.cap with
  | .butt => none
  | .round => some (penAt pen point)
  | .square =>
      let r := pen.radius
      let corners : List Vec := [⟨-r, -r⟩, ⟨r, -r⟩, ⟨r, r⟩, ⟨-r, r⟩]
      some (corners.map (point + pen.toDevice.apply ·))

/-! ## Commands -/

/-- Follows a segment of a subpath, which gives polygons if it has a length and there is
a pen. -/
def segmentTo (stroker : Stroker) (subpath : Subpath) (point : Vec) :
    Stroker × List (List Vec) :=
  let idle := { stroker with subpath := some { subpath with drawn := true } }
  match stroker.pen with
  | none => (idle, [])
  | some pen =>
      match pen.heading? (point - subpath.current) with
      | none => (idle, [])
      | some heading =>
          let join? :=
            match subpath.last with
            | some last => stroker.joinAt? pen subpath.current last heading stroker.corner
            | none => none
          let first :=
            match subpath.last with
            | some _ => subpath.first
            | none => some (heading, stroker.corner)
          let drawn : Subpath := ⟨subpath.start, point, first, some heading, true⟩
          ({ stroker with subpath := some drawn, corner := false },
            join?.toList ++ [sweep subpath.current point heading])

/-- The two caps of an open subpath, or its mark if it has no extent. -/
def endOpen (stroker : Stroker) : List (List Vec) :=
  match stroker.pen, stroker.subpath with
  | some pen, some subpath =>
      match subpath.first, subpath.last with
      | some (first, _), some last =>
          (stroker.capAt? pen subpath.start first.reverse).toList ++
            (stroker.capAt? pen subpath.current last).toList
      | _, _ => if subpath.drawn then (stroker.dotAt? pen subpath.start).toList else []
  | _, _ => []

/-- The join that closes a subpath, or its mark if it has no extent. -/
def endClosed? (stroker : Stroker) (subpath : Subpath) : Option (List Vec) :=
  match stroker.pen with
  | none => none
  | some pen =>
      match subpath.first, subpath.last with
      | some (first, corner), some last =>
          stroker.joinAt? pen subpath.start last first corner
      | _, _ => stroker.dotAt? pen subpath.start

/-- Follows one command and answers the polygons that it gives.  After a subpath is
closed, a new one starts at the same point. -/
def trace (stroker : Stroker) : LineCommand → Stroker × List (List Vec)
  | .moveTo point =>
      ({ stroker with subpath := some (.at (.ofPoint point)), corner := false },
        stroker.endOpen)
  | .lineJoin => ({ stroker with corner := true }, [])
  | .lineTo point =>
      match stroker.subpath with
      | none => (stroker, [])
      | some subpath => stroker.segmentTo subpath (.ofPoint point)
  | .close =>
      match stroker.subpath with
      | none => (stroker, [])
      | some subpath =>
          let (drawn, segment) := stroker.segmentTo subpath subpath.start
          let join? := drawn.subpath.bind drawn.endClosed?
          ({ drawn with subpath := some (.at subpath.start), corner := false },
            segment ++ join?.toList)
  | .finish => ({ stroker with subpath := none, corner := false }, stroker.endOpen)

/-- Answers one command. -/
def step (stroker : Stroker) (command : LineCommand) : Stroker × List LineCommand :=
  let (traced, polygons) := stroker.trace command
  let (drawn, outlines) := Stage.run emit traced polygons
  (drawn, if command = .finish then outlines ++ [.finish] else outlines)

end Stroker

end Raster
