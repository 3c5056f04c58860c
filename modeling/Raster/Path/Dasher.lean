import Raster.Path.Command

/-!
# Dashing

A dasher keeps only the "on" intervals of a dash pattern.  Paths are in device
space, while interval lengths are measured in user space, through the inverse of
the stroke transformation.  Every subpath starts the pattern anew, and every
interval that is kept becomes an open subpath of its own.
-/

namespace Raster

/-- The pattern of a dasher and its place in the current subpath. -/
structure Dasher where
  /-- The interval lengths, an even number of them; the first is "on". -/
  pattern : Array Int
  /-- The interval in which every subpath starts. -/
  startIndex : Nat
  /-- What is left of that interval, in user space. -/
  startRemaining : Float
  /-- The linear map from device space to user space. -/
  toUser : LinearMap
  start : Point
  current : Point
  index : Nat
  remaining : Float
  /-- Whether the current interval has been started in the output. -/
  drawing : Bool
  /-- Whether a corner mark waits for the next segment. -/
  corner : Bool
deriving Repr, DecidableEq

namespace Dasher

/-- The interval that holds a distance along the pattern and what is left of it,
counting intervals from `index`. -/
def locate : List Int → Nat → Int → Nat × Int
  | [], index, _ => (index, 0)
  | length :: rest, index, distance =>
      if length ≤ distance then
        locate rest (index + 1) (distance - length)
      else
        (index, length - distance)

/-- A pattern of even length: one of odd length is repeated once. -/
def evenPattern (pattern : List Int) : List Int :=
  if pattern.length % 2 = 1 then pattern ++ pattern else pattern

/-- The length of a pattern. -/
def total : List Int → Int
  | [] => 0
  | length :: rest => length + total rest

/-- A dasher for a pattern, starting `phase` into it.  There is none for a pattern
that is empty, has a negative length or no extent, nor for a transformation that
cannot be inverted. -/
def new? (pattern : List Int) (phase : Int) (transform : Affine) : Option Dasher :=
  if pattern.isEmpty || pattern.any (· < 0) then
    none
  else
    let intervals := evenPattern pattern
    if total intervals ≤ 0 then
      none
    else
      match transform.linear.inverse? with
      | none => none
      | some toUser =>
          let (index, remaining) := locate intervals 0 (phase % total intervals)
          some
            { pattern := intervals.toArray
              startIndex := index
              startRemaining := Fixed.toFloat remaining
              toUser := toUser
              start := .origin
              current := .origin
              index := index
              remaining := Fixed.toFloat remaining
              drawing := false
              corner := false }

/-- Whether the current interval is kept. -/
def isOn (dasher : Dasher) : Bool :=
  dasher.index % 2 = 0

/-- The dasher at the start of the next interval. -/
def nextInterval (dasher : Dasher) : Dasher :=
  let index := (dasher.index + 1) % dasher.pattern.size
  { dasher with
    index := index
    remaining := Fixed.toFloat (dasher.pattern.getD index 0)
    drawing := false }

/-- The dasher at the start of a subpath. -/
def restart (dasher : Dasher) (point : Point) : Dasher :=
  { dasher with
    start := point
    current := point
    index := dasher.startIndex
    remaining := dasher.startRemaining
    drawing := false
    corner := false }

/-! ## Segments -/

/-- A straight segment of positive length that is being cut into intervals. -/
structure Segment where
  source : Point
  target : Point
  /-- The displacement from source to target, in units of `1 / 65536` pixel. -/
  delta : Vec
  /-- The length in user space. -/
  length : Float
  /-- Whether the source is a corner. -/
  corner : Bool
deriving Repr, DecidableEq

namespace Segment

/-- The point at a share of the way from source to target. -/
def pointAt (segment : Segment) (share : Float) : Point :=
  { x := Word.clamp32
      (Scalar.nearest (Float.ofInt segment.source.x + segment.delta.x * share))
    y := Word.clamp32
      (Scalar.nearest (Float.ofInt segment.source.y + segment.delta.y * share)) }

/-- The point at a distance from the source. -/
def pointAtDistance (segment : Segment) (distance : Float) : Point :=
  segment.pointAt (distance / segment.length)

end Segment

/-- The part of the current interval between two distances from the source of a
segment, if the interval is kept. -/
def piece (dasher : Dasher) (segment : Segment) (source target : Float) :
    List LineCommand :=
  if dasher.isOn then
    let lead : List LineCommand :=
      if dasher.drawing then
        if segment.corner && source == 0 then [.lineJoin] else []
      else
        let first :=
          if source == 0 then segment.source else segment.pointAtDistance source
        [.moveTo first, .lineJoin]
    let last :=
      if target ≥ segment.length then segment.target else segment.pointAtDistance target
    lead ++ [.lineTo last]
  else
    []

/-- Cuts a segment from a distance onward, in front of which `pieces` has been
emitted.  At most `limit` intervals begin in a segment. -/
def cut (segment : Segment) : Nat → Dasher → Float → Array LineCommand →
    Dasher × Array LineCommand
  | 0, dasher, _, pieces => (dasher, pieces)
  | limit + 1, dasher, distance, pieces =>
      let stop := distance + dasher.remaining
      let pieces := pieces ++ dasher.piece segment distance stop
      if stop > segment.length then
        ({ dasher with
            remaining := stop - segment.length
            drawing := dasher.drawing || dasher.isOn }, pieces)
      else if stop == segment.length then
        (dasher.nextInterval, pieces)
      else
        cut segment limit dasher.nextInterval stop pieces

/-- More intervals than any segment is cut into. -/
def cutLimit : Nat := 4611686018427387904

/-- Draws a segment from the current point.  A segment without length draws
nothing, yet takes the corner mark. -/
def lineTo (dasher : Dasher) (point : Point) : Dasher × List LineCommand :=
  let delta : Vec :=
    ⟨Float.ofInt (point.x - dasher.current.x), Float.ofInt (point.y - dasher.current.y)⟩
  let length := (dasher.toUser.apply delta).norm / 65536.0
  let plain := { dasher with corner := false }
  if length ≤ 0.0 then
    (plain, [])
  else
    let segment : Segment := ⟨dasher.current, point, delta, length, dasher.corner⟩
    let (dasher, pieces) := cut segment cutLimit plain 0.0 #[]
    ({ dasher with current := point }, pieces.toList)

/-- Answers one command. -/
def step (dasher : Dasher) : LineCommand → Dasher × List LineCommand
  | .moveTo point => (dasher.restart point, [])
  | .lineJoin => ({ dasher with corner := true }, [])
  | .lineTo point => dasher.lineTo point
  | .close =>
      let (closed, pieces) := dasher.lineTo dasher.start
      (closed.restart dasher.start, pieces)
  | .finish => (dasher.restart .origin, [.finish])

end Dasher

end Raster
