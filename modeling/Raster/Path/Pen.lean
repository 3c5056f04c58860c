import Raster.Path.Command

/-!
# Pens

A pen is a circle in user space, mapped to device space by the linear part of the
stroke transformation.  It is approximated by a polygon whose number of vertices
grows with the size of the pen on the device.
-/

namespace Raster

/-- A pen and the maps between user space and device space. -/
structure Pen where
  toDevice : LinearMap
  toUser : LinearMap
  /-- Half the line width, in user space. -/
  radius : Float
  /-- The vertices of the pen around its center, in device space. -/
  outline : List Vec
deriving Repr, DecidableEq

/-- The geometry of a segment as joins and caps need it. -/
structure Heading where
  /-- The displacement in device space. -/
  direction : Vec
  /-- The direction in user space, of unit length. -/
  user : Vec
  /-- Half the pen, perpendicular to the segment. -/
  normal : Vec
  /-- Half the pen, along the segment. -/
  along : Vec
deriving Repr, DecidableEq

namespace Heading

/-- The heading of the same segment seen from its other end. -/
def reverse (heading : Heading) : Heading :=
  { heading with normal := -heading.normal, along := -heading.along }

end Heading

namespace Pen

/-- The greatest distance between the pen and its polygon, in pixels. -/
def tolerance : Float := 0.25

/-- The number of vertices of a pen whose radius on the device is at most
`radius`. -/
def vertexCount (radius : Float) : Nat :=
  if radius ≤ tolerance then
    8
  else
    min 256 (max 8 (Scalar.ceilNat (Scalar.pi / (1.0 - tolerance / radius).acos)))

/-- The pen for a line width, unless the transformation is singular. -/
def new? (width : Int) (transform : Affine) : Option Pen :=
  let toDevice := transform.linear
  match toDevice.inverse? with
  | none => none
  | some toUser =>
      let radius := (Fixed.toFloat width).abs * 0.5
      let deviceRadius := radius * (toDevice.first.normSq + toDevice.second.normSq).sqrt
      let count := vertexCount deviceRadius
      let turn := 2.0 * Scalar.pi / Float.ofNat count
      let vertex (i : Nat) : Vec :=
        let angle := Float.ofNat i * turn
        toDevice.apply ⟨angle.cos, angle.sin⟩ * radius
      some
        { toDevice := toDevice
          toUser := toUser
          radius := radius
          outline := (List.range count).map vertex }

/-- The heading of a displacement in device space; one without length has none. -/
def heading? (pen : Pen) (direction : Vec) : Option Heading :=
  let user := pen.toUser.apply direction
  let length := user.norm
  if length ≤ 0.0 || !length.isFinite then
    none
  else
    let user := user / length
    some
      { direction := direction
        user := user
        normal := pen.toDevice.apply ⟨-user.y, user.x⟩ * pen.radius
        along := pen.toDevice.apply user * pen.radius }

end Pen

end Raster
