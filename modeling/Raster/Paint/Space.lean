import Raster.Affine

/-!
# The space of a paint

A paint has a coordinate space of its own.  Its transformation to user space is
followed by the drawing transformation, and pixels are mapped back through the
inverse of the two, which is kept beside them.
-/

namespace Raster

/-- The transformations of a paint. -/
structure PaintSpace where
  /-- From paint space to user space. -/
  toUser : Affine
  /-- From paint space to device space. -/
  toDevice : Affine
  /-- From device space to paint space, if there is an inverse. -/
  fromDevice : Option Affine
deriving Repr, DecidableEq

namespace PaintSpace

/-- The space under another drawing transformation. -/
def draw (space : PaintSpace) (drawing : Affine) : PaintSpace :=
  let toDevice := drawing.concat space.toUser
  { toUser := space.toUser
    toDevice := toDevice
    fromDevice := toDevice.inverse? }

/-- The space of a paint that is drawn without a drawing transformation. -/
def new (toUser : Affine) : PaintSpace :=
  draw ⟨toUser, toUser, none⟩ .identity

@[simp]
theorem toUser_draw (space : PaintSpace) (drawing : Affine) :
    (space.draw drawing).toUser = space.toUser :=
  rfl

/-- Only the last drawing transformation counts. -/
@[simp]
theorem draw_draw (space : PaintSpace) (first second : Affine) :
    (space.draw first).draw second = space.draw second :=
  rfl

end PaintSpace

end Raster
