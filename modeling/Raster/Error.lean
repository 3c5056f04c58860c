/-!
# Errors and faults

An error refuses to build a surface or a paint and names the reason.  A fault ends
a computation that reaches outside a table or a buffer; it has no other answer.
-/

namespace Raster

/-- Why a surface or a paint cannot be built. -/
inductive Error where
  /-- A dimension exceeds the greatest surface size. -/
  | surfaceTooLarge (width height : Nat)
  /-- The layout puts a pixel beyond the last index there is. -/
  | layoutOverflow
  /-- The buffer ends before the last pixel. -/
  | bufferTooSmall (required actual : Nat)
  /-- A gradient without stops. -/
  | emptyGradient
  /-- A texture without texels. -/
  | emptyTexture
  /-- The rows of a texture overlap. -/
  | textureStrideTooSmall (stride width : Nat)
  /-- The texel buffer ends before the last texel. -/
  | textureBufferTooSmall (required actual : Nat)
deriving Repr, DecidableEq

namespace Error

/-- The text that tells a reader what is wrong. -/
def message : Error → String
  | surfaceTooLarge width height => s!"surface size {width}x{height} is too large"
  | layoutOverflow => "surface layout overflows the address space"
  | bufferTooSmall required actual =>
      s!"pixel buffer has {actual} elements, but {required} are required"
  | emptyGradient => "gradient has no color stops"
  | emptyTexture => "texture is empty"
  | textureStrideTooSmall stride width =>
      s!"texture stride {stride} is smaller than the width {width}"
  | textureBufferTooSmall required actual =>
      s!"texel buffer has {actual} elements, but {required} are required"

end Error

/-- Where a computation reaches outside its data. -/
inductive Fault where
  /-- A coverage value beyond the last entry of an alpha table. -/
  | coverageBeyondTable
  /-- A row that does not fit the buffer it is written to. -/
  | rowOutsideBuffer
  /-- A row of texels that the texel buffer does not hold. -/
  | texelsOutsideBuffer
  /-- A buffer of more elements than there can be. -/
  | bufferTooLarge
  /-- A texel that a bordered image does not hold. -/
  | texelOutsideBorder
deriving Repr, DecidableEq

end Raster
