import Raster.Word

/-!
# Operations in machine words

An operation in words has a result only if the exact one fits.  A computation whose operations all
have results is the one on integers without bounds.
-/

namespace Raster

namespace Word

/-- The least signed 128-bit integer. -/
def min128 : Int := -170141183460469231731687303715884105728

/-- The greatest signed 128-bit integer. -/
def max128 : Int := 170141183460469231731687303715884105727

/-- `value` is a signed 128-bit integer. -/
def Fits128 (value : Int) : Prop :=
  min128 ≤ value ∧ value ≤ max128

instance (value : Int) : Decidable (Fits128 value) :=
  inferInstanceAs (Decidable (_ ∧ _))

/-- A value as a signed 32-bit word, if it is one. -/
def word32? (value : Int) : Option Int :=
  if Fits32 value then some value else none

/-- A value as a signed 64-bit word, if it is one. -/
def word64? (value : Int) : Option Int :=
  if Fits64 value then some value else none

/-- A value as a signed 128-bit word, if it is one. -/
def word128? (value : Int) : Option Int :=
  if Fits128 value then some value else none

theorem word32?_eq_some {value : Int} (fits : Fits32 value) : word32? value = some value :=
  if_pos fits

theorem word64?_eq_some {value : Int} (fits : Fits64 value) : word64? value = some value :=
  if_pos fits

theorem word128?_eq_some {value : Int} (fits : Fits128 value) : word128? value = some value :=
  if_pos fits

end Word

/-- The result of one operation is what the next one gets. -/
theorem bind_eq_of_eq_some {α β : Type} {operation : Option α} {next : α → Option β} {value : α}
    {result : Option β} (done : operation = some value) (rest : next value = result) :
    (operation >>= next) = result := by
  rw [done]
  exact rest

end Raster
