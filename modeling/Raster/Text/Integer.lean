import Raster.Text.Blank
import Raster.Word

/-!
# Decimal integers

Settings are written as decimal integers: ASCII digits after an optional sign, with
blanks around them.  A number that is not a signed 32-bit integer is refused.
-/

namespace Raster.Text

/-- The value of an ASCII digit. -/
def digit? (c : Char) : Option Nat :=
  if '0' ≤ c ∧ c ≤ '9' then some (c.toNat - 48) else none

/-- The value of some digits that follow digits with the value `high`. -/
def digits? (high : Nat) : List Char → Option Nat
  | [] => some high
  | c :: rest => do digits? (high * 10 + (← digit? c)) rest

/-- The value of at least one digit. -/
def natural? : List Char → Option Nat
  | [] => none
  | c :: rest => digits? 0 (c :: rest)

/-- The value of a signed integer without blanks. -/
def signed? : List Char → Option Int
  | '-' :: rest => (natural? rest).map fun value => -(value : Int)
  | '+' :: rest => (natural? rest).map Int.ofNat
  | rest => (natural? rest).map Int.ofNat

/-- The signed 32-bit integer that a text writes. -/
def int32? (text : String) : Option Int :=
  (signed? (trim text.toList)).filter fun value => decide (Word.Fits32 value)

theorem fits32_of_int32? {text : String} {value : Int}
    (written : int32? text = some value) : Word.Fits32 value := by
  unfold int32? at written
  rw [Option.filter_eq_some_iff] at written
  exact of_decide_eq_true written.2

end Raster.Text
