/-!
# Machine words

Coordinates are signed 32-bit integers and intermediate products are signed
64-bit ones.  Values are carried as `Int`; the functions here say where a value
is limited to a word's range and where it wraps around it.
-/

namespace Raster.Word

/-- The least signed 32-bit integer. -/
def min32 : Int := -2147483648

/-- The greatest signed 32-bit integer. -/
def max32 : Int := 2147483647

/-- The least signed 64-bit integer. -/
def min64 : Int := -9223372036854775808

/-- The greatest signed 64-bit integer. -/
def max64 : Int := 9223372036854775807

/-- `value` is a signed 32-bit integer. -/
def Fits32 (value : Int) : Prop :=
  min32 ≤ value ∧ value ≤ max32

/-- `value` is a signed 64-bit integer. -/
def Fits64 (value : Int) : Prop :=
  min64 ≤ value ∧ value ≤ max64

instance (value : Int) : Decidable (Fits32 value) :=
  inferInstanceAs (Decidable (_ ∧ _))

instance (value : Int) : Decidable (Fits64 value) :=
  inferInstanceAs (Decidable (_ ∧ _))

/-- The signed 32-bit integer nearest to `value`. -/
def clamp32 (value : Int) : Int :=
  if value > max32 then max32 else if value < min32 then min32 else value

/-- The signed 64-bit integer nearest to `value`. -/
def clamp64 (value : Int) : Int :=
  if value > max64 then max64 else if value < min64 then min64 else value

/-- The signed 32-bit integer congruent to `value` modulo `2 ^ 32`. -/
def wrap32 (value : Int) : Int :=
  (value + 2147483648) % 4294967296 - 2147483648

/-- The signed 64-bit integer congruent to `value` modulo `2 ^ 64`. -/
def wrap64 (value : Int) : Int :=
  (value + 9223372036854775808) % 18446744073709551616 - 9223372036854775808

/-- The number of distinct buffer indices: an index is an unsigned 64-bit
integer. -/
def indexLimit : Nat := 18446744073709551616

/-- The buffer index congruent to `value` modulo `2 ^ 64`. -/
def wrapIndex (value : Nat) : Nat :=
  value % indexLimit

/-- The greatest length of a buffer of 32-bit elements: no buffer takes up more than
`2 ^ 63 - 1` bytes. -/
def maxLength : Nat := 2305843009213693951

/-- `count` integers from `first` onward, each `step` more than the one before; sums are
signed 64-bit integers. -/
def steps (step : Int) : Nat → Int → List Int
  | 0, _ => []
  | count + 1, first => first :: steps step count (wrap64 (first + step))

theorem fits32_clamp32 (value : Int) : Fits32 (clamp32 value) := by
  unfold Fits32 clamp32 min32 max32
  split
  · omega
  · split <;> omega

theorem clamp32_eq_self {value : Int} (fits : Fits32 value) :
    clamp32 value = value := by
  unfold Fits32 min32 max32 at fits
  unfold clamp32 min32 max32
  split
  · omega
  · split <;> omega

theorem fits32_wrap32 (value : Int) : Fits32 (wrap32 value) := by
  unfold Fits32 wrap32 min32 max32
  omega

theorem wrap32_eq_self {value : Int} (fits : Fits32 value) :
    wrap32 value = value := by
  unfold Fits32 min32 max32 at fits
  unfold wrap32
  omega

theorem fits64_wrap64 (value : Int) : Fits64 (wrap64 value) := by
  unfold Fits64 wrap64 min64 max64
  omega

theorem wrap64_eq_self {value : Int} (fits : Fits64 value) :
    wrap64 value = value := by
  unfold Fits64 min64 max64 at fits
  unfold wrap64
  omega

@[simp]
theorem length_steps (step : Int) (count : Nat) (first : Int) :
    (steps step count first).length = count := by
  induction count generalizing first with
  | zero => rfl
  | succ count inductionHypothesis => rw [steps, List.length_cons, inductionHypothesis]

theorem wrapIndex_eq_self {index : Nat} (below : index < indexLimit) :
    wrapIndex index = index :=
  Nat.mod_eq_of_lt below

theorem wrapIndex_le (index : Nat) : wrapIndex index ≤ index :=
  Nat.mod_le _ _

end Raster.Word
