import Mathlib.Algebra.BigOperators.Intervals
import Mathlib.Algebra.Order.BigOperators.Ring.Finset
import Mathlib.Tactic.Linarith
import Mathlib.Tactic.Ring

/-!
# Rounded means over windows

A sequence is averaged over windows, and the means are rounded to integers.  A window has an odd
number of places, so that no mean lies halfway between two integers, and rounding treats rising and
falling sequences alike.  Means follow the direction of their sequence as the window moves along it.
-/

namespace Raster

/-- One of the two directions in which a sequence can run. -/
inductive Direction where
  | rising
  | falling
deriving Repr, DecidableEq

namespace Direction

/-- Whether a value can come before another one in a sequence of this direction. -/
def Leads : Direction → Nat → Nat → Prop
  | rising, first, second => first ≤ second
  | falling, first, second => second ≤ first

instance (direction : Direction) (first second : Nat) : Decidable (direction.Leads first second) :=
  match direction with
  | rising => inferInstanceAs (Decidable (first ≤ second))
  | falling => inferInstanceAs (Decidable (second ≤ first))

variable {direction : Direction} {first second third : Nat}

@[simp]
theorem leads_self (direction : Direction) (value : Nat) : direction.Leads value value := by
  cases direction <;> exact Nat.le_refl value

theorem Leads.trans (here : direction.Leads first second) (next : direction.Leads second third) :
    direction.Leads first third := by
  cases direction with
  | rising => exact Nat.le_trans here next
  | falling => exact Nat.le_trans next here

end Direction

/-- The sum of a sequence over `count` places from `low` onward. -/
def windowSum (sequence : Int → Nat) (low : Int) (count : Nat) : Nat :=
  ∑ place ∈ Finset.range count, sequence (low + place)

/-- The mean of a sequence over `count` places from `low` onward, rounded to the nearest integer. -/
def windowMean (sequence : Int → Nat) (low : Int) (count : Nat) : Nat :=
  (windowSum sequence low count + count / 2) / count

section Windows

variable {direction : Direction} {sequence other : Int → Nat} {low otherLow : Int}
  {count otherCount : Nat}

theorem windowSum_add (sequence : Int → Nat) (low : Int) (count more : Nat) :
    windowSum sequence low (count + more) =
      windowSum sequence low count + windowSum sequence (low + count) more := by
  simp only [windowSum, Finset.sum_range_add, Nat.cast_add, Int.add_assoc]

theorem windowMean_one (sequence : Int → Nat) (low : Int) :
    windowMean sequence low 1 = sequence low := by
  simp [windowMean, windowSum]

/-- Sums are compared as means are, by the lengths of the windows crosswise. -/
theorem leads_mul_windowSum
    (each : ∀ first < count, ∀ second < otherCount,
      direction.Leads (sequence (low + first)) (other (otherLow + second))) :
    direction.Leads (otherCount * windowSum sequence low count)
      (count * windowSum other otherLow otherCount) := by
  have firstSum : otherCount * windowSum sequence low count =
      ∑ first ∈ Finset.range count, ∑ _second ∈ Finset.range otherCount,
        sequence (low + first) := by
    simp [windowSum, Finset.mul_sum]
  have secondSum : count * windowSum other otherLow otherCount =
      ∑ _first ∈ Finset.range count, ∑ second ∈ Finset.range otherCount,
        other (otherLow + second) := by
    simp [windowSum]
  rw [firstSum, secondSum]
  cases direction with
  | rising =>
      exact Finset.sum_le_sum fun first before => Finset.sum_le_sum fun second after =>
        each first (Finset.mem_range.mp before) second (Finset.mem_range.mp after)
  | falling =>
      exact Finset.sum_le_sum fun first before => Finset.sum_le_sum fun second after =>
        each first (Finset.mem_range.mp before) second (Finset.mem_range.mp after)

/-- A sum over an odd number of places is at most as great, in the mean, as another one, if so are
their rounded means. -/
theorem rounded_le_rounded {sum otherSum : Nat} (odd : count % 2 = 1)
    (otherOdd : otherCount % 2 = 1) (ordered : otherCount * sum ≤ count * otherSum) :
    (sum + count / 2) / count ≤ (otherSum + otherCount / 2) / otherCount := by
  rw [Nat.le_div_iff_mul_le (by omega)]
  have bound := Nat.div_mul_le_self (sum + count / 2) count
  generalize (sum + count / 2) / count = mean at bound
  have doubled : 2 * (mean * count) + 1 ≤ 2 * sum + count := by omega
  by_contra exceeds
  have beyond : 2 * otherSum + otherCount ≤ 2 * (mean * otherCount) := by omega
  have scaled := Nat.mul_le_mul_left count beyond
  have otherScaled := Nat.mul_le_mul_left otherCount doubled
  have positive : 0 < otherCount := by omega
  linarith

theorem leads_windowMean (odd : count % 2 = 1) (otherOdd : otherCount % 2 = 1)
    (ordered : direction.Leads (otherCount * windowSum sequence low count)
      (count * windowSum other otherLow otherCount)) :
    direction.Leads (windowMean sequence low count) (windowMean other otherLow otherCount) := by
  cases direction with
  | rising => exact rounded_le_rounded odd otherOdd ordered
  | falling => exact rounded_le_rounded otherOdd odd ordered

/-- If every value of a window leads every value of another one, so do the means. -/
theorem leads_windowMean_of_each (odd : count % 2 = 1) (otherOdd : otherCount % 2 = 1)
    (each : ∀ first < count, ∀ second < otherCount,
      direction.Leads (sequence (low + first)) (other (otherLow + second))) :
    direction.Leads (windowMean sequence low count) (windowMean other otherLow otherCount) :=
  leads_windowMean odd otherOdd (leads_mul_windowSum each)

theorem leads_windowMean_of_forall {value : Nat} (odd : count % 2 = 1)
    (each : ∀ place < count, direction.Leads value (sequence (low + place))) :
    direction.Leads value (windowMean sequence low count) := by
  have alone : windowMean (fun _ => value) 0 1 = value := windowMean_one _ _
  rw [← alone]
  exact leads_windowMean_of_each rfl odd fun _ _ place inside => each place inside

theorem windowMean_leads_of_forall {value : Nat} (odd : count % 2 = 1)
    (each : ∀ place < count, direction.Leads (sequence (low + place)) value) :
    direction.Leads (windowMean sequence low count) value := by
  have alone : windowMean (fun _ => value) 0 1 = value := windowMean_one _ _
  rw [← alone]
  exact leads_windowMean_of_each odd rfl fun place inside _ _ => each place inside

/-- Means follow their sequence: the window loses `before` places at its start and gains `after` at
its end. -/
theorem leads_windowMean_of_moved {before shared after : Nat}
    (odd : (before + shared) % 2 = 1) (otherOdd : (shared + after) % 2 = 1)
    (ordered : ∀ first second : Nat, first < second → second < before + shared + after →
      direction.Leads (sequence (low + first)) (sequence (low + second))) :
    direction.Leads (windowMean sequence low (before + shared))
      (windowMean sequence (low + before) (shared + after)) := by
  have lost : direction.Leads (shared * windowSum sequence low before)
      (before * windowSum sequence (low + before) shared) :=
    leads_mul_windowSum fun first _ second _ => by
      have apart := ordered first (before + second) (by omega) (by omega)
      rwa [Nat.cast_add, ← Int.add_assoc] at apart
  have across : direction.Leads (after * windowSum sequence low before)
      (before * windowSum sequence (low + before + shared) after) :=
    leads_mul_windowSum fun first _ second _ => by
      have apart := ordered first (before + shared + second) (by omega) (by omega)
      rwa [Nat.cast_add, Nat.cast_add, ← Int.add_assoc, ← Int.add_assoc] at apart
  have gained : direction.Leads (after * windowSum sequence (low + before) shared)
      (shared * windowSum sequence (low + before + shared) after) :=
    leads_mul_windowSum fun first _ second _ => by
      have apart := ordered (before + first) (before + shared + second) (by omega) (by omega)
      rwa [Nat.cast_add, Nat.cast_add, Nat.cast_add, ← Int.add_assoc, ← Int.add_assoc,
        ← Int.add_assoc] at apart
  apply leads_windowMean odd otherOdd
  rw [windowSum_add, windowSum_add]
  cases direction with
  | rising =>
      simp only [Direction.Leads] at lost across gained ⊢
      linarith
  | falling =>
      simp only [Direction.Leads] at lost across gained ⊢
      linarith

end Windows

end Raster
