import Mathlib.Order.Bounds.Basic
import Raster.Paint.Ramp
import Raster.Proofs.Paint.Interpolating

/-!
# Folding fractions

Fractions are folded in words: with masks, and with an absolute value that wraps at the least word.
The results are the mathematical folds of all fractions.  A ramp is looked up at the entry nearest
to the folded fraction, so that a lookup inherits the period and the symmetry of the fold.
-/

namespace Raster

/-! ## Words -/

namespace Word

/-- The low bits of a signed word are its remainder, also if it is negative. -/
theorem toInt_and_mask {bits : Nat} (few : bits < 63) (word : BitVec 64) :
    (word &&& BitVec.ofNat 64 (2 ^ bits - 1)).toInt = word.toInt % (2 ^ bits : Nat) := by
  have power : 2 ^ bits ≤ 2 ^ 62 := Nat.pow_le_pow_right (by decide) (by omega)
  have positive : 0 < 2 ^ bits := Nat.two_pow_pos bits
  have mask : (BitVec.ofNat 64 (2 ^ bits - 1)).toNat = 2 ^ bits - 1 := by
    rw [BitVec.toNat_ofNat]
    omega
  have low : (word &&& BitVec.ofNat 64 (2 ^ bits - 1)).toNat = word.toNat % 2 ^ bits := by
    rw [BitVec.toNat_and, mask, Nat.and_two_pow_sub_one_eq_mod]
  have below := Nat.mod_lt word.toNat positive
  have divides : ((2 ^ bits : Nat) : Int) ∣ (2 ^ 64 : Nat) :=
    Int.natCast_dvd_natCast.mpr (Nat.pow_dvd_pow 2 (by omega))
  rw [BitVec.toInt_eq_toNat_of_lt (by omega), low, BitVec.toInt_eq_toNat_bmod, Int.natCast_emod,
    ← Int.emod_emod_of_dvd _ divides, ← Int.emod_emod_of_dvd (Int.bmod _ _) divides,
    Int.bmod_emod]

/-- The absolute value of the least word is the least word. -/
theorem toInt_abs (word : Int64) :
    word.abs.toInt = word.toInt.natAbs ∨
      word.toInt = min64 ∧ word.abs.toInt = min64 := by
  by_cases least : word.toBitVec = BitVec.intMin 64
  · right
    have value : word.toInt = min64 := congrArg BitVec.toInt least
    have same : word.abs.toBitVec = word.toBitVec := by
      rw [Int64.toBitVec_abs, least, BitVec.abs_intMin]
    exact ⟨value, (congrArg BitVec.toInt same).trans value⟩
  · left
    exact BitVec.toInt_abs_eq_natAbs_of_ne_intMin least

theorem toInt_max (first second : Int64) :
    (max first second).toInt = max first.toInt second.toInt := by
  change (if first ≤ second then second else first).toInt = _
  rw [Int.max_def, apply_ite Int64.toInt]
  simp only [Int64.le_iff_toInt_le]

theorem toInt_min (first second : Int64) :
    (min first second).toInt = min first.toInt second.toInt := by
  change (if first ≤ second then first else second).toInt = _
  rw [Int.min_def, apply_ite Int64.toInt]
  simp only [Int64.le_iff_toInt_le]

/-- Narrowing keeps a word that fits. -/
theorem toInt_toInt32 {word : Int64} (fits : Fits32 word.toInt) :
    word.toInt32.toInt = word.toInt := by
  unfold Fits32 min32 max32 at fits
  rw [Int64.toInt_toInt32, Int.bmod_eq_of_le (by omega) (by omega)]

end Word

namespace Cycle

/-! ## The fold in words -/

/-- The fold of a 64-bit fraction, which takes masks and is narrowed to 32 bits. -/
def foldWord : Cycle → Int64 → Int32
  | clamp, fraction => (min (max fraction 0) 65536).toInt32
  | wrap, fraction => (fraction &&& 65535).toInt32
  | reflect, fraction =>
      let phase := (fraction.abs &&& 131071).toInt32
      if phase > 65536 then 131072 - phase else phase

/-- The bits of a fraction below one. -/
theorem toInt_and_one (word : Int64) : (word &&& 65535).toInt = word.toInt % 65536 :=
  Word.toInt_and_mask (by decide : 16 < 63) word.toBitVec

/-- The bits of a fraction below two. -/
theorem toInt_and_two (word : Int64) : (word &&& 131071).toInt = word.toInt % 131072 :=
  Word.toInt_and_mask (by decide : 17 < 63) word.toBitVec

/-- A narrowed word between zero and two is kept. -/
theorem toInt_narrowed {word : Int64} {value : Int} (same : word.toInt = value)
    (nonneg : 0 ≤ value) (small : value < 131072) : word.toInt32.toInt = value := by
  rw [← same]
  apply Word.toInt_toInt32
  unfold Word.Fits32 Word.min32 Word.max32
  omega

/-- The phase of the least word is zero, as if its absolute value did not wrap. -/
theorem toInt_phase (fraction : Int64) :
    (fraction.abs &&& 131071).toInt = fraction.toInt.natAbs % 131072 := by
  rw [toInt_and_two]
  rcases Word.toInt_abs fraction with exact | ⟨least, wrapped⟩
  · rw [exact]
  · rw [least, wrapped]
    rfl

/-- The fold in words is the mathematical one. -/
theorem toInt_foldWord (cycle : Cycle) (fraction : Int64) :
    (cycle.foldWord fraction).toInt = cycle.fold fraction.toInt := by
  have bounds := cycle.fold_bounds fraction.toInt
  unfold Fixed.one at bounds
  cases cycle with
  | clamp =>
      refine toInt_narrowed ?_ bounds.1 (by omega)
      rw [Word.toInt_min, Word.toInt_max]
      rfl
  | wrap => exact toInt_narrowed (toInt_and_one fraction) bounds.1 (by omega)
  | reflect =>
      have phase := toInt_narrowed (toInt_phase fraction) (by omega) (by omega)
      simp only [foldWord, fold, gt_iff_lt, Int32.lt_iff_toInt_lt]
      have one : (65536 : Int32).toInt = 65536 := rfl
      rw [phase, one]
      split
      · rw [Int32.toInt_sub, phase]
        have two : (131072 : Int32).toInt = 131072 := rfl
        rw [two, Int.bmod_eq_of_le (by omega) (by omega)]
        omega
      · omega

/-! ## The fold of all integers -/

/-- Wrapping takes whole periods off. -/
theorem fold_wrap (fraction : Int) :
    wrap.fold fraction = fraction - 65536 * ⌊(fraction : ℚ) / 65536⌋ := by
  rw [Texels.floor_fixed]
  exact Int.emod_def fraction 65536

/-- Reflecting leaves the distance from the nearest end of a double period. -/
theorem isLeast_fold_reflect (fraction : Int) :
    IsLeast {distance | ∃ count : Int, distance = |fraction - 131072 * count|}
      (reflect.fold fraction) := by
  simp only [fold]
  constructor
  · -- The nearest end is at the rounded number of double periods.
    refine ⟨(fraction + 65536) / 131072, ?_⟩
    rw [Int.abs_eq_natAbs]
    omega
  · rintro _ ⟨count, rfl⟩
    rw [Int.abs_eq_natAbs]
    omega

theorem fold_add_period (fraction : Int) : wrap.fold (fraction + 65536) = wrap.fold fraction := by
  simp only [fold, Fixed.one]
  omega

theorem fold_neg (fraction : Int) : reflect.fold (-fraction) = reflect.fold fraction := by
  simp only [fold, Int.natAbs_neg]

theorem fold_add_double_period (fraction : Int) :
    reflect.fold (fraction + 131072) = reflect.fold fraction := by
  simp only [fold]
  omega

end Cycle

namespace Ramp

/-! ## Looking up in words -/

/-- The index of the entry for a folded fraction, in unsigned 32-bit words. -/
def indexWord (fraction : Int32) : UInt32 :=
  min ((fraction.toUInt32 * 255 + 32768) >>> 16) 255

/-- The packed color at a 64-bit fraction, if the ramp has the entry. -/
def lookupWord? (ramp : Ramp) (fraction : Int64) : Option Nat :=
  ramp.entries[(indexWord (ramp.cycle.foldWord fraction)).toNat]?

theorem toNat_indexWord {fraction : Int32} (nonneg : 0 ≤ fraction.toInt)
    (unit : fraction.toInt ≤ 65536) : (indexWord fraction).toNat = indexOf fraction.toInt := by
  have value : (fraction.toUInt32.toNat : Int) = fraction.toInt := by
    have signed : fraction.toInt = _ := BitVec.toInt_eq_toNat_cond fraction.toBitVec
    have below := fraction.toBitVec.isLt
    change (fraction.toBitVec.toNat : Int) = _
    split at signed <;> omega
  have scaled : ((fraction.toUInt32 * 255 + 32768) >>> 16).toNat =
      (fraction.toUInt32.toNat * 255 + 32768) / 65536 := by
    rw [UInt32.toNat_shiftRight, UInt32.toNat_add, UInt32.toNat_mul]
    change ((_ * 255 % 4294967296 + 32768) % 4294967296) >>> 16 = _
    rw [Nat.shiftRight_eq_div_pow]
    omega
  change (if _ ≤ (255 : UInt32) then _ else (255 : UInt32)).toNat = _
  rw [apply_ite UInt32.toNat, scaled, indexOf]
  simp only [UInt32.le_iff_toNat_le, scaled]
  change (if _ ≤ 255 then _ else 255) = _
  split <;> omega

/-- No index is nearer to a folded fraction than that of its entry. -/
theorem abs_indexOf_sub_le {fraction : Int} (nonneg : 0 ≤ fraction) (unit : fraction ≤ 65536)
    (other : Int) :
    |(indexOf fraction : ℚ) - 255 * ((fraction : ℚ) / 65536)| ≤
      |(other : ℚ) - 255 * ((fraction : ℚ) / 65536)| := by
  have scaled (index : Int) : |(index : ℚ) - 255 * ((fraction : ℚ) / 65536)| =
      (|65536 * index - 255 * fraction| : Int) / 65536 := by
    have exact : (index : ℚ) - 255 * ((fraction : ℚ) / 65536) =
        (65536 * index - 255 * fraction : Int) / 65536 := by
      push_cast
      ring
    rw [exact, abs_div, Int.cast_abs, abs_of_pos (by norm_num : (0 : ℚ) < 65536)]
  have near : |65536 * (indexOf fraction : Int) - 255 * fraction| ≤ 32768 := by
    rw [indexOf, Int.abs_eq_natAbs]
    omega
  have nearest : |65536 * (indexOf fraction : Int) - 255 * fraction| ≤
      |65536 * other - 255 * fraction| := by
    rw [Int.abs_eq_natAbs] at near
    rw [Int.abs_eq_natAbs, Int.abs_eq_natAbs]
    rcases lt_trichotomy other (indexOf fraction) with left | rfl | right
    · omega
    · exact le_refl _
    · omega
  rw [scaled other, ← Int.cast_natCast (indexOf fraction), scaled]
  exact div_le_div_of_nonneg_right (Int.cast_le.mpr nearest) (by norm_num)

section Lookup

variable {stops : List GradientStop} {cycle : Cycle} {ramp : Ramp}

/-- A ramp has the entry for every fraction, and reads it in words. -/
theorem lookupWord?_eq_some (built : new? stops cycle = .ok ramp) (fraction : Int64) :
    ∃ inside : indexOf (ramp.cycle.fold fraction.toInt) < ramp.entries.size,
      ramp.lookupWord? fraction = some ramp.entries[indexOf (ramp.cycle.fold fraction.toInt)] ∧
        ramp.lookup fraction.toInt =
          ramp.entries[indexOf (ramp.cycle.fold fraction.toInt)] := by
  have inside : indexOf (ramp.cycle.fold fraction.toInt) < ramp.entries.size := by
    rw [size_entries_of_new? built]
    exact indexOf_lt_size _
  have folded := ramp.cycle.toInt_foldWord fraction
  obtain ⟨nonneg, unit⟩ := ramp.cycle.fold_bounds fraction.toInt
  refine ⟨inside, ?_, ?_⟩
  · rw [lookupWord?, toNat_indexWord (folded ▸ nonneg) (folded ▸ unit), folded]
    exact Array.getElem?_eq_getElem inside
  · rw [lookup, Array.getD_eq_getD_getElem?, Array.getElem?_eq_getElem inside, Option.getD_some]

/-- In words every 64-bit fraction is folded exactly: limited to the range from zero to one, freed
of whole periods, or replaced by its distance from the nearest end of a double period.  Every ramp
has the entry that it is looked up at, and no entry is nearer to the folded fraction.  Looking up
has the period of the fold and, where every other period runs backward, its symmetry. -/
theorem lookup_nearest_to_exact_fold (built : new? stops cycle = .ok ramp) :
    (∀ fraction : Int64,
      (Cycle.clamp.foldWord fraction).toInt = min (max fraction.toInt 0) 65536 ∧
      (Cycle.wrap.foldWord fraction).toInt =
        fraction.toInt - 65536 * ⌊(fraction.toInt : ℚ) / 65536⌋ ∧
      IsLeast {distance | ∃ count : Int, distance = |fraction.toInt - 131072 * count|}
        (Cycle.reflect.foldWord fraction).toInt) ∧
    (∀ fraction : Int64, ∃ index, ∃ inside : index < ramp.entries.size,
      ramp.lookupWord? fraction = some ramp.entries[index] ∧
      ramp.lookup fraction.toInt = ramp.entries[index] ∧
      ∀ other : Int,
        |(index : ℚ) - 255 * (((cycle.foldWord fraction).toInt : ℚ) / 65536)| ≤
          |(other : ℚ) - 255 * (((cycle.foldWord fraction).toInt : ℚ) / 65536)|) ∧
    (cycle = .wrap → ∀ fraction, ramp.lookup (fraction + 65536) = ramp.lookup fraction) ∧
    (cycle = .reflect → ∀ fraction, ramp.lookup (-fraction) = ramp.lookup fraction ∧
      ramp.lookup (fraction + 131072) = ramp.lookup fraction) := by
  have same := (of_new? built).2
  refine ⟨?_, ?_, ?_, ?_⟩
  · intro fraction
    rw [Cycle.toInt_foldWord, Cycle.toInt_foldWord, Cycle.toInt_foldWord]
    exact ⟨rfl, Cycle.fold_wrap _, Cycle.isLeast_fold_reflect _⟩
  · intro fraction
    obtain ⟨inside, inWords, exact⟩ := lookupWord?_eq_some built fraction
    obtain ⟨nonneg, unit⟩ := cycle.fold_bounds fraction.toInt
    refine ⟨_, inside, inWords, exact, ?_⟩
    rw [Cycle.toInt_foldWord, same]
    exact abs_indexOf_sub_le nonneg unit
  · rintro rfl fraction
    rw [lookup, lookup, same, Cycle.fold_add_period]
  · rintro rfl fraction
    rw [lookup, lookup, lookup, same, Cycle.fold_neg, Cycle.fold_add_double_period]
    exact ⟨rfl, rfl⟩

/-- The least fraction, whose absolute value wraps around, is an end of a double period. -/
theorem lookup_nearest_to_exact_fold_least :
    ∃ ramp, new? [⟨0, .black⟩, ⟨65536, ⟨255, 255, 255, 255⟩⟩] .reflect = .ok ramp ∧
      (Cycle.reflect.foldWord Int64.minValue).toInt = 0 ∧
      IsLeast {distance | ∃ count : Int, distance = |Int64.minValue.toInt - 131072 * count|}
        (Cycle.reflect.foldWord Int64.minValue).toInt ∧
      (∃ index, ∃ inside : index < ramp.entries.size,
        ramp.lookupWord? Int64.minValue = some ramp.entries[index]) ∧
      ramp.lookup (-49152) = ramp.lookup 49152 ∧ ramp.lookup 180224 = ramp.lookup 49152 := by
  obtain ⟨ramp, built⟩ : ∃ ramp,
      new? [⟨0, .black⟩, ⟨65536, ⟨255, 255, 255, 255⟩⟩] .reflect = .ok ramp := ⟨_, rfl⟩
  obtain ⟨exact, nearest, _, reflected⟩ := lookup_nearest_to_exact_fold built
  obtain ⟨index, inside, inWords, _⟩ := nearest Int64.minValue
  exact ⟨ramp, built, by decide, (exact Int64.minValue).2.2, ⟨index, inside, inWords⟩,
    (reflected rfl 49152).1, (reflected rfl 49152).2⟩

end Lookup

end Ramp

end Raster
