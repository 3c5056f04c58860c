import Mathlib
import Raster.Fixed

/-!
# Doubles that hold whole numbers

A double whose value is a whole number scaled by a power of two holds it with a mantissa of 53 bits.
Products of such doubles are rounded from the exact product, so they depend on nothing else, and the
difference of equal products is zero.
-/

namespace Raster

open Float.Model Float.Model.UnpackedFloat

namespace Double

/-! ## Full mantissas -/

theorem pos_of_full {mantissa : Nat} (full : 2 ^ 52 ≤ mantissa) : 0 < mantissa :=
  Nat.lt_of_lt_of_le (Nat.two_pow_pos 52) full

theorem log2_full {mantissa : Nat} (full : 2 ^ 52 ≤ mantissa) (fits : mantissa < 2 ^ 53) :
    mantissa.log2 = 52 :=
  (Nat.log2_eq_iff (Nat.ne_of_gt (pos_of_full full))).mpr ⟨full, fits⟩

/-! ## Rounding -/

theorem targetExponent_eq (total : Int) :
    Format.binary64.targetExponent total = max (total - 53) (-1074) :=
  rfl

/-- Doubling the mantissa only adds a bit that the first shift drops. -/
theorem shiftToExponent_double {mantissa : Nat} {exponent target : Int}
    (below : exponent ≤ target) :
    shiftToExponent (2 * mantissa) (exponent - 1) .exact target =
      shiftToExponent mantissa exponent .exact target := by
  have steps : (target - (exponent - 1)).toNat = (target - exponent).toNat + 1 := by omega
  have dropped : ExtendedMantissa.shiftRightOne ⟨2 * mantissa, false, false⟩ =
      ⟨mantissa, false, false⟩ := by
    simp [ExtendedMantissa.shiftRightOne]
  have shifted : ∀ count, Nat.repeat ExtendedMantissa.shiftRightOne (count + 1)
      ⟨2 * mantissa, false, false⟩ =
        Nat.repeat ExtendedMantissa.shiftRightOne count ⟨mantissa, false, false⟩ := by
    intro count
    induction count with
    | zero => exact dropped
    | succ count inductionHypothesis =>
        exact congrArg ExtendedMantissa.shiftRightOne inductionHypothesis
  unfold shiftToExponent
  simp only [steps]
  refine Prod.ext (shifted _) ?_
  change exponent - 1 + (((target - exponent).toNat + 1 : Nat) : Int) = exponent + _
  omega

/-- Rounding depends on the value only, once there are enough bits. -/
theorem roundWithAccuracy_double (sign : Sign) {mantissa : Nat} (full : 2 ^ 52 ≤ mantissa)
    (exponent : Int) :
    roundWithAccuracy .binary64 sign (2 * mantissa) (exponent - 1) .exact =
      roundWithAccuracy .binary64 sign mantissa exponent .exact := by
  have nonzero : mantissa ≠ 0 := Nat.ne_of_gt (pos_of_full full)
  have bits : 52 ≤ mantissa.log2 := (Nat.le_log2 nonzero).mpr full
  have total : totalExponent (2 * mantissa) (exponent - 1) = totalExponent mantissa exponent := by
    unfold totalExponent
    rw [Nat.log2_two_mul nonzero]
    omega
  have below : exponent ≤ Format.binary64.targetExponent (totalExponent mantissa exponent) := by
    rw [targetExponent_eq]
    unfold totalExponent
    omega
  have shifted : shiftToTargetExponent .binary64 (2 * mantissa) (exponent - 1) .exact =
      shiftToTargetExponent .binary64 mantissa exponent .exact := by
    unfold shiftToTargetExponent
    rw [total]
    exact shiftToExponent_double below
  unfold roundWithAccuracy
  rw [shifted]

theorem roundWithAccuracy_scaled (sign : Sign) {mantissa : Nat} (full : 2 ^ 52 ≤ mantissa)
    (exponent : Int) (count : Nat) :
    roundWithAccuracy .binary64 sign (mantissa * 2 ^ count) (exponent - count) .exact =
      roundWithAccuracy .binary64 sign mantissa exponent .exact := by
  induction count with
  | zero => simp
  | succ count inductionHypothesis =>
      have enough : 2 ^ 52 ≤ mantissa * 2 ^ count :=
        Nat.le_trans full (Nat.le_mul_of_pos_right mantissa (Nat.two_pow_pos count))
      have scaled : mantissa * 2 ^ (count + 1) = 2 * (mantissa * 2 ^ count) := by
        rw [Nat.pow_succ, Nat.mul_comm 2, Nat.mul_assoc]
      have lowered : exponent - (count + 1 : Nat) = exponent - count - 1 := by omega
      rw [scaled, lowered, roundWithAccuracy_double sign enough, inductionHypothesis]

theorem shiftToTargetExponent_full {mantissa : Nat} (full : 2 ^ 52 ≤ mantissa)
    (fits : mantissa < 2 ^ 53) {exponent : Int} (normal : -1074 ≤ exponent) :
    shiftToTargetExponent .binary64 mantissa exponent .exact =
      (⟨mantissa, false, false⟩, exponent) := by
  have nonzero : mantissa ≠ 0 := Nat.ne_of_gt (pos_of_full full)
  have bits := log2_full full fits
  have target : Format.binary64.targetExponent (totalExponent mantissa exponent) = exponent := by
    rw [targetExponent_eq]
    unfold totalExponent
    omega
  unfold shiftToTargetExponent shiftToExponent
  simp only [target, Int.sub_self, Int.toNat_zero]
  exact Prod.ext rfl (Int.add_zero exponent)

/-- A full mantissa is not rounded. -/
theorem roundWithAccuracy_full (sign : Sign) {mantissa : Nat} (full : 2 ^ 52 ≤ mantissa)
    (fits : mantissa < 2 ^ 53) {exponent : Int} (normal : -1074 ≤ exponent) :
    ∃ positive, roundWithAccuracy .binary64 sign mantissa exponent .exact =
      .finite sign mantissa exponent positive := by
  have nonzero : mantissa ≠ 0 := Nat.ne_of_gt (pos_of_full full)
  have unshifted := shiftToTargetExponent_full full fits normal
  have kept : ExtendedMantissa.roundedMantissa ⟨mantissa, false, false⟩ = mantissa := rfl
  refine ⟨Nat.pos_of_ne_zero nonzero, ?_⟩
  rw [roundWithAccuracy, unshifted]
  dsimp only
  rw [kept, unshifted]
  exact dif_neg nonzero

theorem mantissa_shiftRight (extended : ExtendedMantissa) (count : Nat) :
    (extended >>> count).mantissa = extended.mantissa / 2 ^ count := by
  induction count with
  | zero => exact (Nat.div_one _).symm
  | succ count inductionHypothesis =>
      change (extended >>> count).mantissa / 2 = _
      rw [inductionHypothesis, Nat.div_div_eq_div_mul, Nat.pow_succ]

theorem roundedMantissa_bounds (extended : ExtendedMantissa) :
    extended.mantissa ≤ extended.roundedMantissa ∧
      extended.roundedMantissa ≤ extended.mantissa + 1 := by
  obtain ⟨mantissa, roundBit, stickyBit⟩ := extended
  cases roundBit <;> cases stickyBit <;>
    simp only [ExtendedMantissa.roundedMantissa, ExtendedMantissa.accuracy,
      Accuracy.roundToNearestEven] <;> omega

/-- More bits than a mantissa has are shifted out, down to a full mantissa. -/
theorem exists_shiftToTargetExponent_eq {mantissa : Nat} (full : 2 ^ 52 ≤ mantissa) {exponent : Int}
    (normal : -1074 ≤ exponent) :
    ∃ extended count, shiftToTargetExponent .binary64 mantissa exponent .exact =
        (extended, exponent + (count : Nat)) ∧
      mantissa.log2 = 52 + count ∧ 2 ^ 52 ≤ extended.mantissa ∧ extended.mantissa < 2 ^ 53 := by
  have nonzero : mantissa ≠ 0 := Nat.ne_of_gt (pos_of_full full)
  obtain ⟨count, bits⟩ := Nat.exists_eq_add_of_le ((Nat.le_log2 nonzero).mpr full)
  have target : Format.binary64.targetExponent (totalExponent mantissa exponent) =
      exponent + count := by
    rw [targetExponent_eq]
    unfold totalExponent
    omega
  have steps : (exponent + (count : Int) - exponent).toNat = count := by omega
  refine ⟨ExtendedMantissa.ofMantissaAndAccuracy mantissa .exact >>> count, count, ?_, bits, ?_, ?_⟩
  · unfold shiftToTargetExponent shiftToExponent
    simp only [target, steps]
  · rw [mantissa_shiftRight, Nat.le_div_iff_mul_le (Nat.two_pow_pos count), ← Nat.pow_add, ← bits]
    exact Nat.log2_self_le nonzero
  · have below := @Nat.lt_log2_self mantissa
    have split : mantissa.log2 + 1 = 53 + count := by omega
    rw [mantissa_shiftRight, Nat.div_lt_iff_lt_mul (Nat.two_pow_pos count), ← Nat.pow_add, ← split]
    exact below

/-- A mantissa that was rounded up to the next power of two loses the bit that this takes. -/
theorem shiftToTargetExponent_carried {exponent : Int} (normal : -1074 ≤ exponent) :
    shiftToTargetExponent .binary64 (2 ^ 53) exponent .exact =
      (⟨2 ^ 52, false, false⟩, exponent + 1) := by
  have next : Format.binary64.targetExponent (totalExponent (2 ^ 53) exponent) = exponent + 1 := by
    rw [targetExponent_eq]
    unfold totalExponent
    rw [Nat.log2_two_pow]
    omega
  have step : (exponent + 1 - exponent).toNat = 1 := by omega
  unfold shiftToTargetExponent shiftToExponent
  simp only [next, step]
  rfl

/-- Rounding more bits than a mantissa has leaves a full mantissa. -/
theorem exists_roundWithAccuracy_eq (sign : Sign) {mantissa : Nat} (full : 2 ^ 52 ≤ mantissa)
    {exponent : Int} (normal : -1074 ≤ exponent) :
    ∃ rounded last positive,
      roundWithAccuracy .binary64 sign mantissa exponent .exact =
        .finite sign rounded last positive ∧
      2 ^ 52 ≤ rounded ∧ rounded < 2 ^ 53 ∧ exponent ≤ last ∧
      last ≤ exponent + mantissa.log2 - 51 := by
  obtain ⟨extended, count, shifted, bits, low, high⟩ := exists_shiftToTargetExponent_eq full normal
  obtain ⟨notLess, notMore⟩ := roundedMantissa_bounds extended
  obtain ⟨rounded, roundedEq⟩ : ∃ rounded, extended.roundedMantissa = rounded := ⟨_, rfl⟩
  rw [roundedEq] at notLess notMore
  rw [roundWithAccuracy, shifted]
  dsimp only
  rw [roundedEq]
  have normal' : -1074 ≤ exponent + count := by omega
  by_cases fits : rounded < 2 ^ 53
  · have positive : rounded ≠ 0 := by
      have := Nat.two_pow_pos 52
      omega
    rw [shiftToTargetExponent_full (Nat.le_trans low notLess) fits normal']
    refine ⟨rounded, exponent + count, Nat.pos_of_ne_zero positive, dif_neg positive,
      Nat.le_trans low notLess, fits, ?_, ?_⟩
    · omega
    · omega
  · obtain rfl : rounded = 2 ^ 53 := by omega
    have positive : 2 ^ 52 ≠ 0 := by decide
    rw [shiftToTargetExponent_carried normal']
    refine ⟨2 ^ 52, exponent + count + 1, Nat.pos_of_ne_zero positive, dif_neg positive, le_rfl,
      by decide, ?_, ?_⟩
    · omega
    · omega

/-! ## Packing -/

/-- A full mantissa is stored without its leading bit. -/
theorem toNat_leading_append {mantissa : Nat} (full : 2 ^ 52 ≤ mantissa)
    (fits : mantissa < 2 ^ 53) : (1#1 ++ BitVec.ofNat 52 mantissa).toNat = mantissa := by
  have low : (BitVec.ofNat 52 mantissa).toNat < 2 ^ 52 := (BitVec.ofNat 52 mantissa).isLt
  rw [BitVec.toNat_append, ← Nat.shiftLeft_add_eq_or_of_lt low, BitVec.toNat_ofNat]
  change 1 <<< 52 + mantissa % 2 ^ 52 = mantissa
  omega

theorem pack_full (sign : Sign) {mantissa : Nat} (full : 2 ^ 52 ≤ mantissa)
    (fits : mantissa < 2 ^ 53) {exponent : Int} (bounded : exponent ≤ 971)
    (positive : 0 < mantissa) :
    UnpackedFloat.pack .binary64 (.finite sign mantissa exponent positive) =
      packComponents .binary64 sign (BitVec.ofNat 11 (exponent + 1075).toNat)
        (BitVec.ofNat 52 mantissa) := by
  have bits := log2_full full fits
  have bias : exponent + (1023 : Nat) + (52 : Nat) = exponent + 1075 := by omega
  have inRange : ¬ 2 ^ 11 ≤ (exponent + 1075).toNat + 1 := by omega
  have whole : mantissa.log2 + 1 = 53 := by omega
  unfold UnpackedFloat.pack
  change (if 2 ^ 11 ≤ (exponent + (1023 : Nat) + (52 : Nat)).toNat + 1 then _ else
    if mantissa.log2 + 1 = 53 then
      packComponents .binary64 sign
        (BitVec.ofNat 11 (exponent + (1023 : Nat) + (52 : Nat)).toNat) _ else _) = _
  rw [bias, if_neg inRange, if_pos whole]

theorem unpack_components (sign : Sign) {mantissa : Nat} (full : 2 ^ 52 ≤ mantissa)
    (fits : mantissa < 2 ^ 53) {biased : Nat} (normal : 0 < biased) (bounded : biased < 2047)
    (positive : 0 < mantissa) :
    UnpackedFloat.unpack .binary64 (packComponents .binary64 sign (BitVec.ofNat 11 biased)
      (BitVec.ofNat 52 mantissa)) = .finite sign mantissa (biased - 1075) positive := by
  have exponentBits : (BitVec.ofNat 11 biased).toNat = biased := by
    rw [BitVec.toNat_ofNat, Nat.mod_eq_of_lt (by omega)]
  have notZero : BitVec.ofNat 11 biased ≠ 0#11 := by
    intro same
    have := congrArg BitVec.toNat same
    rw [exponentBits] at this
    change biased = 0 at this
    omega
  have notOnes : BitVec.ofNat 11 biased ≠ -1#11 := by
    intro same
    have := congrArg BitVec.toNat same
    rw [exponentBits] at this
    change biased = 2047 at this
    omega
  unfold UnpackedFloat.unpack
  simp only [unpackMantissa_packComponents, unpackExponent_packComponents,
    unpackSign_packComponents, Sign.ofBitVec_toBitVec, if_neg notOnes, if_neg notZero,
    toNat_leading_append full fits, exponentBits]
  rfl

/-- A double with a full mantissa is read as it was written. -/
theorem unpack_pack_full (sign : Sign) {mantissa : Nat} (full : 2 ^ 52 ≤ mantissa)
    (fits : mantissa < 2 ^ 53) {exponent : Int} (normal : -1074 ≤ exponent)
    (bounded : exponent ≤ 971) (positive : 0 < mantissa) :
    (Float.Model.pack (.finite sign mantissa exponent positive)).unpack =
      .finite sign mantissa exponent positive := by
  have same : (((exponent + 1075).toNat : Nat) : Int) - 1075 = exponent := by omega
  change UnpackedFloat.unpack .binary64 (UnpackedFloat.pack .binary64 _) = _
  rw [pack_full sign full fits bounded,
    unpack_components sign full fits (by omega) (by omega) positive, same]

/-! ## Values -/

/-- The double is a whole number times a power of two, and it holds the number with all the bits of
its mantissa. -/
def Holds (double : Float) (sign : Sign) (value : Nat) (scale : Int) : Prop :=
  ∃ positive, double.toModel.unpack =
    .finite sign (value * 2 ^ (52 - value.log2)) (scale - (52 - value.log2 : Nat)) positive

/-- A value that fits a mantissa fills it once it is shifted as far as it can be. -/
theorem full_mantissa {value : Nat} (nonzero : value ≠ 0) (fits : value < 2 ^ 53) :
    2 ^ 52 ≤ value * 2 ^ (52 - value.log2) ∧ value * 2 ^ (52 - value.log2) < 2 ^ 53 := by
  have bits : value.log2 < 53 := (Nat.log2_lt nonzero).mpr fits
  have low := Nat.log2_self_le nonzero
  have high := @Nat.lt_log2_self value
  have lowest : 2 ^ value.log2 * 2 ^ (52 - value.log2) = 2 ^ 52 := by
    rw [← Nat.pow_add]
    congr 1
    omega
  have highest : 2 ^ (value.log2 + 1) * 2 ^ (52 - value.log2) = 2 ^ 53 := by
    rw [← Nat.pow_add]
    congr 1
    omega
  have positive := Nat.two_pow_pos (52 - value.log2)
  constructor
  · rw [← lowest]
    exact Nat.mul_le_mul_right _ low
  · rw [← highest]
    exact Nat.mul_lt_mul_of_pos_right high positive

/-- A rounded value that fits a mantissa is held. -/
theorem holds_of_toModel_eq {double : Float} {sign : Sign} {value : Nat} {scale : Int}
    (nonzero : value ≠ 0) (fits : value < 2 ^ 53) (normal : -1022 ≤ scale) (bounded : scale ≤ 971)
    {count : Nat} (enough : 52 - value.log2 ≤ count)
    (written : double.toModel = Float.Model.pack
      (roundWithAccuracy .binary64 sign (value * 2 ^ count) (scale - count) .exact)) :
    Holds double sign value scale := by
  obtain ⟨full, short⟩ := full_mantissa nonzero fits
  obtain ⟨rest, rfl⟩ := Nat.exists_eq_add_of_le enough
  have scaled : scale - ((52 - value.log2 + rest : Nat) : Int) =
      scale - (52 - value.log2 : Nat) - rest := by omega
  have lowest : -1074 ≤ scale - (52 - value.log2 : Nat) := by omega
  obtain ⟨positive, exact⟩ := roundWithAccuracy_full sign full short lowest
  rw [Nat.pow_add, ← Nat.mul_assoc, scaled, roundWithAccuracy_scaled sign full, exact] at written
  refine ⟨positive, ?_⟩
  rw [written]
  exact unpack_pack_full sign full short lowest (by omega) positive

theorem toModel_mul (first second : Float) :
    (first * second).toModel = Float.Model.pack
      (UnpackedFloat.mul .binary64 first.toModel.unpack second.toModel.unpack) :=
  rfl

theorem toModel_sub (first second : Float) :
    (first - second).toModel = Float.Model.pack
      (UnpackedFloat.sub .binary64 first.toModel.unpack second.toModel.unpack) :=
  rfl

theorem Holds.mul {first second : Float} {firstSign secondSign : Sign}
    {firstValue secondValue : Nat} {firstScale secondScale : Int}
    (holdsFirst : Holds first firstSign firstValue firstScale)
    (holdsSecond : Holds second secondSign secondValue secondScale) :
    (first * second).toModel = Float.Model.pack
      (roundWithAccuracy .binary64 (firstSign * secondSign)
        (firstValue * 2 ^ (52 - firstValue.log2) * (secondValue * 2 ^ (52 - secondValue.log2)))
        (firstScale - (52 - firstValue.log2 : Nat) + (secondScale - (52 - secondValue.log2 : Nat)))
        .exact) := by
  obtain ⟨_, readFirst⟩ := holdsFirst
  obtain ⟨_, readSecond⟩ := holdsSecond
  rw [toModel_mul, readFirst, readSecond]
  rfl

theorem Holds.neg {double : Float} {sign : Sign} {value : Nat} {scale : Int}
    (nonzero : value ≠ 0) (fits : value < 2 ^ 53) (normal : -1022 ≤ scale) (bounded : scale ≤ 971)
    (holds : Holds double sign value scale) : Holds double.neg (-sign) value scale := by
  obtain ⟨full, short⟩ := full_mantissa nonzero fits
  obtain ⟨positive, read⟩ := holds
  refine ⟨positive, ?_⟩
  change (Float.Model.pack (UnpackedFloat.neg double.toModel.unpack)).unpack = _
  rw [read]
  exact unpack_pack_full (-sign) full short (by omega) (by omega) positive

theorem holds_toFloat {value : Nat} (nonzero : value ≠ 0) (fits : value < 2 ^ 53) :
    Holds value.toUInt64.toFloat .positive value 0 := by
  have bits : value.log2 < 53 := (Nat.log2_lt nonzero).mpr fits
  have small : value < 2 ^ 64 := by omega
  have same : value.toUInt64.toNat = value := by
    change (UInt64.ofNat value).toNat = value
    rw [UInt64.toNat_ofNat', Nat.mod_eq_of_lt small]
  have positive : compare (value : Int) 0 = .gt := by
    rw [Int.compare_eq_gt]
    omega
  have target : Format.binary64.targetExponent (totalExponent value 0) =
      -(52 - value.log2 : Nat) := by
    rw [targetExponent_eq]
    unfold totalExponent
    omega
  have steps : (0 - -((52 - value.log2 : Nat) : Int)).toNat = 52 - value.log2 := by omega
  apply holds_of_toModel_eq nonzero fits (by omega) (by omega) (Nat.le_refl _)
  change Float.Model.pack (UnpackedFloat.normalize .binary64 (value.toUInt64.toNat : Nat) 0
    .positive) = _
  unfold UnpackedFloat.normalize
  rw [same, positive]
  simp only [Int.toNat_natCast, UnpackedFloat.round, decreaseExponent, target, steps,
    Nat.shiftLeft_eq]

/-- Whole numbers that fit a mantissa are held as they are. -/
theorem holds_ofNat {value : Nat} (nonzero : value ≠ 0) (fits : value < 2 ^ 53) :
    Holds (Float.ofNat value) .positive value 0 := by
  have one : Holds Float.exactlyRepresentablePowersOfTen[0] .positive 1 0 := ⟨by decide, rfl⟩
  -- A whole number is read as a decimal, so that it is multiplied by the power of ten one.
  have exact : Float.ofNat value =
      value.toUInt64.toFloat * Float.exactlyRepresentablePowersOfTen[0] := by
    change Float.ofScientific value false 0 = _
    have within : value < 2 ^ 53 ∧ 0 ≤ 22 := ⟨fits, by decide⟩
    simp only [Float.ofScientific, dif_pos within]
    rfl
  have product := (holds_toFloat nonzero fits).mul one
  have enough : 52 - value.log2 ≤ 52 - value.log2 + 52 := Nat.le_add_right _ _
  apply holds_of_toModel_eq nonzero fits (by omega) (by omega) enough
  rw [exact, product, Nat.pow_add, Nat.mul_assoc]
  congr 2
  change (0 : Int) - (52 - value.log2 : Nat) + (0 - 52) = _
  omega

/-- A full mantissa is divided by the scale of fixed-point numbers with one bit to spare. -/
theorem divCore_65536 {mantissa : Nat} (full : 2 ^ 52 ≤ mantissa) (fits : mantissa < 2 ^ 53)
    {exponent : Int} (normal : -1000 ≤ exponent) :
    divCore .binary64 mantissa exponent (2 ^ 52) (-36) =
      (2 * mantissa, exponent - 16 - 1, .exact) := by
  have bits := log2_full full fits
  have target : min (exponent - -36) (Format.binary64.targetExponent
      (totalExponent mantissa exponent - totalExponent (2 ^ 52) (-36))) = exponent - 16 - 1 := by
    rw [targetExponent_eq]
    unfold totalExponent
    rw [Nat.log2_two_pow]
    omega
  have steps : (exponent - -36 - (exponent - 16 - 1)).toNat = 53 := by omega
  have shifted : mantissa <<< 53 = 2 * mantissa * 2 ^ 52 := by
    rw [Nat.shiftLeft_eq]
    omega
  have divisor := Nat.two_pow_pos 52
  unfold divCore
  simp only [target, steps, shifted, Nat.mul_div_cancel _ divisor, Nat.mul_mod_left]
  rfl

/-- A quotient by the scale of fixed-point numbers is exact. -/
theorem Holds.div_65536 {double : Float} {sign : Sign} {value : Nat} {scale : Int}
    (nonzero : value ≠ 0) (fits : value < 2 ^ 53) (normal : -900 ≤ scale) (bounded : scale ≤ 971)
    (holds : Holds double sign value scale) : Holds (double / 65536.0) sign value (scale - 16) := by
  obtain ⟨full, short⟩ := full_mantissa nonzero fits
  obtain ⟨positive, read⟩ := holds
  have readDivisor : (65536.0 : Float).toModel.unpack =
      .finite .positive (2 ^ 52) (-36) (by decide) := rfl
  have signed : sign / .positive = sign := by cases sign <;> rfl
  have lowered : scale - 16 - ((52 - value.log2 : Nat) : Int) =
      scale - (52 - value.log2 : Nat) - 16 := by omega
  have lowest : -1000 ≤ scale - ((52 - value.log2 : Nat) : Int) := by omega
  obtain ⟨positive', exact⟩ := roundWithAccuracy_full sign full short
    (by omega : -1074 ≤ scale - ((52 - value.log2 : Nat) : Int) - 16)
  refine ⟨positive', ?_⟩
  change (Float.Model.pack (UnpackedFloat.div .binary64 double.toModel.unpack
    (65536.0 : Float).toModel.unpack)).unpack = _
  rw [read, readDivisor, lowered]
  unfold UnpackedFloat.div
  simp only [divCore_65536 full short lowest, signed]
  rw [roundWithAccuracy_double sign full, exact]
  exact unpack_pack_full sign full short (by omega) (by omega) positive'

/-! ## Differences of products -/

/-- What a product of held values is rounded to: it depends on the exact product only. -/
def rounded (sign : Sign) (value : Nat) (scale : Int) : Float.Model :=
  Float.Model.pack (roundWithAccuracy .binary64 sign (value * 2 ^ 104) (scale - 104) .exact)

theorem Holds.toModel_mul {first second : Float} {firstSign secondSign : Sign}
    {firstValue secondValue : Nat} {firstScale secondScale : Int}
    (holdsFirst : Holds first firstSign firstValue firstScale)
    (holdsSecond : Holds second secondSign secondValue secondScale)
    (nonzeroFirst : firstValue ≠ 0) (fitsFirst : firstValue < 2 ^ 53)
    (nonzeroSecond : secondValue ≠ 0) (fitsSecond : secondValue < 2 ^ 53) :
    (first * second).toModel =
      rounded (firstSign * secondSign) (firstValue * secondValue) (firstScale + secondScale) := by
  have ⟨fullFirst, _⟩ := full_mantissa nonzeroFirst fitsFirst
  have ⟨fullSecond, _⟩ := full_mantissa nonzeroSecond fitsSecond
  have full : 2 ^ 52 ≤ firstValue * 2 ^ (52 - firstValue.log2) *
      (secondValue * 2 ^ (52 - secondValue.log2)) :=
    Nat.le_trans fullFirst (Nat.le_mul_of_pos_right _ (by omega))
  have scaled := roundWithAccuracy_scaled (firstSign * secondSign) full
    (firstScale - (52 - firstValue.log2 : Nat) + (secondScale - (52 - secondValue.log2 : Nat)))
    (104 - (52 - firstValue.log2) - (52 - secondValue.log2))
  have powers : 2 ^ (52 - firstValue.log2) * 2 ^ (52 - secondValue.log2) *
      2 ^ (104 - (52 - firstValue.log2) - (52 - secondValue.log2)) = 2 ^ 104 := by
    rw [← Nat.pow_add, ← Nat.pow_add]
    congr 1
    omega
  have mantissa : firstValue * 2 ^ (52 - firstValue.log2) *
      (secondValue * 2 ^ (52 - secondValue.log2)) *
        2 ^ (104 - (52 - firstValue.log2) - (52 - secondValue.log2)) =
      firstValue * secondValue * 2 ^ 104 := by
    rw [← powers]
    ring
  have exponent : firstScale - (52 - firstValue.log2 : Nat) +
      (secondScale - (52 - secondValue.log2 : Nat)) -
        (104 - (52 - firstValue.log2) - (52 - secondValue.log2) : Nat) =
      firstScale + secondScale - 104 := by
    omega
  rw [holdsFirst.mul holdsSecond, ← scaled, mantissa, exponent, rounded]

/-- The double is zero, of either sign. -/
def Vanishes (double : Float) : Prop :=
  ∃ sign, double.toModel.unpack = .zero sign

theorem unpack_pack_zero (sign : Sign) :
    (Float.Model.pack (.zero sign)).unpack = .zero sign := by
  cases sign <;> rfl

theorem Vanishes.beq_zero {double : Float} (vanishes : Vanishes double) :
    (double == 0) = true := by
  obtain ⟨sign, read⟩ := vanishes
  have readZero : (0 : Float).toModel.unpack = .zero .positive := rfl
  change UnpackedFloat.beq double.toModel.unpack (0 : Float).toModel.unpack = true
  rw [read, readZero]
  cases sign <;> rfl

theorem Vanishes.sub {first second : Float} (firstVanishes : Vanishes first)
    (secondVanishes : Vanishes second) : Vanishes (first - second) := by
  obtain ⟨firstSign, readFirst⟩ := firstVanishes
  obtain ⟨secondSign, readSecond⟩ := secondVanishes
  have difference : ∃ sign, UnpackedFloat.sub .binary64 (.zero firstSign) (.zero secondSign) =
      .zero sign := by
    cases firstSign <;> cases secondSign <;> exact ⟨_, rfl⟩
  obtain ⟨sign, difference⟩ := difference
  refine ⟨sign, ?_⟩
  rw [toModel_sub, readFirst, readSecond, difference, unpack_pack_zero]

/-- A finite double less itself is zero. -/
theorem vanishes_sub_of_eq {first second : Float} (same : first.toModel = second.toModel)
    {sign : Sign} {mantissa : Nat} {exponent : Int} {positive : 0 < mantissa}
    (finite : second.toModel.unpack = .finite sign mantissa exponent positive) :
    Vanishes (first - second) := by
  refine ⟨.positive, ?_⟩
  have difference : UnpackedFloat.sub .binary64 (.finite sign mantissa exponent positive)
      (.finite sign mantissa exponent positive) = .zero .positive := by
    simp only [UnpackedFloat.sub, Int.sub_self]
    rfl
  rw [toModel_sub, same, finite, difference, unpack_pack_zero]

/-! ## Fixed-point numbers -/

/-- The sign of the double that holds a whole number. -/
def signOf (value : Int) : Sign :=
  if value < 0 then .negative else .positive

theorem signOf_of_neg {value : Int} (negative : value < 0) : signOf value = .negative :=
  if_pos negative

theorem signOf_of_pos {value : Int} (positive : 0 < value) : signOf value = .positive :=
  if_neg positive.not_gt

theorem signOf_mul {first second : Int} (nonzeroFirst : first ≠ 0) (nonzeroSecond : second ≠ 0) :
    signOf first * signOf second = signOf (first * second) := by
  rcases lt_or_gt_of_ne nonzeroFirst with left | left <;>
    rcases lt_or_gt_of_ne nonzeroSecond with right | right
  · rw [signOf_of_neg left, signOf_of_neg right, signOf_of_pos (mul_pos_of_neg_of_neg left right)]
    rfl
  · rw [signOf_of_neg left, signOf_of_pos right, signOf_of_neg (mul_neg_of_neg_of_pos left right)]
    rfl
  · rw [signOf_of_pos left, signOf_of_neg right, signOf_of_neg (mul_neg_of_pos_of_neg left right)]
    rfl
  · rw [signOf_of_pos left, signOf_of_pos right, signOf_of_pos (mul_pos left right)]
    rfl

theorem holds_ofInt {value : Int} (nonzero : value ≠ 0) (fits : value.natAbs < 2 ^ 53) :
    Holds (Float.ofInt value) (signOf value) value.natAbs 0 := by
  have nonzeroSize : value.natAbs ≠ 0 := Int.natAbs_ne_zero.mpr nonzero
  have held := holds_ofNat nonzeroSize fits
  cases value with
  | ofNat size => exact held
  | negSucc size =>
      have negative : signOf (Int.negSucc size) = -.positive := if_pos (Int.negSucc_lt_zero size)
      rw [negative]
      exact held.neg nonzeroSize fits (by omega) (by omega)

/-- Fixed-point numbers are held exactly. -/
theorem holds_fixed {raw : Int} (nonzero : raw ≠ 0) (fits : raw.natAbs < 2 ^ 53) :
    Holds (Fixed.toFloat raw) (signOf raw) raw.natAbs (-16) :=
  (holds_ofInt nonzero fits).div_65536 (Int.natAbs_ne_zero.mpr nonzero) fits (by omega) (by omega)

/-- A product of fixed-point numbers that do not vanish is rounded from the exact product. -/
theorem toModel_mul_fixed {first second : Int} (nonzeroFirst : first ≠ 0)
    (nonzeroSecond : second ≠ 0) (fitsFirst : first.natAbs < 2 ^ 53)
    (fitsSecond : second.natAbs < 2 ^ 53) :
    (Fixed.toFloat first * Fixed.toFloat second).toModel =
      rounded (signOf (first * second)) (first * second).natAbs (-32) := by
  have product := (holds_fixed nonzeroFirst fitsFirst).toModel_mul
    (holds_fixed nonzeroSecond fitsSecond) (Int.natAbs_ne_zero.mpr nonzeroFirst) fitsFirst
    (Int.natAbs_ne_zero.mpr nonzeroSecond) fitsSecond
  rw [product, signOf_mul nonzeroFirst nonzeroSecond, Int.natAbs_mul]
  rfl

theorem vanishes_mul_fixed_zero {raw : Int} (fits : raw.natAbs < 2 ^ 53) :
    Vanishes (Fixed.toFloat 0 * Fixed.toFloat raw) ∧
      Vanishes (Fixed.toFloat raw * Fixed.toFloat 0) := by
  have readZero : (Fixed.toFloat 0).toModel.unpack = .zero .positive := rfl
  by_cases zero : raw = 0
  · subst zero
    exact ⟨⟨.positive, rfl⟩, ⟨.positive, rfl⟩⟩
  · obtain ⟨positive, read⟩ := holds_fixed zero fits
    constructor
    · refine ⟨.positive * signOf raw, ?_⟩
      rw [toModel_mul, readZero, read]
      exact unpack_pack_zero _
    · refine ⟨signOf raw * .positive, ?_⟩
      rw [toModel_mul, readZero, read]
      exact unpack_pack_zero _

theorem vanishes_mul_fixed {first second : Int} (fitsFirst : first.natAbs < 2 ^ 53)
    (fitsSecond : second.natAbs < 2 ^ 53) (zero : first * second = 0) :
    Vanishes (Fixed.toFloat first * Fixed.toFloat second) := by
  rcases mul_eq_zero.mp zero with rfl | rfl
  · exact (vanishes_mul_fixed_zero fitsSecond).1
  · exact (vanishes_mul_fixed_zero fitsFirst).2

/-- Rounded products of fixed-point numbers are finite. -/
theorem exists_unpack_rounded (sign : Sign) {value : Nat} (nonzero : value ≠ 0)
    (fits : value < 2 ^ 106) :
    ∃ mantissa exponent positive,
      (rounded sign value (-32)).unpack = .finite sign mantissa exponent positive := by
  have enough : 2 ^ 52 ≤ value * 2 ^ 104 := by omega
  have bits : (value * 2 ^ 104).log2 < 210 := (Nat.log2_lt (by omega)).mpr (by omega)
  obtain ⟨mantissa, exponent, positive, exact, full, short, lowest, highest⟩ :=
    exists_roundWithAccuracy_eq sign enough (by omega : (-1074 : Int) ≤ -32 - 104)
  refine ⟨mantissa, exponent, positive, ?_⟩
  rw [rounded, exact]
  exact unpack_pack_full sign full short (by omega) (by omega) positive

/-- The difference of two products of fixed-point numbers is zero if the exact products are
equal. -/
theorem vanishes_sub_mul_fixed {a b c d : Int} (fitsA : a.natAbs < 2 ^ 53)
    (fitsB : b.natAbs < 2 ^ 53) (fitsC : c.natAbs < 2 ^ 53) (fitsD : d.natAbs < 2 ^ 53)
    (same : a * b = c * d) :
    Vanishes (Fixed.toFloat a * Fixed.toFloat b - Fixed.toFloat c * Fixed.toFloat d) := by
  by_cases zero : c * d = 0
  · exact (vanishes_mul_fixed fitsA fitsB (same.trans zero)).sub
      (vanishes_mul_fixed fitsC fitsD zero)
  · obtain ⟨nonzeroA, nonzeroB⟩ := mul_ne_zero_iff.mp (same ▸ zero : a * b ≠ 0)
    obtain ⟨nonzeroC, nonzeroD⟩ := mul_ne_zero_iff.mp zero
    have first := toModel_mul_fixed nonzeroA nonzeroB fitsA fitsB
    have second := toModel_mul_fixed nonzeroC nonzeroD fitsC fitsD
    have size : (c * d).natAbs < 2 ^ 106 := by
      have wider : (2 : Nat) ^ 106 = 2 ^ 53 * 2 ^ 53 := by rw [← Nat.pow_add]
      rw [Int.natAbs_mul, wider]
      exact Nat.mul_lt_mul'' fitsC fitsD
    obtain ⟨mantissa, exponent, positive, finite⟩ :=
      exists_unpack_rounded (signOf (c * d)) (Int.natAbs_ne_zero.mpr zero) size
    rw [← second] at finite
    rw [same] at first
    exact vanishes_sub_of_eq (first.trans second.symm) finite

end Double

end Raster
