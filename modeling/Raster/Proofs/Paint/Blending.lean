import Raster.Color

/-!
# Channels between two channels

A packed color is its four channels, and colors are blended channel by channel.  A blended channel
lies between the two that it is blended from, at either end it is one of them, and it moves in one
direction only.
-/

namespace Raster

/-- One of the four channels of a color. -/
inductive Channel where
  | alpha
  | red
  | green
  | blue
deriving Repr, DecidableEq

namespace Channel

/-- The channel of a color. -/
def ofColor : Channel → Color → UInt8
  | alpha, color => color.alpha
  | red, color => color.red
  | green, color => color.green
  | blue, color => color.blue

/-- The channel of a packed color. -/
def ofWord : Channel → Nat → Nat
  | alpha, word => Argb.alpha word
  | red, word => Argb.red word
  | green, word => Argb.green word
  | blue, word => Argb.blue word

theorem ofWord_lt (channel : Channel) (word : Nat) : channel.ofWord word < 256 := by
  cases channel <;> exact Nat.mod_lt _ (by decide)

/-- Channels that fit their fields are taken out of a word as they were put into it. -/
theorem ofWord_pack (levels : Channel → Nat) (fit : ∀ channel, levels channel < 256)
    (channel : Channel) :
    channel.ofWord (Argb.pack (levels alpha) (levels red) (levels green) (levels blue)) =
      levels channel := by
  cases channel with
  | alpha => exact Argb.alpha_pack (fit alpha) (fit red) (fit green) (fit blue)
  | red => exact Argb.red_pack (fit red) (fit green) (fit blue)
  | green => exact Argb.green_pack (fit green) (fit blue)
  | blue => exact Argb.blue_pack (fit blue)

theorem pack_lt (levels : Channel → Nat) (fit : ∀ channel, levels channel < 256) :
    Argb.pack (levels alpha) (levels red) (levels green) (levels blue) < 4294967296 := by
  have a := fit alpha
  have r := fit red
  have g := fit green
  have b := fit blue
  unfold Argb.pack
  omega

theorem ofWord_argb (channel : Channel) (color : Color) :
    channel.ofWord color.argb = (channel.ofColor color).toNat :=
  ofWord_pack (fun channel => (channel.ofColor color).toNat)
    (fun channel => (channel.ofColor color).toNat_lt) channel

/-- The channel of a packed color lies between the least and the greatest among others. -/
def Within (channel : Channel) (others : List Nat) (word : Nat) : Prop :=
  ∃ low ∈ others, ∃ high ∈ others,
    channel.ofWord low ≤ channel.ofWord word ∧ channel.ofWord word ≤ channel.ofWord high

section Within

variable {channel : Channel} {words others : List Nat} {word : Nat}

theorem Within.mono (within : channel.Within words word) (subset : words ⊆ others) :
    channel.Within others word := by
  obtain ⟨low, lowMember, high, highMember, bounds⟩ := within
  exact ⟨low, subset lowMember, high, subset highMember, bounds⟩

theorem Within.trans (within : channel.Within words word)
    (each : ∀ other ∈ words, channel.Within others other) : channel.Within others word := by
  obtain ⟨low, lowMember, high, highMember, above, below⟩ := within
  obtain ⟨least, leastMember, _, _, aboveLow, _⟩ := each low lowMember
  obtain ⟨_, _, greatest, greatestMember, _, belowHigh⟩ := each high highMember
  exact ⟨least, leastMember, greatest, greatestMember, Nat.le_trans aboveLow above,
    Nat.le_trans below belowHigh⟩

end Within

end Channel

namespace Argb

/-! ## Blended channels -/

section Lerp

variable {first second low high : Nat} {share other : Int}

theorem lerp_zero (first second : Nat) : lerp first second 0 = first := by
  unfold lerp
  omega

theorem lerp_one (first second : Nat) : lerp first second 65536 = second := by
  unfold lerp
  omega

/-- Both ends have a share in what lies between them. -/
theorem scaled_between (first second : Nat) (share : Int) :
    (first : Int) * 65536 + ((second : Int) - first) * share =
      first * (65536 - share) + second * share := by
  grind

theorem lerp_le (nonneg : 0 ≤ share) (unit : share ≤ 65536) (firstBelow : first ≤ high)
    (secondBelow : second ≤ high) : lerp first second share ≤ high := by
  have kept : (first : Int) * (65536 - share) ≤ high * (65536 - share) :=
    Int.mul_le_mul_of_nonneg_right (by omega) (by omega)
  have taken : (second : Int) * share ≤ high * share :=
    Int.mul_le_mul_of_nonneg_right (by omega) nonneg
  have whole : (high : Int) * (65536 - share) + high * share = high * 65536 := by
    rw [← Int.mul_add, Int.sub_add_cancel]
  rw [lerp, scaled_between]
  omega

theorem le_lerp (nonneg : 0 ≤ share) (unit : share ≤ 65536) (firstAbove : low ≤ first)
    (secondAbove : low ≤ second) : low ≤ lerp first second share := by
  have kept : (low : Int) * (65536 - share) ≤ first * (65536 - share) :=
    Int.mul_le_mul_of_nonneg_right (by omega) (by omega)
  have taken : (low : Int) * share ≤ second * share :=
    Int.mul_le_mul_of_nonneg_right (by omega) nonneg
  have whole : (low : Int) * (65536 - share) + low * share = low * 65536 := by
    rw [← Int.mul_add, Int.sub_add_cancel]
  rw [lerp, scaled_between]
  omega

theorem lerp_le_lerp (rising : first ≤ second) (farther : share ≤ other) :
    lerp first second share ≤ lerp first second other := by
  have moved : ((second : Int) - first) * share ≤ (second - first) * other :=
    Int.mul_le_mul_of_nonneg_left farther (by omega)
  unfold lerp
  omega

theorem lerp_le_lerp_of_ge (falling : second ≤ first) (farther : share ≤ other) :
    lerp first second other ≤ lerp first second share := by
  have moved : ((first : Int) - second) * share ≤ (first - second) * other :=
    Int.mul_le_mul_of_nonneg_left farther (by omega)
  have turned (way : Int) : ((first : Int) - second) * way = -((second - first) * way) := by
    rw [← Int.neg_mul, Int.neg_sub]
  rw [turned, turned] at moved
  unfold lerp
  omega

/-- Blended channels fit their fields. -/
theorem lerp_ofWord_lt (nonneg : 0 ≤ share) (unit : share ≤ 65536) (first second : Nat)
    (channel : Channel) : lerp (channel.ofWord first) (channel.ofWord second) share < 256 := by
  have firstFits := channel.ofWord_lt first
  have secondFits := channel.ofWord_lt second
  have bound : lerp (channel.ofWord first) (channel.ofWord second) share ≤ 255 :=
    lerp_le nonneg unit (by omega) (by omega)
  omega

/-- Colors are blended channel by channel. -/
theorem ofWord_lerpWord (nonneg : 0 ≤ share) (unit : share ≤ 65536) (first second : Nat)
    (channel : Channel) :
    channel.ofWord (lerpWord first second share) =
      lerp (channel.ofWord first) (channel.ofWord second) share :=
  Channel.ofWord_pack (fun channel => lerp (channel.ofWord first) (channel.ofWord second) share)
    (lerp_ofWord_lt nonneg unit first second) channel

theorem within_lerpWord (nonneg : 0 ≤ share) (unit : share ≤ 65536) (first second : Nat)
    (channel : Channel) : channel.Within [first, second] (lerpWord first second share) := by
  unfold Channel.Within
  rw [ofWord_lerpWord nonneg unit]
  rcases Nat.le_total (channel.ofWord first) (channel.ofWord second) with rising | falling
  · exact ⟨first, by simp, second, by simp, le_lerp nonneg unit (Nat.le_refl _) rising,
      lerp_le nonneg unit rising (Nat.le_refl _)⟩
  · exact ⟨second, by simp, first, by simp, le_lerp nonneg unit falling (Nat.le_refl _),
      lerp_le nonneg unit (Nat.le_refl _) falling⟩

theorem lerpWord_lt (nonneg : 0 ≤ share) (unit : share ≤ 65536) (first second : Nat) :
    lerpWord first second share < 4294967296 :=
  Channel.pack_lt (fun channel => lerp (channel.ofWord first) (channel.ofWord second) share)
    (lerp_ofWord_lt nonneg unit first second)

end Lerp

end Argb

end Raster
