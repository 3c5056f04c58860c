import Raster.Color
import Raster.Error
import Raster.Paint.Cycle

/-!
# Color ramps

A gradient is given by stops, each a color at a fraction.  A ramp tabulates the
colors at 256 fractions.  Each entry is the average over a narrow window around
its fraction, so that an abrupt change of color is softened; a window inside one
segment is represented by its center.
-/

namespace Raster

/-- A color at a fixed-point fraction of a gradient. -/
structure GradientStop where
  fraction : Int
  color : Color
deriving Repr, DecidableEq

/-- A table of the colors of a gradient, with the stops that it was built from. -/
structure Ramp where
  stops : List GradientStop
  cycle : Cycle
  /-- Packed colors; entry `i` stands for the fraction `i / 255`. -/
  entries : Array Nat
deriving Repr, DecidableEq

namespace Ramp

/-- The number of entries. -/
def size : Nat := 256

/-- Half the width of the window of an entry, in fixed-point units. -/
def windowRadius : Int := 256

/-! ## Stops -/

/-- Stops with their fractions limited to the range of a gradient and raised to
that of the stop before, which is at least `least`. -/
def settle (least : Int) : List GradientStop → List GradientStop
  | [] => []
  | stop :: rest =>
      let fraction := min (max stop.fraction least) Fixed.one
      ⟨fraction, stop.color⟩ :: settle fraction rest

/-- The first stop repeated at zero, unless it is there already. -/
def startAtZero : List GradientStop → List GradientStop
  | [] => []
  | stop :: rest =>
      if stop.fraction > 0 then ⟨0, stop.color⟩ :: stop :: rest else stop :: rest

/-- The last stop repeated at one, unless it is there already. -/
def stopAtOne (stops : List GradientStop) : List GradientStop :=
  match stops.getLast? with
  | none => stops
  | some stop =>
      if stop.fraction < Fixed.one then stops ++ [⟨Fixed.one, stop.color⟩] else stops

/-- Stops with non-decreasing fractions from zero to one. -/
def normalize (stops : List GradientStop) : List GradientStop :=
  stopAtOne (startAtZero (settle 0 stops))

/-! ## Segments -/

/-- The part of a gradient between two neighboring stops. -/
structure Segment where
  first : GradientStop
  second : GradientStop
deriving Repr, DecidableEq

/-- The segments between neighboring stops. -/
def segments (stops : List GradientStop) : List Segment :=
  List.zipWith Segment.mk stops stops.tail

namespace Segment

/-- A channel at a fraction of a segment; a segment without extent has the channel
of its second stop. -/
def channelAt (segment : Segment) (channel : Color → UInt8) (fraction : Int) : Nat :=
  let extent := segment.second.fraction - segment.first.fraction
  if extent ≤ 0 then
    (channel segment.second.color).toNat
  else
    Argb.lerp (channel segment.first.color).toNat (channel segment.second.color).toNat
      ((fraction - segment.first.fraction) * 65536 / extent)

/-- Whether a segment holds all fractions from `low` to `high`. -/
def holds (segment : Segment) (low high : Int) : Bool :=
  segment.first.fraction ≤ low && high ≤ segment.second.fraction

end Segment

/-- A channel at a fraction: that of the first segment which ends after it, or of
the last segment. -/
def channelAt (segments : List Segment) (channel : Color → UInt8) (fraction : Int) : Nat :=
  match segments.find? fun segment => fraction < segment.second.fraction with
  | some segment => segment.channelAt channel fraction
  | none =>
      match segments.getLast? with
      | some segment => segment.channelAt channel fraction
      | none => 0

/-! ## Entries -/

/-- The fraction that an entry stands for. -/
def centerOf (index : Nat) : Int :=
  index * 65536 / 255

/-- The sum of a channel over `count` fractions from `low` onward. -/
def sumChannel (segments : List Segment) (channel : Color → UInt8) (low : Int) : Nat → Nat
  | 0 => 0
  | count + 1 =>
      sumChannel segments channel low count + channelAt segments channel (low + count)

/-- A channel of an entry. -/
def entryChannel (segments : List Segment) (index : Nat) (channel : Color → UInt8) : Nat :=
  let center := centerOf index
  let low := max (center - windowRadius) 0
  let high := min (center + windowRadius) Fixed.one
  match segments.find? fun segment => segment.holds low high with
  | some segment => segment.channelAt channel center
  | none =>
      let count := (high - low + 1).toNat
      (sumChannel segments channel low count + count / 2) / count

/-- An entry as a packed color. -/
def entry (segments : List Segment) (index : Nat) : Nat :=
  let channel := entryChannel segments index
  Argb.pack (channel (·.alpha)) (channel (·.red)) (channel (·.green)) (channel (·.blue))

/-- The ramp of a list of stops, which must not be empty. -/
def new? (stops : List GradientStop) (cycle : Cycle) : Except Error Ramp :=
  if stops.isEmpty then
    .error .emptyGradient
  else
    let segments := segments (normalize stops)
    .ok
      { stops := stops
        cycle := cycle
        entries := ((List.range size).map (entry segments)).toArray }

/-- Whether the ramp was built from these stops and this cycle. -/
def isBuiltFrom (ramp : Ramp) (stops : List GradientStop) (cycle : Cycle) : Bool :=
  ramp.cycle = cycle && ramp.stops = stops

/-- The entry nearest to a fraction between zero and one. -/
def indexOf (fraction : Int) : Nat :=
  min 255 ((fraction * 255 + 32768) / 65536).toNat

/-- The packed color at a fraction. -/
def lookup (ramp : Ramp) (fraction : Int) : Nat :=
  ramp.entries.getD (indexOf (ramp.cycle.fold fraction)) 0

theorem indexOf_lt_size (fraction : Int) : indexOf fraction < size := by
  unfold indexOf size
  omega

/-- A ramp keeps what it was built from. -/
theorem of_new? {stops : List GradientStop} {cycle : Cycle} {ramp : Ramp}
    (built : new? stops cycle = .ok ramp) : ramp.stops = stops ∧ ramp.cycle = cycle := by
  unfold new? at built
  split at built
  · cases built
  · cases built
    exact ⟨rfl, rfl⟩

/-- A ramp has an entry for every index. -/
theorem size_entries_of_new? {stops : List GradientStop} {cycle : Cycle} {ramp : Ramp}
    (built : new? stops cycle = .ok ramp) : ramp.entries.size = size := by
  unfold new? at built
  split at built
  · exact absurd built (by simp)
  · have equal := Except.ok.inj built
    subst equal
    simp

end Ramp

end Raster
