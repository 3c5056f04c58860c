import Mathlib.Data.Finset.Max
import Raster.Proofs.Paint.Blending
import Raster.Proofs.Paint.Grading
import Raster.Proofs.Paint.Settling

/-!
# Ramps between stops

An entry of a ramp is read at its center if one segment holds its window, and it is the mean over
its window otherwise.  Windows of neighboring entries overlap, but neither reaches the center of the
other entry.  So every channel of a ramp runs as it does along the stops, and it stays within
theirs.
-/

namespace Raster

namespace Channel

/-- A word lies within others if it keeps to every bound that they keep to. -/
theorem within_of_bounds {channel : Channel} {words : List Nat} {word : Nat}
    (some : words ≠ [])
    (bounds : ∀ (direction : Direction) (bound : Nat),
      (∀ other ∈ words, direction.Leads (channel.ofWord other) bound) →
        direction.Leads (channel.ofWord word) bound) :
    channel.Within words word := by
  have nonempty := (List.toFinset_nonempty_iff words).mpr some
  obtain ⟨low, lowMember, least⟩ := words.toFinset.exists_min_image channel.ofWord nonempty
  obtain ⟨high, highMember, greatest⟩ := words.toFinset.exists_max_image channel.ofWord nonempty
  refine ⟨low, List.mem_toFinset.mp lowMember, high, List.mem_toFinset.mp highMember, ?_, ?_⟩
  · exact bounds .falling _ fun other member => least other (List.mem_toFinset.mpr member)
  · exact bounds .rising _ fun other member => greatest other (List.mem_toFinset.mpr member)

end Channel

namespace Ramp

/-! ## Windows -/

/-- The first fraction of the window of an entry. -/
def windowLow (index : Nat) : Int :=
  max (centerOf index - windowRadius) 0

/-- The last fraction of the window of an entry. -/
def windowHigh (index : Nat) : Int :=
  min (centerOf index + windowRadius) Fixed.one

/-- The number of fractions in the window of an entry. -/
def windowLength (index : Nat) : Nat :=
  (windowHigh index - windowLow index + 1).toNat

section Windows

variable {index : Nat}

/-- A window lies within the range of a gradient and around its center. -/
theorem window_bounds (tabulated : index < size) :
    0 ≤ windowLow index ∧ windowLow index ≤ centerOf index ∧
      centerOf index ≤ windowHigh index ∧ windowHigh index ≤ Fixed.one := by
  unfold windowLow windowHigh centerOf windowRadius Fixed.one
  unfold size at tabulated
  omega

theorem windowLow_add_two_le (tabulated : index < size) :
    windowLow index + 2 ≤ windowHigh index := by
  unfold windowLow windowHigh centerOf windowRadius Fixed.one
  unfold size at tabulated
  omega

theorem windowLow_add_windowLength (tabulated : index < size) :
    windowLow index + windowLength index = windowHigh index + 1 := by
  have bounds := window_bounds tabulated
  unfold windowLength
  omega

/-- Windows have an odd number of fractions, also where they are cut off at an end. -/
theorem odd_windowLength (tabulated : index < size) : windowLength index % 2 = 1 := by
  by_cases first : index = 0
  · subst first
    rfl
  by_cases last : index = 255
  · subst last
    rfl
  have whole : windowLength index = 513 := by
    unfold windowLength windowHigh windowLow centerOf windowRadius Fixed.one
    unfold size at tabulated
    omega
  rw [whole]

/-- A window ends before the center of the next entry, whose window starts after its center. -/
theorem window_between (index : Nat) :
    centerOf index < windowLow (index + 1) ∧ windowHigh index < centerOf (index + 1) := by
  unfold windowLow windowHigh centerOf windowRadius Fixed.one
  omega

/-- From one entry to the next, the window moves without a gap. -/
theorem exists_window_moved (next : index + 1 < size) :
    ∃ before shared after : Nat, windowLow (index + 1) = windowLow index + before ∧
      windowLength index = before + shared ∧ windowLength (index + 1) = shared + after := by
  refine ⟨(windowLow (index + 1) - windowLow index).toNat,
    (windowHigh index - windowLow (index + 1) + 1).toNat,
    (windowHigh (index + 1) - windowHigh index).toNat, ?_⟩
  unfold windowLength windowHigh windowLow centerOf windowRadius Fixed.one
  unfold size at next
  omega

end Windows

/-! ## What an entry is -/

theorem sumChannel_eq_windowSum (segments : List Segment) (level : Color → UInt8) (low : Int)
    (count : Nat) :
    sumChannel segments level low count = windowSum (channelAt segments level) low count := by
  induction count with
  | zero => rfl
  | succ count inductionHypothesis =>
      rw [sumChannel, inductionHypothesis, windowSum, windowSum, Finset.sum_range_succ]

/-- An entry is read at its center from a segment that holds its window, and it is the mean over its
window if there is no such segment. -/
theorem entryChannel_held_or_crossed (stops : List GradientStop) (index : Nat) :
    (∃ segment ∈ segments stops,
      (segment.first.fraction ≤ windowLow index ∧ windowHigh index ≤ segment.second.fraction) ∧
        ∀ level, entryChannel (segments stops) index level =
          segment.channelAt level (centerOf index)) ∨
      (∀ segment ∈ segments stops,
        ¬(segment.first.fraction ≤ windowLow index ∧
          windowHigh index ≤ segment.second.fraction)) ∧
        ∀ level, entryChannel (segments stops) index level =
          windowMean (channelAt (segments stops) level) (windowLow index) (windowLength index) := by
  simp only [← Segment.holds_iff]
  cases found : (segments stops).find? fun segment =>
      segment.holds (windowLow index) (windowHigh index) with
  | some segment =>
      refine .inl ⟨segment, List.mem_of_find?_eq_some found, List.find?_some
        (p := fun segment : Segment => segment.holds (windowLow index) (windowHigh index)) found,
        fun level => ?_⟩
      unfold windowLow windowHigh at found
      simp only [entryChannel, found]
  | none =>
      refine .inr ⟨List.find?_eq_none.mp found, fun level => ?_⟩
      unfold windowLow windowHigh at found
      simp only [entryChannel, found, sumChannel_eq_windowSum]
      rfl

/-- Stops in the range of a gradient whose segments leave no fraction of it out: at each fraction, a
segment is read that holds it. -/
structure Spanned (stops : List GradientStop) : Prop where
  bounds : ∀ stop ∈ stops, 0 ≤ stop.fraction ∧ stop.fraction ≤ Fixed.one
  ascending : stops.Pairwise fun first second => first.fraction ≤ second.fraction
  read : ∀ x, 0 ≤ x → x ≤ Fixed.one →
    ∃ segment ∈ segments stops, segment.holds x x = true ∧
      ∀ level : Color → UInt8, channelAt (segments stops) level x = segment.channelAt level x

/-- Normalized stops leave no fraction out. -/
theorem spanned_normalize {stops : List GradientStop} (some : stops ≠ []) :
    Spanned (normalize stops) where
  bounds := bounds_normalize some
  ascending := ascending_normalize some
  read := by
    intro x nonneg unit
    obtain ⟨first, rest, startsAtZero, zero, _⟩ := exists_first_normalize some
    obtain ⟨others, last, endsAtOne, one, _⟩ := exists_last_normalize some
    have ascending := ascending_normalize some
    rw [startsAtZero] at ascending ⊢
    refine exists_read ascending (by omega) ⟨last, ?_, by omega⟩
    -- The last stop is another one than the first, as zero is not one.
    have member : last ∈ first :: rest := by
      rw [← startsAtZero, endsAtOne]
      simp
    rcases List.mem_cons.mp member with same | there
    · rw [same, zero] at one
      exact absurd one (by decide)
    · exact there

section Entries

variable {stops : List GradientStop} {level : Color → UInt8} {direction : Direction} {index : Nat}

theorem Spanned.reads (spanned : Spanned stops) {x : Int} (nonneg : 0 ≤ x) (unit : x ≤ Fixed.one) :
    Reads stops level x (channelAt (segments stops) level x) := by
  obtain ⟨segment, member, holds, read⟩ := spanned.read x nonneg unit
  exact ⟨segment, member, holds, read level⟩

theorem entryChannel_read_or_mean (stops : List GradientStop) (level : Color → UInt8)
    (tabulated : index < size) :
    Reads stops level (centerOf index) (entryChannel (segments stops) index level) ∨
      entryChannel (segments stops) index level =
        windowMean (channelAt (segments stops) level) (windowLow index) (windowLength index) := by
  have bounds := window_bounds tabulated
  rcases entryChannel_held_or_crossed stops index with
    ⟨segment, member, held, read⟩ | ⟨_, mean⟩
  · exact .inl ⟨segment, member, Segment.holds_iff.mpr (by omega), read level⟩
  · exact .inr (mean level)

/-- A place in the window of an entry is read inside the range of the gradient. -/
theorem Spanned.reads_in_window (spanned : Spanned stops) (tabulated : index < size) {place : Nat}
    (inside : place < windowLength index) :
    Reads stops level (windowLow index + place)
      (channelAt (segments stops) level (windowLow index + place)) := by
  have bounds := window_bounds tabulated
  have length := windowLow_add_windowLength tabulated
  exact spanned.reads (by omega) (by omega)

/-- What the stops around the window of an entry lead, the entry leads as well. -/
theorem Spanned.entryChannel_leads_bound (spanned : Spanned stops) (tabulated : index < size)
    {bound : Nat}
    (around : ∀ segment ∈ segments stops, segment.first.fraction ≤ windowHigh index →
      windowLow index ≤ segment.second.fraction →
        direction.Leads (level segment.first.color).toNat bound ∧
          direction.Leads (level segment.second.color).toNat bound) :
    direction.Leads (entryChannel (segments stops) index level) bound := by
  have bounds := window_bounds tabulated
  have length := windowLow_add_windowLength tabulated
  have leads (x value) (after : windowLow index ≤ x) (before : x ≤ windowHigh index)
      (read : Reads stops level x value) : direction.Leads value bound := by
    refine read.leads_bound fun segment member holds => ?_
    have held := Segment.holds_iff.mp holds
    exact around segment member (by omega) (by omega)
  rcases entryChannel_read_or_mean stops level tabulated with read | mean
  · exact leads _ _ (by omega) (by omega) read
  · rw [mean]
    refine windowMean_leads_of_forall (odd_windowLength tabulated) fun place inside => ?_
    exact leads _ _ (by omega) (by omega) (spanned.reads_in_window tabulated inside)

/-- Channels of entries fit their fields. -/
theorem Spanned.entryChannel_lt (spanned : Spanned stops) (tabulated : index < size)
    (level : Color → UInt8) : entryChannel (segments stops) index level < 256 := by
  have fits (color : Color) : Direction.rising.Leads (level color).toNat 255 :=
    Nat.le_of_lt_succ (level color).toNat_lt
  exact Nat.lt_succ_of_le (spanned.entryChannel_leads_bound tabulated fun segment _ _ _ =>
    ⟨fits segment.first.color, fits segment.second.color⟩)

/-- An entry leads the next one if every stop leads the stops after it. -/
theorem Spanned.entryChannel_leads_succ (spanned : Spanned stops)
    (leads : stops.Pairwise fun first second =>
      direction.Leads (level first.color).toNat (level second.color).toNat)
    (next : index + 1 < size) :
    direction.Leads (entryChannel (segments stops) index level)
      (entryChannel (segments stops) (index + 1) level) := by
  have tabulated : index < size := Nat.lt_of_succ_lt next
  have bounds := window_bounds tabulated
  have nextBounds := window_bounds next
  have length := windowLow_add_windowLength tabulated
  have nextLength := windowLow_add_windowLength next
  have between := window_between index
  have ordered {x y : Int} {first second : Nat} (here : Reads stops level x first)
      (there : Reads stops level y second) (earlier : x < y) : direction.Leads first second :=
    here.leads spanned.ascending leads there earlier
  -- Only the windows of two means overlap.  A center and a window, or two centers, lie apart, so
  -- that each fraction of the one comes before each fraction of the other.
  rcases entryChannel_read_or_mean stops level tabulated with here | here <;>
    rcases entryChannel_read_or_mean stops level next with there | there
  · exact ordered here there (by omega)
  · rw [there]
    exact leads_windowMean_of_forall (odd_windowLength next) fun place inside =>
      ordered here (spanned.reads_in_window next inside) (by omega)
  · rw [here]
    exact windowMean_leads_of_forall (odd_windowLength tabulated) fun place inside =>
      ordered (spanned.reads_in_window tabulated inside) there (by omega)
  · obtain ⟨before, shared, after, moved, windowed, nextWindowed⟩ := exists_window_moved next
    have odd := odd_windowLength tabulated
    have nextOdd := odd_windowLength next
    rw [windowed] at odd
    rw [nextWindowed] at nextOdd
    rw [here, there, moved, windowed, nextWindowed]
    refine leads_windowMean_of_moved odd nextOdd fun first second earlier inside => ?_
    exact ordered (spanned.reads (by omega) (by omega)) (spanned.reads (by omega) (by omega))
      (by omega)

theorem Spanned.entryChannel_leads (spanned : Spanned stops)
    (leads : stops.Pairwise fun first second =>
      direction.Leads (level first.color).toNat (level second.color).toNat)
    {other : Nat} (later : index ≤ other) (tabulated : other < size) :
    direction.Leads (entryChannel (segments stops) index level)
      (entryChannel (segments stops) other level) := by
  induction later with
  | refl => exact Direction.leads_self _ _
  | step _ inductionHypothesis =>
      exact (inductionHypothesis (Nat.lt_of_succ_lt tabulated)).trans
        (spanned.entryChannel_leads_succ leads tabulated)

end Entries

/-! ## What a ramp is -/

/-- The channels of an entry are packed into it. -/
theorem Spanned.ofWord_entry {stops : List GradientStop} (spanned : Spanned stops) {index : Nat}
    (tabulated : index < size) (channel : Channel) :
    channel.ofWord (entry (segments stops) index) =
      entryChannel (segments stops) index channel.ofColor :=
  Channel.ofWord_pack (fun channel => entryChannel (segments stops) index channel.ofColor)
    (fun channel => spanned.entryChannel_lt tabulated channel.ofColor) channel

theorem Spanned.entry_lt {stops : List GradientStop} (spanned : Spanned stops) {index : Nat}
    (tabulated : index < size) : entry (segments stops) index < 4294967296 :=
  Channel.pack_lt (fun channel => entryChannel (segments stops) index channel.ofColor)
    (fun channel => spanned.entryChannel_lt tabulated channel.ofColor)

/-- Channels of entries lie within those of the stops. -/
theorem within_entry {stops : List GradientStop} (some : stops ≠ []) {index : Nat}
    (tabulated : index < size) (channel : Channel) :
    channel.Within (stops.map (·.color.argb)) (entry (segments (normalize stops)) index) := by
  have spanned := spanned_normalize some
  refine Channel.within_of_bounds (by simpa using some) fun direction bound stopsLead => ?_
  have led : ∀ stop ∈ normalize stops,
      direction.Leads (channel.ofColor stop.color).toNat bound := by
    intro stop member
    obtain ⟨original, there, same⟩ := exists_color_of_mem_normalize some stop member
    rw [← same, ← channel.ofWord_argb]
    exact stopsLead _ (List.mem_map_of_mem there)
  rw [spanned.ofWord_entry tabulated]
  exact spanned.entryChannel_leads_bound tabulated fun segment member _ _ =>
    ⟨led _ (first_mem_of_mem_segments member), led _ (second_mem_of_mem_segments member)⟩

/-- Entries run as the stops do, channel by channel. -/
theorem entry_leads {stops : List GradientStop} (some : stops ≠ []) (channel : Channel)
    (direction : Direction)
    (leads : stops.Pairwise fun first second => direction.Leads
      (channel.ofColor first.color).toNat (channel.ofColor second.color).toNat)
    {index other : Nat} (later : index ≤ other) (tabulated : other < size) :
    direction.Leads (channel.ofWord (entry (segments (normalize stops)) index))
      (channel.ofWord (entry (segments (normalize stops)) other)) := by
  have spanned := spanned_normalize some
  have normalLeads := pairwise_color_normalize (fun first second => direction.Leads
    (channel.ofColor first).toNat (channel.ofColor second).toNat) some
    (fun _ => Direction.leads_self _ _) leads
  rw [spanned.ofWord_entry (Nat.lt_of_le_of_lt later tabulated), spanned.ofWord_entry tabulated]
  exact spanned.entryChannel_leads normalLeads later tabulated

theorem exists_new? {stops : List GradientStop} (some : stops ≠ []) (cycle : Cycle) :
    ∃ ramp, new? stops cycle = .ok ramp ∧ ramp.cycle = cycle ∧ ramp.entries.size = size ∧
      ∀ index < size, ramp.entries.getD index 0 = entry (segments (normalize stops)) index := by
  refine ⟨⟨stops, cycle, ((List.range size).map (entry (segments (normalize stops)))).toArray⟩,
    ?_, rfl, by simp, fun index inside => ?_⟩
  · rw [new?, if_neg (by simpa using some)]
  · simp [Array.getD, inside]

theorem indexOf_mono {fraction other : Int} (farther : fraction ≤ other) :
    indexOf fraction ≤ indexOf other := by
  unfold indexOf
  omega

theorem fold_clamp_mono {fraction other : Int} (farther : fraction ≤ other) :
    Cycle.clamp.fold fraction ≤ Cycle.clamp.fold other := by
  simp only [Cycle.fold]
  omega

/-- A gradient with stops has a ramp, no step of which leaves the segments between its stops; no
channel of it leaves those of the stops, and a channel that only rises or only falls along the stops
does so along the ramp, and along all fractions if the ends of the gradient are continued. -/
theorem exists_ramp_along_stops {stops : List GradientStop} (some : stops ≠ []) (cycle : Cycle) :
    Spanned (normalize stops) ∧
      (∀ index < size, 0 ≤ windowLow index ∧ windowLow index ≤ windowHigh index ∧
        windowHigh index ≤ Fixed.one) ∧
      ∃ ramp, new? stops cycle = .ok ramp ∧ ramp.entries.size = size ∧
        (∀ word ∈ ramp.entries, word < 4294967296 ∧
          ∀ channel : Channel, channel.Within (stops.map (·.color.argb)) word) ∧
        ∀ (channel : Channel) (direction : Direction),
          (stops.Pairwise fun first second => direction.Leads
            (channel.ofColor first.color).toNat (channel.ofColor second.color).toNat) →
          (∀ index other, index ≤ other → other < size → direction.Leads
            (channel.ofWord (ramp.entries.getD index 0))
            (channel.ofWord (ramp.entries.getD other 0))) ∧
          (cycle = .clamp → ∀ fraction other, fraction ≤ other → direction.Leads
            (channel.ofWord (ramp.lookup fraction)) (channel.ofWord (ramp.lookup other))) := by
  have spanned := spanned_normalize some
  obtain ⟨ramp, built, cycled, full, entries⟩ := exists_new? some cycle
  refine ⟨spanned, fun index inside => ?_, ramp, built, full, ?_, ?_⟩
  · have bounds := window_bounds inside
    omega
  · intro word member
    obtain ⟨index, inside, rfl⟩ := Array.mem_iff_getElem.mp member
    rw [full] at inside
    have read := entries index inside
    rw [Array.getD_eq_getD_getElem?, Array.getElem?_eq_getElem (by omega), Option.getD_some] at read
    rw [read]
    exact ⟨spanned.entry_lt inside, within_entry some inside⟩
  · intro channel direction leads
    have along (index other) (later : index ≤ other) (tabulated : other < size) : direction.Leads
        (channel.ofWord (ramp.entries.getD index 0))
        (channel.ofWord (ramp.entries.getD other 0)) := by
      rw [entries index (Nat.lt_of_le_of_lt later tabulated), entries other tabulated]
      exact entry_leads some channel direction leads later tabulated
    refine ⟨along, ?_⟩
    rintro rfl fraction other farther
    rw [lookup, lookup, cycled]
    exact along _ _ (indexOf_mono (fold_clamp_mono farther)) (indexOf_lt_size _)

/-- Stops that neither come in order nor keep to the range of a gradient, and whose red rises. -/
theorem exists_ramp_along_stops_unordered :
    ∃ ramp, new? [⟨-7, ⟨10, 0, 0, 255⟩⟩, ⟨32768, ⟨10, 9, 0, 255⟩⟩, ⟨100, ⟨200, 3, 0, 255⟩⟩,
        ⟨70000, ⟨250, 0, 0, 255⟩⟩] .clamp = .ok ramp ∧
      ∀ fraction other, fraction ≤ other →
        Argb.red (ramp.lookup fraction) ≤ Argb.red (ramp.lookup other) := by
  obtain ⟨_, _, ramp, built, _, _, runs⟩ := exists_ramp_along_stops
    (List.cons_ne_nil ⟨-7, ⟨10, 0, 0, 255⟩⟩ [⟨32768, ⟨10, 9, 0, 255⟩⟩, ⟨100, ⟨200, 3, 0, 255⟩⟩,
      ⟨70000, ⟨250, 0, 0, 255⟩⟩]) .clamp
  exact ⟨ramp, built, (runs .red .rising (by decide)).2 rfl⟩

end Ramp

end Raster
