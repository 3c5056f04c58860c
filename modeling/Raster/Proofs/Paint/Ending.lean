import Raster.Proofs.Paint.Ramping
import Raster.Proofs.Scan.Flooding

/-!
# Ends of a ramp

The first and the last entry of a ramp are read from one segment if no stop lies inside their
windows, and they are means otherwise.  If one segment holds the window, it starts at the last stop
at zero, or ends at the first stop at one, whichever stops come before or after these.
-/

namespace Raster

namespace Ramp

/-! ## Stops inside a window -/

section Inside

variable {stops : List GradientStop} {segment : Segment} {level : Color → UInt8} {index : Nat}

/-- No stop lies between the ends of a segment. -/
theorem Spanned.outside_segment (spanned : Spanned stops) (member : segment ∈ segments stops) :
    ∃ before after, stops = before ++ segment.first :: segment.second :: after ∧
      (∀ stop ∈ before, stop.fraction ≤ segment.first.fraction) ∧
      ∀ stop ∈ after, segment.second.fraction ≤ stop.fraction := by
  obtain ⟨before, after, rfl⟩ := mem_segments_iff.mp member
  obtain ⟨_, later, across⟩ := List.pairwise_append.mp spanned.ascending
  exact ⟨before, after, rfl, fun stop there => across stop there _ List.mem_cons_self,
    fun stop there => List.rel_of_pairwise_cons (List.Pairwise.of_cons later) there⟩

/-- With no stop inside its window, an entry is read at its center, from a segment that holds the
window. -/
theorem Spanned.entryChannel_of_clear (spanned : Spanned stops) (tabulated : index < size)
    (clear : ∀ stop ∈ stops,
      stop.fraction ≤ windowLow index ∨ windowHigh index ≤ stop.fraction) :
    ∃ segment ∈ segments stops, segment.first.fraction ≤ windowLow index ∧
      windowHigh index ≤ segment.second.fraction ∧
      ∀ level, entryChannel (segments stops) index level =
        segment.channelAt level (centerOf index) := by
  rcases entryChannel_held_or_crossed stops index with
    ⟨segment, member, held, read⟩ | ⟨crossed, _⟩
  · exact ⟨segment, member, held.1, held.2, read⟩
  · -- The segment read right after the start of the window reaches beyond the window.
    have bounds := window_bounds tabulated
    have wide := windowLow_add_two_le tabulated
    obtain ⟨segment, member, holds, _⟩ := spanned.read (windowLow index + 1) (by omega) (by omega)
    have held := Segment.holds_iff.mp holds
    have first := clear _ (first_mem_of_mem_segments member)
    have second := clear _ (second_mem_of_mem_segments member)
    exact absurd (by omega) (crossed segment member)

/-- With a stop inside its window, an entry is the mean over the window. -/
theorem Spanned.entryChannel_of_inside (spanned : Spanned stops) {stop : GradientStop}
    (member : stop ∈ stops) (after : windowLow index < stop.fraction)
    (before : stop.fraction < windowHigh index) (level : Color → UInt8) :
    entryChannel (segments stops) index level =
      windowMean (channelAt (segments stops) level) (windowLow index) (windowLength index) := by
  rcases entryChannel_held_or_crossed stops index with ⟨segment, there, held, _⟩ | ⟨_, mean⟩
  · obtain ⟨earlier, later, rfl, below, above⟩ := spanned.outside_segment there
    simp only [List.mem_append, List.mem_cons] at member
    rcases member with early | rfl | rfl | late
    · have bound := below stop early
      omega
    · omega
    · omega
    · have bound := above stop late
      omega
  · exact mean level

end Inside

/-! ## The first and the last entry -/

/-- The last normalized stop at zero, from which a gradient starts. -/
def lastAtZero? (stops : List GradientStop) : Option GradientStop :=
  ((normalize stops).filter fun stop => stop.fraction ≤ 0).getLast?

/-- The first normalized stop at one, at which a gradient arrives. -/
def firstAtOne? (stops : List GradientStop) : Option GradientStop :=
  (normalize stops).find? fun stop => Fixed.one ≤ stop.fraction

/-- What the word of an end entry is: the color of the stop that the gradient reaches at this end
if no stop lies inside the window, and the mean over the window otherwise; in any case it is the
color of the outermost stop if all stops around the window have this color. -/
structure EndEntry (stops : List GradientStop) (index : Nat) (reached : Option GradientStop)
    (outermost : Color) (word : Nat) : Prop where
  clear : (∀ stop ∈ normalize stops,
      stop.fraction ≤ windowLow index ∨ windowHigh index ≤ stop.fraction) →
    ∃ stop, reached = some stop ∧ word = stop.color.argb ∧
      (word = outermost.argb ↔ stop.color = outermost)
  inside : (∃ stop ∈ normalize stops,
      windowLow index < stop.fraction ∧ stop.fraction < windowHigh index) →
    ∀ channel : Channel, channel.ofWord word =
      windowMean (channelAt (segments (normalize stops)) channel.ofColor) (windowLow index)
        (windowLength index)
  alone : (∀ segment ∈ segments (normalize stops), segment.first.fraction ≤ windowHigh index →
      windowLow index ≤ segment.second.fraction →
      segment.first.color = outermost ∧ segment.second.color = outermost) →
    word = outermost.argb

theorem entry_eq_argb {segments : List Segment} {index : Nat} {color : Color}
    (channels : ∀ level : Color → UInt8,
      entryChannel segments index level = (level color).toNat) :
    entry segments index = color.argb := by
  simp only [entry, channels, Color.argb]

section EndEntries

variable {stops : List GradientStop} {segment : Segment}

theorem endEntry_entry (some : stops ≠ []) {index : Nat} (tabulated : index < size)
    {reached : Option GradientStop} (outermost : Color)
    (reaches : ∀ segment ∈ segments (normalize stops),
      segment.first.fraction ≤ windowLow index → windowHigh index ≤ segment.second.fraction →
      ∃ stop, reached = Option.some stop ∧
        ∀ level, segment.channelAt level (centerOf index) = (level stop.color).toNat) :
    EndEntry stops index reached outermost (entry (segments (normalize stops)) index) := by
  have spanned := spanned_normalize some
  refine ⟨fun clear => ?_, ?_, fun alone => entry_eq_argb fun level => ?_⟩
  · obtain ⟨segment, member, first, second, channels⟩ :=
      spanned.entryChannel_of_clear tabulated clear
    obtain ⟨stop, reached, shown⟩ := reaches segment member first second
    have word : entry (segments (normalize stops)) index = stop.color.argb :=
      entry_eq_argb fun level => (channels level).trans (shown level)
    refine ⟨stop, reached, word, ?_⟩
    rw [word]
    exact ⟨Color.argb_injective, congrArg Color.argb⟩
  · rintro ⟨stop, member, after, before⟩ channel
    rw [spanned.ofWord_entry tabulated]
    exact spanned.entryChannel_of_inside member after before channel.ofColor
  · have led (direction : Direction) : direction.Leads
        (entryChannel (segments (normalize stops)) index level) (level outermost).toNat := by
      refine spanned.entryChannel_leads_bound tabulated fun segment member first second => ?_
      obtain ⟨firstColor, secondColor⟩ := alone segment member first second
      rw [firstColor, secondColor]
      exact ⟨direction.leads_self _, direction.leads_self _⟩
    exact Nat.le_antisymm (led .rising) (led .falling)

/-- A segment over the first window starts at the last stop at zero. -/
theorem lastAtZero?_of_segment (some : stops ≠ []) (member : segment ∈ segments (normalize stops))
    (first : segment.first.fraction ≤ 0) (second : 0 < segment.second.fraction) :
    lastAtZero? stops = Option.some segment.first := by
  obtain ⟨before, after, normal, below, above⟩ := (spanned_normalize some).outside_segment member
  have kept : before.filter (fun stop => stop.fraction ≤ 0) = before :=
    List.filter_eq_self.mpr fun stop there => by
      have bound := below stop there
      simp only [decide_eq_true_eq]
      omega
  have dropped : after.filter (fun stop => stop.fraction ≤ 0) = [] :=
    List.filter_eq_nil_iff.mpr fun stop there => by
      have bound := above stop there
      simp only [decide_eq_true_eq]
      omega
  rw [lastAtZero?, normal, List.filter_append, kept, List.filter_cons_of_pos (by simpa using first),
    List.filter_cons_of_neg (by simpa using second), dropped, List.getLast?_concat]

/-- A segment over the last window ends at the first stop at one. -/
theorem firstAtOne?_of_segment (some : stops ≠ []) (member : segment ∈ segments (normalize stops))
    (first : segment.first.fraction < Fixed.one) (second : Fixed.one ≤ segment.second.fraction) :
    firstAtOne? stops = Option.some segment.second := by
  obtain ⟨before, after, normal, below, _⟩ := (spanned_normalize some).outside_segment member
  have skipped : before.find? (fun stop => Fixed.one ≤ stop.fraction) = none :=
    List.find?_eq_none.mpr fun stop there => by
      have bound := below stop there
      simp only [decide_eq_true_eq]
      omega
  rw [firstAtOne?, normal, List.find?_append, skipped, Option.none_or,
    List.find?_cons_of_neg (by simpa using first), List.find?_cons_of_pos (by simpa using second)]

end EndEntries

/-- The ends of a gradient have the colors of the first and of the last entry of its ramp.  These
are exactly those of the first and of the last stop if no other color comes near the end; without
stops inside the window they are those of the last stop at zero and of the first stop at one. -/
theorem ends_of_ramp {stops : List GradientStop} (some : stops ≠ []) (cycle : Cycle) :
    ∃ ramp, new? stops cycle = .ok ramp ∧
      (cycle = .clamp →
        (∀ fraction ≤ 0, ramp.lookup fraction = ramp.entries.getD 0 0) ∧
          ∀ fraction, Fixed.one ≤ fraction → ramp.lookup fraction = ramp.entries.getD 255 0) ∧
      EndEntry stops 0 (lastAtZero? stops) (stops.head some).color (ramp.entries.getD 0 0) ∧
      EndEntry stops 255 (firstAtOne? stops) (stops.getLast some).color
        (ramp.entries.getD 255 0) := by
  obtain ⟨ramp, built, cycled, _, entries⟩ := exists_new? some cycle
  refine ⟨ramp, built, ?_, ?_, ?_⟩
  · rintro rfl
    refine ⟨fun fraction before => ?_, fun fraction after => ?_⟩
    · have folded : Cycle.clamp.fold fraction = 0 := by
        simp only [Cycle.fold, Fixed.one]
        omega
      rw [lookup, cycled, folded]
      rfl
    · have folded : Cycle.clamp.fold fraction = Fixed.one := by
        simp only [Cycle.fold, Fixed.one] at after ⊢
        omega
      rw [lookup, cycled, folded]
      rfl
  · rw [entries 0 (by decide)]
    refine endEntry_entry some (by decide) _ fun segment member first second => ?_
    have wide : 0 < segment.second.fraction := Int.lt_of_lt_of_le (by decide) second
    refine ⟨segment.first, lastAtZero?_of_segment some member first wide, fun level => ?_⟩
    have bounds := (spanned_normalize some).bounds _ (first_mem_of_mem_segments member)
    have zero : centerOf 0 = segment.first.fraction := Int.le_antisymm bounds.1 first
    rw [zero]
    exact Segment.channelAt_first (Int.lt_of_le_of_lt first wide)
  · rw [entries 255 (by decide)]
    refine endEntry_entry some (by decide) _ fun segment member first second => ?_
    have wide : segment.first.fraction < Fixed.one := Int.lt_of_le_of_lt first (by decide)
    refine ⟨segment.second, firstAtOne?_of_segment some member wide second, fun level => ?_⟩
    have bounds := (spanned_normalize some).bounds _ (second_mem_of_mem_segments member)
    have one : centerOf 255 = segment.second.fraction := Int.le_antisymm second bounds.2
    rw [one]
    exact Segment.channelAt_second

/-- Two stops at the ends are met exactly. -/
theorem ends_of_ramp_two_stops :
    ∃ ramp, new? [⟨0, ⟨255, 0, 0, 255⟩⟩, ⟨65536, ⟨0, 0, 255, 255⟩⟩] .clamp = .ok ramp ∧
      (∀ fraction ≤ 0, ramp.lookup fraction = 0xffff0000) ∧
      ∀ fraction, Fixed.one ≤ fraction → ramp.lookup fraction = 0xff0000ff := by
  obtain ⟨ramp, built, ends, starts, arrives⟩ := ends_of_ramp
    (List.cons_ne_nil ⟨0, ⟨255, 0, 0, 255⟩⟩ [⟨65536, ⟨0, 0, 255, 255⟩⟩]) .clamp
  obtain ⟨start, startReached, startWord, _⟩ := starts.clear (by decide)
  obtain ⟨arrival, arrivalReached, arrivalWord, _⟩ := arrives.clear (by decide)
  have red : start = ⟨0, ⟨255, 0, 0, 255⟩⟩ := Option.some.inj (startReached.symm.trans (by decide))
  have blue : arrival = ⟨65536, ⟨0, 0, 255, 255⟩⟩ :=
    Option.some.inj (arrivalReached.symm.trans (by decide))
  subst red blue
  refine ⟨ramp, built, fun fraction before => ?_, fun fraction after => ?_⟩
  · rw [(ends rfl).1 fraction before, startWord]
    rfl
  · rw [(ends rfl).2 fraction after, arrivalWord]
    rfl

/-- Of two stops at one, a blue and a green one, a ramp ends with the first. -/
theorem ramp_ends_before_last_stop :
    ∃ ramp, new? [⟨0, ⟨255, 255, 255, 255⟩⟩, ⟨65536, ⟨0, 0, 255, 255⟩⟩,
        ⟨65536, ⟨0, 255, 0, 255⟩⟩] .clamp = .ok ramp ∧
      ramp.entries.getD 255 0 = 0xff0000ff ∧ ramp.lookup 65536 = 0xff0000ff ∧
      ramp.entries.getD 255 0 ≠ Color.argb ⟨0, 255, 0, 255⟩ := by
  obtain ⟨ramp, built, cycled, _, entries⟩ := exists_new? (List.cons_ne_nil
    ⟨0, ⟨255, 255, 255, 255⟩⟩ [⟨65536, ⟨0, 0, 255, 255⟩⟩, ⟨65536, ⟨0, 255, 0, 255⟩⟩]) .clamp
  have last : ramp.entries.getD 255 0 = 0xff0000ff := (entries 255 (by decide)).trans (by decide)
  refine ⟨ramp, built, last, ?_, ?_⟩
  · rw [← last, lookup, cycled]
    rfl
  · rw [last]
    decide

end Ramp

end Raster
