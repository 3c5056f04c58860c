import Mathlib.Data.List.Pairwise
import Raster.Proofs.Paint.Averaging
import Raster.Proofs.Paint.Blending
import Raster.Proofs.Paint.Settling

/-!
# Fractions between stops

Every fraction of a gradient is read from a segment that holds it.  Along a segment, channels run
from those of its first stop to those of its second one, so that they stay between them, and of two
fractions the earlier one leads the later one if all stops do so.
-/

namespace Raster

namespace Ramp

/-! ## Along a segment -/

namespace Segment

variable {segment : Segment} {level : Color → UInt8} {direction : Direction} {x y : Int}

theorem holds_iff {low high : Int} :
    segment.holds low high = true ↔
      segment.first.fraction ≤ low ∧ high ≤ segment.second.fraction := by
  simp only [holds, Bool.and_eq_true, decide_eq_true_eq]

theorem channelAt_of_narrow (narrow : segment.second.fraction ≤ segment.first.fraction) :
    segment.channelAt level x = (level segment.second.color).toNat := by
  rw [channelAt, if_pos (by omega)]

theorem channelAt_of_wide (wide : segment.first.fraction < segment.second.fraction) :
    segment.channelAt level x =
      Argb.lerp (level segment.first.color).toNat (level segment.second.color).toNat
        ((x - segment.first.fraction) * 65536 /
          (segment.second.fraction - segment.first.fraction)) := by
  rw [channelAt, if_neg (by omega)]

theorem share_bounds (wide : segment.first.fraction < segment.second.fraction)
    (inside : segment.holds x x = true) :
    0 ≤ (x - segment.first.fraction) * 65536 /
        (segment.second.fraction - segment.first.fraction) ∧
      (x - segment.first.fraction) * 65536 /
        (segment.second.fraction - segment.first.fraction) ≤ 65536 := by
  obtain ⟨after, before⟩ := holds_iff.mp inside
  constructor
  · exact Int.ediv_nonneg (by omega) (by omega)
  · exact Int.ediv_le_of_le_mul (by omega) (by omega)

/-- A segment starts with the channel of its first stop. -/
theorem channelAt_first (wide : segment.first.fraction < segment.second.fraction) :
    segment.channelAt level segment.first.fraction = (level segment.first.color).toNat := by
  rw [channelAt_of_wide wide, Int.sub_self, Int.zero_mul, Int.zero_ediv, Argb.lerp_zero]

/-- A segment ends with the channel of its second stop. -/
theorem channelAt_second :
    segment.channelAt level segment.second.fraction = (level segment.second.color).toNat := by
  by_cases narrow : segment.second.fraction ≤ segment.first.fraction
  · exact channelAt_of_narrow narrow
  · rw [channelAt_of_wide (Int.not_le.mp narrow), Int.mul_ediv_cancel_left _ (by omega),
      Argb.lerp_one]

/-- Channels of a segment stay within those of its stops. -/
theorem leads_bound {bound : Nat}
    (first : direction.Leads (level segment.first.color).toNat bound)
    (second : direction.Leads (level segment.second.color).toNat bound)
    (inside : segment.holds x x = true) :
    direction.Leads (segment.channelAt level x) bound := by
  by_cases narrow : segment.second.fraction ≤ segment.first.fraction
  · rwa [channelAt_of_narrow narrow]
  · have wide := Int.not_le.mp narrow
    obtain ⟨nonneg, unit⟩ := share_bounds wide inside
    rw [channelAt_of_wide wide]
    cases direction with
    | rising => exact Argb.lerp_le nonneg unit first second
    | falling => exact Argb.le_lerp nonneg unit first second

/-- Channels of a segment run in the direction of its stops. -/
theorem leads_channelAt
    (leads : direction.Leads (level segment.first.color).toNat (level segment.second.color).toNat)
    (ordered : x ≤ y) :
    direction.Leads (segment.channelAt level x) (segment.channelAt level y) := by
  by_cases narrow : segment.second.fraction ≤ segment.first.fraction
  · rw [channelAt_of_narrow narrow, channelAt_of_narrow narrow]
    exact Direction.leads_self _ _
  · have wide := Int.not_le.mp narrow
    have farther : (x - segment.first.fraction) * 65536 /
          (segment.second.fraction - segment.first.fraction) ≤
        (y - segment.first.fraction) * 65536 /
          (segment.second.fraction - segment.first.fraction) :=
      Int.ediv_le_ediv (by omega) (by omega)
    rw [channelAt_of_wide wide, channelAt_of_wide wide]
    cases direction with
    | rising => exact Argb.lerp_le_lerp leads farther
    | falling => exact Argb.lerp_le_lerp_of_ge leads farther

theorem first_leads
    (leads : direction.Leads (level segment.first.color).toNat (level segment.second.color).toNat)
    (inside : segment.holds x x = true) :
    direction.Leads (level segment.first.color).toNat (segment.channelAt level x) := by
  by_cases narrow : segment.second.fraction ≤ segment.first.fraction
  · rwa [channelAt_of_narrow narrow]
  · rw [← channelAt_first (Int.not_le.mp narrow)]
    exact leads_channelAt leads (holds_iff.mp inside).1

theorem leads_second
    (leads : direction.Leads (level segment.first.color).toNat (level segment.second.color).toNat)
    (inside : segment.holds x x = true) :
    direction.Leads (segment.channelAt level x) (level segment.second.color).toNat := by
  have reached := leads_channelAt leads (holds_iff.mp inside).2
  rwa [channelAt_second] at reached

end Segment

/-! ## From segment to segment -/

section Segments

variable {stops : List GradientStop} {level : Color → UInt8} {direction : Direction} {x y : Int}

theorem segments_cons_cons (first second : GradientStop) (rest : List GradientStop) :
    segments (first :: second :: rest) = ⟨first, second⟩ :: segments (second :: rest) :=
  rfl

/-- A segment joins two stops that follow each other. -/
theorem mem_segments_iff {segment : Segment} :
    segment ∈ segments stops ↔
      ∃ before after, stops = before ++ segment.first :: segment.second :: after := by
  induction stops with
  | nil => simp [segments]
  | cons first rest inductionHypothesis =>
      constructor
      · intro member
        cases rest with
        | nil => cases member
        | cons second others =>
            rcases List.mem_cons.mp member with rfl | later
            · exact ⟨[], others, rfl⟩
            · obtain ⟨before, after, rest⟩ := inductionHypothesis.mp later
              exact ⟨first :: before, after, congrArg (first :: ·) rest⟩
      · rintro ⟨before, after, stops⟩
        cases before with
        | nil =>
            obtain ⟨rfl, rfl⟩ := List.cons.inj stops
            exact List.mem_cons_self
        | cons other before =>
            obtain ⟨rfl, tail⟩ := List.cons.inj stops
            have later := inductionHypothesis.mpr ⟨before, after, tail⟩
            cases rest with
            | nil => cases later
            | cons second others => exact List.mem_cons_of_mem _ later

theorem first_mem_of_mem_segments {segment : Segment} (member : segment ∈ segments stops) :
    segment.first ∈ stops := by
  obtain ⟨before, after, rfl⟩ := mem_segments_iff.mp member
  simp

theorem second_mem_of_mem_segments {segment : Segment} (member : segment ∈ segments stops) :
    segment.second ∈ stops := by
  obtain ⟨before, after, rfl⟩ := mem_segments_iff.mp member
  simp

theorem pairwise_segments {R : GradientStop → GradientStop → Prop} (reflexive : ∀ stop, R stop stop)
    (pairwise : stops.Pairwise R) :
    (segments stops).Pairwise fun first second => R first.second second.first := by
  induction stops with
  | nil => exact List.Pairwise.nil
  | cons first rest inductionHypothesis =>
      cases rest with
      | nil => exact List.Pairwise.nil
      | cons second others =>
          have later := List.Pairwise.of_cons pairwise
          refine List.Pairwise.cons ?_ (inductionHypothesis later)
          intro segment member
          obtain ⟨before, after, rest⟩ := mem_segments_iff.mp member
          have start : segment.first ∈ second :: others := by
            rw [rest]
            simp
          rcases List.mem_cons.mp start with same | after
          · rw [same]
            exact reflexive second
          · exact List.rel_of_pairwise_cons later after

theorem eq_or_rel_of_pairwise {α : Type} {R : α → α → Prop} {values : List α}
    (pairwise : values.Pairwise R) {first second : α} (firstMember : first ∈ values)
    (secondMember : second ∈ values) : first = second ∨ R first second ∨ R second first := by
  have _symmetric : Std.Symm fun first second => R first second ∨ R second first :=
    ⟨fun _ _ => Or.symm⟩
  have related : values.Pairwise fun first second => R first second ∨ R second first :=
    pairwise.imp Or.inl
  by_cases same : first = second
  · exact .inl same
  · exact .inr (related.forall firstMember secondMember same)

/-- What relates stops to later ones relates the ends of a segment. -/
theorem rel_of_mem_segments {R : GradientStop → GradientStop → Prop} (pairwise : stops.Pairwise R)
    {segment : Segment} (member : segment ∈ segments stops) : R segment.first segment.second := by
  obtain ⟨before, after, rfl⟩ := mem_segments_iff.mp member
  exact List.rel_of_pairwise_cons (List.pairwise_append.mp pairwise).2.1 List.mem_cons_self

/-- Whether a channel can be read at a fraction from a segment that holds it. -/
def Reads (stops : List GradientStop) (level : Color → UInt8) (x : Int) (value : Nat) : Prop :=
  ∃ segment ∈ segments stops, segment.holds x x = true ∧ value = segment.channelAt level x

/-- Of two fractions the earlier one leads, whichever segments they are read from. -/
theorem Reads.leads {first second : Nat}
    (ascending : stops.Pairwise fun first second => first.fraction ≤ second.fraction)
    (leads : stops.Pairwise fun first second =>
      direction.Leads (level first.color).toNat (level second.color).toNat)
    (here : Reads stops level x first) (there : Reads stops level y second) (earlier : x < y) :
    direction.Leads first second := by
  obtain ⟨here, hereMember, hereHolds, rfl⟩ := here
  obtain ⟨there, thereMember, thereHolds, rfl⟩ := there
  have hereLeads := rel_of_mem_segments leads hereMember
  have thereLeads := rel_of_mem_segments leads thereMember
  have both := pairwise_segments (fun stop => ⟨Int.le_refl _, Direction.leads_self _ _⟩)
    (ascending.and leads)
  rcases eq_or_rel_of_pairwise both hereMember thereMember with rfl | ⟨_, across⟩ | ⟨late, _⟩
  · exact Segment.leads_channelAt hereLeads (Int.le_of_lt earlier)
  · exact (Segment.leads_second hereLeads hereHolds).trans
      (across.trans (Segment.first_leads thereLeads thereHolds))
  · have inHere := Segment.holds_iff.mp hereHolds
    have inThere := Segment.holds_iff.mp thereHolds
    omega

/-- What the stops around a fraction lead, the channel there leads as well. -/
theorem Reads.leads_bound {value bound : Nat} (read : Reads stops level x value)
    (around : ∀ segment ∈ segments stops, segment.holds x x = true →
      direction.Leads (level segment.first.color).toNat bound ∧
        direction.Leads (level segment.second.color).toNat bound) :
    direction.Leads value bound := by
  obtain ⟨segment, member, holds, rfl⟩ := read
  obtain ⟨first, second⟩ := around segment member holds
  exact Segment.leads_bound first second holds

/-- Every fraction is read inside a segment. -/
theorem exists_read {first : GradientStop} {rest : List GradientStop}
    (ascending : (first :: rest).Pairwise fun first second => first.fraction ≤ second.fraction)
    (after : first.fraction ≤ x) (before : ∃ stop ∈ rest, x ≤ stop.fraction) :
    ∃ segment ∈ segments (first :: rest), segment.holds x x = true ∧
      ∀ level : Color → UInt8,
        channelAt (segments (first :: rest)) level x = segment.channelAt level x := by
  -- On the stops after the first: the fraction is before the second one, or the rest is read.
  induction rest generalizing first with
  | nil =>
      obtain ⟨_, member, _⟩ := before
      cases member
  | cons second others inductionHypothesis =>
      rw [segments_cons_cons]
      by_cases inside : x < second.fraction
      · refine ⟨⟨first, second⟩, List.mem_cons_self,
          Segment.holds_iff.mpr ⟨after, Int.le_of_lt inside⟩, fun level => ?_⟩
        rw [channelAt, List.find?_cons_of_pos (by simpa using inside)]
      · have later := List.Pairwise.of_cons ascending
        cases others with
        | nil =>
            obtain ⟨stop, member, reached⟩ := before
            rw [List.mem_singleton.mp member] at reached
            refine ⟨⟨first, second⟩, List.mem_cons_self,
              Segment.holds_iff.mpr ⟨after, reached⟩, fun level => ?_⟩
            rw [channelAt, List.find?_cons_of_neg (by simpa using inside)]
            rfl
        | cons third more =>
            have reached : ∃ stop ∈ third :: more, x ≤ stop.fraction := by
              obtain ⟨stop, member, reached⟩ := before
              rcases List.mem_cons.mp member with rfl | there
              · have next := List.rel_of_pairwise_cons later (List.mem_cons_self (a := third))
                exact ⟨third, List.mem_cons_self, by omega⟩
              · exact ⟨stop, there, reached⟩
            obtain ⟨segment, member, holds, read⟩ :=
              inductionHypothesis later (Int.not_lt.mp inside) reached
            refine ⟨segment, List.mem_cons_of_mem _ member, holds, fun level => ?_⟩
            rw [← read, channelAt, List.find?_cons_of_neg (by simpa using inside), channelAt]
            rfl

end Segments

end Ramp

end Raster
