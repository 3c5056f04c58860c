import Raster.Paint.Ramp

/-!
# Settled stops

The stops of a gradient are settled so that their fractions do not decrease, and copies of the first
and of the last one are put at zero and at one if nothing is there.  Colors stay as they are, and so
does any order in which they come.
-/

namespace Raster

namespace Ramp

/-! ## Fractions that do not decrease -/

theorem color_settle (least : Int) (stops : List GradientStop) :
    (settle least stops).map (·.color) = stops.map (·.color) := by
  induction stops generalizing least with
  | nil => rfl
  | cons stop rest inductionHypothesis =>
      exact congrArg (stop.color :: ·) (inductionHypothesis _)

theorem bounds_settle {least : Int} (most : least ≤ Fixed.one) {stops : List GradientStop}
    {stop : GradientStop} (member : stop ∈ settle least stops) :
    least ≤ stop.fraction ∧ stop.fraction ≤ Fixed.one := by
  induction stops generalizing least with
  | nil => cases member
  | cons first rest inductionHypothesis =>
      rcases List.mem_cons.mp member with rfl | later
      · dsimp only
        omega
      · have bounds := inductionHypothesis (Int.min_le_right _ _) later
        omega

theorem ascending_settle {least : Int} (most : least ≤ Fixed.one) (stops : List GradientStop) :
    (settle least stops).Pairwise fun first second => first.fraction ≤ second.fraction := by
  induction stops generalizing least with
  | nil => exact List.Pairwise.nil
  | cons stop rest inductionHypothesis =>
      refine List.Pairwise.cons ?_ (inductionHypothesis (Int.min_le_right _ _))
      intro later member
      exact (bounds_settle (Int.min_le_right _ _) member).1

theorem settle_ne_nil {least : Int} {stops : List GradientStop} (some : stops ≠ []) :
    settle least stops ≠ [] := by
  cases stops with
  | nil => exact absurd rfl some
  | cons stop rest => exact List.cons_ne_nil _ _

/-! ## Copies at the ends -/

section Copies

variable {R : GradientStop → GradientStop → Prop} {stops : List GradientStop}

/-- A copy is put before the first stop only if that one comes after zero. -/
theorem startAtZero_eq_or (some : stops ≠ []) :
    (∃ first rest, stops = first :: rest ∧ first.fraction ≤ 0 ∧ startAtZero stops = stops) ∨
      ∃ first rest, stops = first :: rest ∧ 0 < first.fraction ∧
        startAtZero stops = ⟨0, first.color⟩ :: stops := by
  cases stops with
  | nil => exact absurd rfl some
  | cons first rest =>
      by_cases later : first.fraction > 0
      · exact .inr ⟨first, rest, rfl, later, if_pos later⟩
      · exact .inl ⟨first, rest, rfl, Int.not_lt.mp later, if_neg later⟩

/-- A copy is put after the last stop only if that one comes before one. -/
theorem stopAtOne_eq_or (some : stops ≠ []) :
    (∃ rest last, stops = rest ++ [last] ∧ Fixed.one ≤ last.fraction ∧ stopAtOne stops = stops) ∨
      ∃ rest last, stops = rest ++ [last] ∧ last.fraction < Fixed.one ∧
        stopAtOne stops = stops ++ [⟨Fixed.one, last.color⟩] := by
  rcases List.eq_nil_or_concat stops with rfl | ⟨rest, last, rfl⟩
  · exact absurd rfl some
  · rw [List.concat_eq_append, stopAtOne, List.getLast?_concat]
    by_cases earlier : last.fraction < Fixed.one
    · exact .inr ⟨rest, last, rfl, earlier, if_pos earlier⟩
    · exact .inl ⟨rest, last, rfl, Int.not_lt.mp earlier, if_neg earlier⟩

theorem startAtZero_ne_nil (some : stops ≠ []) : startAtZero stops ≠ [] := by
  rcases startAtZero_eq_or some with ⟨_, _, _, _, same⟩ | ⟨_, _, _, _, copy⟩
  · rwa [same]
  · rw [copy]
    exact List.cons_ne_nil _ _

theorem forall_mem_startAtZero {property : GradientStop → Prop} (some : stops ≠ [])
    (each : ∀ stop ∈ stops, property stop ∧ property ⟨0, stop.color⟩) :
    ∀ stop ∈ startAtZero stops, property stop := by
  rcases startAtZero_eq_or some with ⟨_, _, _, _, same⟩ | ⟨first, rest, rfl, _, copy⟩
  · rw [same]
    exact fun stop member => (each stop member).1
  · rw [copy]
    exact List.forall_mem_cons.mpr ⟨(each first List.mem_cons_self).2, fun stop member =>
      (each stop member).1⟩

theorem forall_mem_stopAtOne {property : GradientStop → Prop} (some : stops ≠ [])
    (each : ∀ stop ∈ stops, property stop ∧ property ⟨Fixed.one, stop.color⟩) :
    ∀ stop ∈ stopAtOne stops, property stop := by
  rcases stopAtOne_eq_or some with ⟨_, _, _, _, same⟩ | ⟨rest, last, rfl, _, copy⟩
  · rw [same]
    exact fun stop member => (each stop member).1
  · rw [copy]
    exact List.forall_mem_append.mpr ⟨fun stop member => (each stop member).1,
      List.forall_mem_singleton.mpr (each last (by simp)).2⟩

/-- What relates stops to later ones still does if the copy takes over what its stop relates to. -/
theorem pairwise_startAtZero (some : stops ≠ []) (pairwise : stops.Pairwise R)
    (copied : ∀ stop, 0 < stop.fraction → R ⟨0, stop.color⟩ stop)
    (carried : ∀ stop later, 0 < stop.fraction → R stop later → R ⟨0, stop.color⟩ later) :
    (startAtZero stops).Pairwise R := by
  rcases startAtZero_eq_or some with ⟨_, _, _, _, same⟩ | ⟨stop, rest, rfl, later, copy⟩
  · rwa [same]
  · rw [copy]
    refine List.Pairwise.cons ?_ pairwise
    intro other member
    rcases List.mem_cons.mp member with rfl | after
    · exact copied other later
    · exact carried stop other later (List.rel_of_pairwise_cons pairwise after)

theorem pairwise_stopAtOne (some : stops ≠ []) (pairwise : stops.Pairwise R)
    (copied : ∀ stop, stop.fraction < Fixed.one → R stop ⟨Fixed.one, stop.color⟩)
    (carried : ∀ earlier stop, stop.fraction < Fixed.one → R earlier stop →
      R earlier ⟨Fixed.one, stop.color⟩) :
    (stopAtOne stops).Pairwise R := by
  rcases stopAtOne_eq_or some with ⟨_, _, _, _, same⟩ | ⟨rest, stop, rfl, earlier, copy⟩
  · rwa [same]
  · rw [copy, List.pairwise_append]
    refine ⟨pairwise, List.pairwise_singleton _ _, ?_⟩
    intro other member last only
    rw [List.mem_singleton.mp only]
    rcases List.mem_append.mp member with before | here
    · exact carried other stop earlier
        ((List.pairwise_append.mp pairwise).2.2 other before stop List.mem_cons_self)
    · rw [List.mem_singleton.mp here]
      exact copied stop earlier

end Copies

/-! ## Normalized stops -/

section Normalize

variable {stops : List GradientStop}

/-- What holds of settled stops and of copies of them holds of normalized stops. -/
theorem forall_mem_normalize {property : GradientStop → Prop} (some : stops ≠ [])
    (settled : ∀ stop ∈ settle 0 stops, property stop)
    (copied : ∀ stop fraction, fraction = 0 ∨ fraction = Fixed.one → property stop →
      property ⟨fraction, stop.color⟩) :
    ∀ stop ∈ normalize stops, property stop := by
  have settledSome : settle 0 stops ≠ [] := settle_ne_nil some
  refine forall_mem_stopAtOne (startAtZero_ne_nil settledSome) fun stop member => ?_
  have started : property stop := forall_mem_startAtZero settledSome
    (fun stop member => ⟨settled stop member, copied stop 0 (.inl rfl) (settled stop member)⟩)
    stop member
  exact ⟨started, copied stop Fixed.one (.inr rfl) started⟩

theorem bounds_normalize (some : stops ≠ []) :
    ∀ stop ∈ normalize stops, 0 ≤ stop.fraction ∧ stop.fraction ≤ Fixed.one := by
  refine forall_mem_normalize some (fun stop => bounds_settle (by decide)) ?_
  have unit : 0 ≤ Fixed.one := by decide
  rintro stop fraction (rfl | rfl) _
  · exact ⟨Int.le_refl 0, unit⟩
  · exact ⟨unit, Int.le_refl Fixed.one⟩

/-- Normalizing adds no colors. -/
theorem exists_color_of_mem_normalize (some : stops ≠ []) :
    ∀ stop ∈ normalize stops, ∃ original ∈ stops, original.color = stop.color := by
  refine forall_mem_normalize some ?_ fun stop fraction _ original => original
  intro stop member
  have color := List.mem_map_of_mem (f := (·.color)) member
  rw [color_settle] at color
  exact List.mem_map.mp color

theorem ascending_normalize (some : stops ≠ []) :
    (normalize stops).Pairwise fun first second => first.fraction ≤ second.fraction := by
  have settledSome : settle 0 stops ≠ [] := settle_ne_nil some
  refine pairwise_stopAtOne (startAtZero_ne_nil settledSome) (pairwise_startAtZero settledSome
    (ascending_settle (by decide) stops) ?_ ?_) ?_ ?_
  · exact fun stop later => Int.le_of_lt later
  · exact fun stop later positive ordered => Int.le_trans (Int.le_of_lt positive) ordered
  · exact fun stop earlier => Int.le_of_lt earlier
  · exact fun earlier stop below ordered => Int.le_trans ordered (Int.le_of_lt below)

/-- Colors that come in an order still do. -/
theorem pairwise_color_normalize (related : Color → Color → Prop) (some : stops ≠ [])
    (reflexive : ∀ color, related color color)
    (pairwise : stops.Pairwise fun first second => related first.color second.color) :
    (normalize stops).Pairwise fun first second => related first.color second.color := by
  have colors : (stops.map (·.color)).Pairwise related := List.pairwise_map.mpr pairwise
  rw [← color_settle 0] at colors
  have settledSome : settle 0 stops ≠ [] := settle_ne_nil some
  refine pairwise_stopAtOne (startAtZero_ne_nil settledSome) (pairwise_startAtZero settledSome
    (List.pairwise_map.mp colors) ?_ ?_) ?_ ?_
  · exact fun stop _ => reflexive stop.color
  · exact fun stop later _ ordered => ordered
  · exact fun stop _ => reflexive stop.color
  · exact fun earlier stop _ ordered => ordered

/-- The first normalized stop has the first color and is at zero. -/
theorem exists_first_normalize (some : stops ≠ []) :
    ∃ first rest, normalize stops = first :: rest ∧ first.fraction = 0 ∧
      first.color = (stops.head some).color := by
  obtain ⟨stop, others, rfl⟩ := List.exists_cons_of_ne_nil some
  have settledSome : settle 0 (stop :: others) ≠ [] := settle_ne_nil some
  have nonneg := (bounds_settle (by decide : (0 : Int) ≤ Fixed.one)
    (List.head_mem settledSome)).1
  obtain ⟨first, rest, started, zero, color⟩ : ∃ first rest,
      startAtZero (settle 0 (stop :: others)) = first :: rest ∧ first.fraction = 0 ∧
        first.color = stop.color := by
    rcases startAtZero_eq_or settledSome with
      ⟨first, rest, settled, notLater, same⟩ | ⟨first, rest, settled, _, copy⟩
    · refine ⟨first, rest, same.trans settled, ?_, ?_⟩
      · simp only [settled, List.head_cons] at nonneg
        exact Int.le_antisymm notLater nonneg
      · rw [← (List.cons.inj settled).1]
    · refine ⟨⟨0, first.color⟩, _, copy, rfl, ?_⟩
      rw [← (List.cons.inj settled).1]
  rcases stopAtOne_eq_or (startAtZero_ne_nil settledSome) with
    ⟨_, _, _, _, same⟩ | ⟨_, last, _, _, copy⟩
  · exact ⟨first, rest, same.trans started, zero, color⟩
  · refine ⟨first, rest ++ [⟨Fixed.one, last.color⟩], ?_, zero, color⟩
    rw [normalize, copy, started, List.cons_append]

/-- The last normalized stop has the last color and is at one. -/
theorem exists_last_normalize (some : stops ≠ []) :
    ∃ rest last, normalize stops = rest ++ [last] ∧ last.fraction = Fixed.one ∧
      last.color = (stops.getLast some).color := by
  have settledSome : settle 0 stops ≠ [] := settle_ne_nil some
  have startedSome := startAtZero_ne_nil settledSome
  have color : ((startAtZero (settle 0 stops)).getLast startedSome).color =
      (stops.getLast some).color := by
    have settledColor : ((settle 0 stops).getLast settledSome).color =
        (stops.getLast some).color := by
      have colors := congrArg List.getLast? (color_settle 0 stops)
      rw [List.getLast?_map, List.getLast?_map, List.getLast?_eq_some_getLast settledSome,
        List.getLast?_eq_some_getLast some] at colors
      exact Option.some.inj colors
    rw [← settledColor]
    rcases startAtZero_eq_or settledSome with ⟨_, _, _, _, same⟩ | ⟨_, _, _, _, copy⟩
    · simp only [same]
    · simp only [copy, List.getLast_cons settledSome]
  rcases stopAtOne_eq_or startedSome with
    ⟨rest, last, started, notEarlier, same⟩ | ⟨rest, last, started, _, copy⟩
  · refine ⟨rest, last, same.trans started, ?_, ?_⟩
    · have bounds := bounds_normalize some last (by rw [normalize, same, started]; simp)
      exact Int.le_antisymm bounds.2 notEarlier
    · rw [← color]
      simp only [started, List.getLast_concat]
  · refine ⟨_, _, copy, rfl, ?_⟩
    rw [← color]
    simp only [started, List.getLast_concat]

end Normalize

end Ramp

end Raster
