import Mathlib.Data.List.Chain
import Raster.Proofs.Coverage.Recording

/-!
# Values as runs

The lengths of runs fit a byte, and neighboring runs of one value only occur where a length byte
cannot tell more.  There is one such list of runs for any values, which is the one that is recorded,
so that a recorded row stands for its values and takes no more runs than it must.
-/

namespace Raster.CoverageCache

/-- The lengths of the runs are positive bytes, and a run is only followed by another one of its
value if it is as long as can be. -/
structure Canonical (runs : List (Nat × Nat)) : Prop where
  lengths : ∀ run ∈ runs, 1 ≤ run.2 ∧ run.2 ≤ maxRun
  maximal : runs.IsChain fun run next => run.1 = next.1 → run.2 = maxRun

theorem canonical_nil : Canonical [] :=
  ⟨fun _ member => absurd member List.not_mem_nil, .nil⟩

/-- A run in front of canonical runs only has to fit the first of them. -/
theorem canonical_cons_iff {value length : Nat} {rest : List (Nat × Nat)} :
    Canonical ((value, length) :: rest) ↔
      (1 ≤ length ∧ length ≤ maxRun) ∧
        (∀ next ∈ rest.head?, value = next.1 → length = maxRun) ∧ Canonical rest := by
  constructor
  · intro canonical
    obtain ⟨first, chain⟩ := List.isChain_cons.mp canonical.maximal
    exact ⟨canonical.lengths _ List.mem_cons_self, first,
      fun run member => canonical.lengths run (List.mem_cons_of_mem _ member), chain⟩
  · rintro ⟨here, first, later⟩
    refine ⟨?_, List.isChain_cons.mpr ⟨first, later.maximal⟩⟩
    intro run member
    rcases List.mem_cons.mp member with rfl | restMember
    · exact here
    · exact later.lengths run restMember

/-! ## Recorded runs are canonical -/

/-- The run that is being counted comes first. -/
theorem exists_head?_runsFrom (value count : Nat) (values : List Nat) :
    ∃ length, (runsFrom value count values).head? = some (value, length) := by
  induction values generalizing count with
  | nil => exact ⟨count, rfl⟩
  | cons next rest inductionHypothesis =>
      unfold runsFrom
      split
      · exact inductionHypothesis (count + 1)
      · exact ⟨count, rfl⟩

/-- A run is counted up to the longest one and given up for another value or for its length. -/
theorem canonical_runsFrom {count : Nat} (positive : 1 ≤ count) (fits : count ≤ maxRun)
    (value : Nat) (values : List Nat) : Canonical (runsFrom value count values) := by
  induction values generalizing value count with
  | nil =>
      refine canonical_cons_iff.mpr ⟨⟨positive, fits⟩, ?_, canonical_nil⟩
      intro next first
      cases first
  | cons next rest inductionHypothesis =>
      unfold runsFrom
      split
      · rename_i same
        exact inductionHypothesis (Nat.le_add_left 1 count) same.2 value
      · rename_i ends
        have later := inductionHypothesis (Nat.le_refl 1) (by decide) next
        refine canonical_cons_iff.mpr ⟨⟨positive, fits⟩, ?_, later⟩
        intro run first equal
        obtain ⟨length, head⟩ := exists_head?_runsFrom next 1 rest
        obtain rfl := Option.some.inj (head.symm.trans first)
        exact Nat.le_antisymm fits (Nat.le_of_not_lt fun below => ends ⟨equal.symm, below⟩)

theorem canonical_runs (values : List Nat) : Canonical (runs values) := by
  cases values with
  | nil => exact canonical_nil
  | cons value rest => exact canonical_runsFrom (Nat.le_refl 1) (by decide) value rest

/-! ## There are no other canonical runs -/

/-- What is left of a run is counted to its end if no run of its value is merged with it. -/
theorem runsFrom_replicate_append {value count more : Nat} {rest : List (Nat × Nat)}
    (fits : count + more ≤ maxRun)
    (ends : ∀ next ∈ rest.head?, value = next.1 → count + more = maxRun)
    (canonical : Canonical rest) (again : runs (RunRow.expand rest) = rest) :
    runsFrom value count (List.replicate more value ++ RunRow.expand rest) =
      (value, count + more) :: rest := by
  induction more generalizing count with
  | zero =>
      rw [List.replicate_zero, List.nil_append, Nat.add_zero]
      cases rest with
      | nil => rfl
      | cons next later =>
          obtain ⟨nextValue, length⟩ := next
          obtain ⟨⟨positive, _⟩, _, _⟩ := canonical_cons_iff.mp canonical
          obtain ⟨shorter, rfl⟩ := Nat.exists_eq_add_of_le' positive
          rw [RunRow.expand_cons, List.replicate_succ, List.cons_append] at again ⊢
          have apart : ¬(nextValue = value ∧ count < maxRun) := by
            rintro ⟨rfl, below⟩
            exact Nat.ne_of_lt below (ends _ rfl rfl)
          rw [runsFrom, if_neg apart]
          exact congrArg _ again
  | succ more inductionHypothesis =>
      have below : count < maxRun := by omega
      rw [List.replicate_succ, List.cons_append, runsFrom, if_pos ⟨rfl, below⟩,
        inductionHypothesis (by omega) (fun next first equal => by
          rw [Nat.add_right_comm]
          exact ends next first equal)]
      rw [Nat.add_right_comm]
      rfl

/-- Canonical runs are the runs of the values that they stand for. -/
theorem runs_expand {encoded : List (Nat × Nat)} (canonical : Canonical encoded) :
    runs (RunRow.expand encoded) = encoded := by
  induction encoded with
  | nil => rfl
  | cons run rest inductionHypothesis =>
      obtain ⟨value, length⟩ := run
      obtain ⟨⟨positive, fits⟩, ends, later⟩ := canonical_cons_iff.mp canonical
      obtain ⟨shorter, rfl⟩ := Nat.exists_eq_add_of_le positive
      rw [RunRow.expand_cons, Nat.add_comm 1, List.replicate_succ, List.cons_append, runs,
        Nat.add_comm shorter]
      exact runsFrom_replicate_append fits ends later (inductionHypothesis later)

/-- Whatever a cache held, the rows that are recorded in it read back in order and with all their
values, and their runs are the canonical ones for these values. -/
theorem recorded_rows_lossless_maximal (cache : CoverageCache) (maxCoverage : Nat)
    (rows : List CoverageRow) (box : Option PixelBox) :
    (cache.record maxCoverage rows box).rows.map RunRow.decoded = rows ∧
      ∀ row ∈ (cache.record maxCoverage rows box).rows, Canonical row.runs ∧
        ∀ other, Canonical other → RunRow.expand other = RunRow.expand row.runs →
          other = row.runs := by
  rw [rows_record]
  constructor
  · rw [List.map_map]
    exact List.map_id'' CoverageRow.decoded_encoded rows
  · intro row member
    obtain ⟨source, _, rfl⟩ := List.mem_map.mp member
    refine ⟨canonical_runs source.values, ?_⟩
    intro other canonical same
    rw [← runs_expand canonical, same]
    exact runs_expand (canonical_runs source.values)

/-- A run is split only where its length exceeds a byte. -/
example : runs (List.replicate 256 5 ++ [0, 0]) = [(5, 255), (5, 1), (0, 2)] := by
  decide +kernel

end Raster.CoverageCache
