import Raster.Error

/-!
# Computations with faults

A computation is no fault exactly if none of its parts is one.  A result of a sequence is
therefore taken apart into the results of its parts.
-/

namespace Raster

theorem exists_eq_ok_of_isOk {α : Type} {computation : Except Fault α}
    (answered : computation.isOk = true) : ∃ result, computation = .ok result := by
  cases computation with
  | error fault => cases answered
  | ok result => exact ⟨result, rfl⟩

theorem exists_of_bind_eq_ok {α β : Type} {first : Except Fault α} {next : α → Except Fault β}
    {result : β} (done : (first >>= next) = .ok result) :
    ∃ value, first = .ok value ∧ next value = .ok result := by
  cases first with
  | error fault => cases done
  | ok value => exact ⟨value, rfl, done⟩

theorem exists_of_map_eq_ok {α β : Type} {computation : Except Fault α} {f : α → β} {result : β}
    (done : computation.map f = .ok result) :
    ∃ value, computation = .ok value ∧ f value = result := by
  cases computation with
  | error fault => cases done
  | ok value => exact ⟨value, rfl, Except.ok.inj done⟩

theorem map_map {α β γ : Type} (computation : Except Fault α) (f : α → β) (g : β → γ) :
    (computation.map f).map g = computation.map fun result => g (f result) := by
  cases computation <;> rfl

/-- A mapping adds no fault. -/
theorem eq_error_of_map_eq_error {α β : Type} {computation : Except Fault α} {f : α → β}
    {fault : Fault} (mapped : computation.map f = .error fault) : computation = .error fault := by
  cases computation with
  | error other =>
      cases mapped
      rfl
  | ok value => cases mapped

/-- What every step keeps is kept by a sequence of steps. -/
theorem foldlM_keeps {σ α : Type} {step : σ → α → Except Fault σ} {property : σ → Prop}
    {values : List α}
    (kept : ∀ {state next : σ} {value : α}, value ∈ values → property state →
      step state value = .ok next → property next)
    {state final : σ} (holds : property state) (done : values.foldlM step state = .ok final) :
    property final := by
  induction values generalizing state with
  | nil =>
      cases done
      exact holds
  | cons value rest inductionHypothesis =>
      rw [List.foldlM_cons] at done
      obtain ⟨next, stepped, continued⟩ := exists_of_bind_eq_ok done
      have here := kept List.mem_cons_self holds stepped
      exact inductionHypothesis (fun member => kept (List.mem_cons_of_mem _ member)) here continued

/-- What one step reaches and every step keeps is reached by a sequence that has the step. -/
theorem foldlM_reaches {σ α : Type} {step : σ → α → Except Fault σ} {property : σ → Prop}
    {values : List α} {value : α} (member : value ∈ values)
    (reached : ∀ {state next : σ}, step state value = .ok next → property next)
    (kept : ∀ {state next : σ} {value : α}, value ∈ values → property state →
      step state value = .ok next → property next)
    {state final : σ} (done : values.foldlM step state = .ok final) : property final := by
  induction values generalizing state with
  | nil => cases member
  | cons first rest inductionHypothesis =>
      rw [List.foldlM_cons] at done
      obtain ⟨next, stepped, continued⟩ := exists_of_bind_eq_ok done
      rcases List.mem_cons.mp member with rfl | restMember
      · exact foldlM_keeps (fun later => kept (List.mem_cons_of_mem _ later)) (reached stepped)
          continued
      · exact inductionHypothesis restMember (fun later => kept (List.mem_cons_of_mem _ later))
          continued

/-- If every step has a result that has what the step needs, a sequence of steps has one. -/
theorem exists_foldlM_eq_ok {σ α : Type} {step : σ → α → Except Fault σ} {property : σ → Prop}
    {values : List α}
    (answers : ∀ {state : σ} {value : α}, value ∈ values → property state →
      ∃ next, step state value = .ok next ∧ property next)
    {state : σ} (holds : property state) : ∃ final, values.foldlM step state = .ok final := by
  induction values generalizing state with
  | nil => exact ⟨state, rfl⟩
  | cons value rest inductionHypothesis =>
      obtain ⟨next, stepped, here⟩ := answers List.mem_cons_self holds
      rw [List.foldlM_cons, stepped]
      exact inductionHypothesis (fun member => answers (List.mem_cons_of_mem _ member)) here

theorem mapM_eq_ok {α β : Type} {f : α → Except Fault β} {g : α → β} {values : List α}
    (answers : ∀ value ∈ values, f value = .ok (g value)) :
    values.mapM f = .ok (values.map g) := by
  induction values with
  | nil => rfl
  | cons value rest inductionHypothesis =>
      rw [List.mapM_cons, answers value List.mem_cons_self,
        inductionHypothesis fun other member => answers other (List.mem_cons_of_mem _ member)]
      rfl

theorem mapM_congr {α β : Type} {f g : α → Except Fault β} {values : List α}
    (same : ∀ value ∈ values, f value = g value) : values.mapM f = values.mapM g := by
  induction values with
  | nil => rfl
  | cons value rest inductionHypothesis =>
      rw [List.mapM_cons, List.mapM_cons, same value List.mem_cons_self,
        inductionHypothesis fun other member => same other (List.mem_cons_of_mem _ member)]

/-- If there is only one fault to end a sequence, any failing part ends it so. -/
theorem mapM_eq_error {α β : Type} {f : α → Except Fault β} {fault : Fault} {values : List α}
    (alike : ∀ value ∈ values, ∀ other, f value = .error other → other = fault)
    (failed : ∃ value ∈ values, f value = .error fault) : values.mapM f = .error fault := by
  induction values with
  | nil =>
      obtain ⟨value, member, _⟩ := failed
      cases member
  | cons first rest inductionHypothesis =>
      rw [List.mapM_cons]
      cases here : f first with
      | error other =>
          rw [alike first List.mem_cons_self other here]
          rfl
      | ok result =>
          obtain ⟨value, member, later⟩ := failed
          rcases List.mem_cons.mp member with rfl | restMember
          · rw [here] at later
            cases later
          · rw [inductionHypothesis
              (fun value member => alike value (List.mem_cons_of_mem _ member))
              ⟨value, restMember, later⟩]
            rfl

theorem exists_mapM_eq_ok {α β : Type} {f : α → Except Fault β} {values : List α}
    (answers : ∀ value ∈ values, ∃ result, f value = .ok result) :
    ∃ results, values.mapM f = .ok results := by
  induction values with
  | nil => exact ⟨[], rfl⟩
  | cons value rest inductionHypothesis =>
      obtain ⟨result, here⟩ := answers value List.mem_cons_self
      obtain ⟨results, later⟩ := inductionHypothesis fun other member =>
        answers other (List.mem_cons_of_mem _ member)
      refine ⟨result :: results, ?_⟩
      rw [List.mapM_cons, here, later]
      rfl

theorem exists_eq_ok_of_mapM {α β : Type} {f : α → Except Fault β} {values : List α}
    {results : List β} (answered : values.mapM f = .ok results) {value : α}
    (member : value ∈ values) : ∃ result, f value = .ok result := by
  induction values generalizing results with
  | nil => cases member
  | cons first rest inductionHypothesis =>
      rw [List.mapM_cons] at answered
      obtain ⟨result, here, answeredRest⟩ := exists_of_bind_eq_ok answered
      obtain ⟨laterResults, later, _⟩ := exists_of_bind_eq_ok answeredRest
      rcases List.mem_cons.mp member with rfl | restMember
      · exact ⟨result, here⟩
      · exact inductionHypothesis later restMember

theorem exists_of_mem_mapM {α β : Type} {f : α → Except Fault β} {values : List α}
    {results : List β} (answered : values.mapM f = .ok results) {result : β}
    (member : result ∈ results) : ∃ value ∈ values, f value = .ok result := by
  induction values generalizing results with
  | nil =>
      cases answered
      cases member
  | cons first rest inductionHypothesis =>
      rw [List.mapM_cons] at answered
      obtain ⟨here, firstAnswered, answeredRest⟩ := exists_of_bind_eq_ok answered
      obtain ⟨later, restAnswered, done⟩ := exists_of_bind_eq_ok answeredRest
      cases done
      rcases List.mem_cons.mp member with rfl | laterMember
      · exact ⟨first, List.mem_cons_self, firstAnswered⟩
      · obtain ⟨value, valueMember, valueAnswered⟩ := inductionHypothesis restAnswered laterMember
        exact ⟨value, List.mem_cons_of_mem _ valueMember, valueAnswered⟩

end Raster
