/-!
# Stages

A stage is a state machine that answers each command with a list of answers.
`Stage.run` feeds it a list of commands and collects the answers in order.
-/

namespace Raster.Stage

universe u v w x y z

variable {σ : Type u} {α : Type v} {β : Type w}

/-- The state after a list of commands, with all the answers in order. -/
def run (step : σ → α → σ × List β) : σ → List α → σ × List β
  | state, [] => (state, [])
  | state, command :: rest =>
      let (middle, answer) := step state command
      let (final, answers) := run step middle rest
      (final, answer ++ answers)

/-- The answers to a list of commands. -/
def output (step : σ → α → σ × List β) (state : σ) (commands : List α) : List β :=
  (run step state commands).2

@[simp]
theorem run_nil (step : σ → α → σ × List β) (state : σ) :
    run step state [] = (state, []) :=
  rfl

theorem run_cons (step : σ → α → σ × List β) (state : σ) (command : α) (rest : List α) :
    run step state (command :: rest) =
      ((run step (step state command).1 rest).1,
        (step state command).2 ++ (run step (step state command).1 rest).2) :=
  rfl

/-- A run may be interrupted anywhere. -/
theorem run_append (step : σ → α → σ × List β) (state : σ) (first second : List α) :
    run step state (first ++ second) =
      ((run step (run step state first).1 second).1,
        (run step state first).2 ++ (run step (run step state first).1 second).2) := by
  induction first generalizing state with
  | nil => simp
  | cons command rest inductionHypothesis =>
      simp only [List.cons_append, run_cons, inductionHypothesis, List.append_assoc]

/-- A stage whose steps are those of another one, seen through maps, has its runs too. -/
theorem run_map {τ : Type x} {γ : Type y} {δ : Type z} {step : σ → α → σ × List β}
    {other : τ → γ → τ × List δ} {state : σ → τ} {command : α → γ} {answer : β → δ}
    (steps : ∀ current given, other (state current) (command given) =
      (state (step current given).1, (step current given).2.map answer)) (start : σ)
    (commands : List α) :
    run other (state start) (commands.map command) =
      (state (run step start commands).1, (run step start commands).2.map answer) := by
  induction commands generalizing start with
  | nil => rfl
  | cons given rest inductionHypothesis =>
      rw [List.map_cons, run_cons, steps, inductionHypothesis, run_cons, List.map_append]

/-- What every command keeps of a state is kept by a list of commands. -/
theorem view_run {κ : Type x} {view : σ → κ} {step : σ → α → σ × List β}
    (keeps : ∀ state command, view (step state command).1 = view state) (state : σ)
    (commands : List α) : view (run step state commands).1 = view state := by
  induction commands generalizing state with
  | nil => rfl
  | cons command rest inductionHypothesis =>
      rw [run_cons, inductionHypothesis, keeps]

/-- An answer that only one command is given is not given to commands without it. -/
theorem not_mem_run {step : σ → α → σ × List β} {asked : α} {answer : β}
    (asks : ∀ state command, command ≠ asked → answer ∉ (step state command).2) (state : σ)
    {commands : List α} (unasked : asked ∉ commands) : answer ∉ (run step state commands).2 := by
  induction commands generalizing state with
  | nil => exact List.not_mem_nil
  | cons command rest inductionHypothesis =>
      have ⟨notFirst, notRest⟩ := not_or.mp (mt List.mem_cons.mpr unasked)
      rw [run_cons]
      intro member
      rcases List.mem_append.mp member with here | later
      · exact asks state command (Ne.symm notFirst) here
      · exact inductionHypothesis _ notRest later

end Raster.Stage
