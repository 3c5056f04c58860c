import Raster.Proofs.Scan.Confining
import Raster.Proofs.Scan.Discarding
import Raster.Proofs.Scan.Retracing

/-!
# Subpaths that are closed explicitly

A scanner closes a subpath when the next one starts and when the path ends.  A path that closes it
itself right before that traces the same segments.  The probe for rectangles gets one vertex more,
which does not matter: after a second start it has failed anyway, and at the end of the path a
rectangle is filled as its sides are rasterized.
-/

namespace Raster

/-- The second list is the first one with some elements put in, each of them ahead of one that allows
for it.  There may be any number of them in any number of places. -/
inductive Inserts {α : Type} (inserted : α) (allows : α → Bool) : List α → List α → Prop
  | nil : Inserts inserted allows [] []
  | keep (value : α) {rest more : List α} (inserts : Inserts inserted allows rest more) :
      Inserts inserted allows (value :: rest) (value :: more)
  | ahead {value : α} {rest more : List α} (allowed : allows value = true)
      (inserts : Inserts inserted allows (value :: rest) more) :
      Inserts inserted allows (value :: rest) (inserted :: more)

namespace Inserts

variable {α : Type} {inserted : α} {allows : α → Bool}

theorem refl (values : List α) : Inserts inserted allows values values := by
  induction values with
  | nil => exact .nil
  | cons value rest inductionHypothesis => exact .keep value inductionHypothesis

theorem append_left {rest more : List α} (inserts : Inserts inserted allows rest more)
    (before : List α) : Inserts inserted allows (before ++ rest) (before ++ more) := by
  induction before with
  | nil => exact inserts
  | cons value before inductionHypothesis => exact .keep value inductionHypothesis

end Inserts

/-- The second path closes subpaths that the first one leaves open, each of them right before the
next one starts or the path ends. -/
def LineCommand.ClosesMore : List LineCommand → List LineCommand → Prop :=
  Inserts .close fun command => !command.continues

namespace Scanner

/-! ## One command -/

/-- A path with a current point has a vertex, or the probe has failed. -/
theorem Probes.probe_ne_fresh {scanner : Scanner} (probes : scanner.Probes)
    {subpath : OpenSubpath} (within : scanner.subpath = some subpath) :
    scanner.probe ≠ .fresh := by
  intro fresh
  have outside := (probes.fresh (by rw [fresh]; rfl)).1
  rw [outside] at within
  cases within

/-- A second subpath only depends on the edges of the ones before. -/
theorem Probes.moveTo_of_within {scanner : Scanner} (probes : scanner.Probes)
    {subpath : OpenSubpath} (within : scanner.subpath = some subpath) (point : Point) :
    scanner.moveTo point =
      scanner.withPath scanner.closeSubpath.edges (some ⟨point, point⟩) .failed := by
  have second : scanner.probe.isFresh = false :=
    decide_eq_false (probes.probe_ne_fresh within)
  rw [Scanner.moveTo, closeSubpath_eq]
  simp only [second, Bool.and_false, Bool.false_eq_true, if_false]
  rfl

/-- A subpath that is closed is not closed again. -/
theorem exists_closeSubpath_close_eq (scanner : Scanner) :
    ∃ probe, scanner.close.closeSubpath =
      scanner.withPath scanner.closeSubpath.edges none probe := by
  cases within : scanner.subpath with
  | none =>
      have ignored : scanner.close = scanner := by rw [close, within]
      obtain ⟨edges, closed⟩ := scanner.exists_closeSubpath_eq
      rw [ignored, closed]
      exact ⟨scanner.probe, rfl⟩
  | some subpath =>
      simp only [close, within]
      split
      · obtain ⟨edges, closed⟩ := scanner.exists_closeSubpath_eq
        rw [closed]
        exact ⟨scanner.probe, rfl⟩
      · rw [closeSubpath_eq, closeSubpath_eq]
        simp only [addEdge_eq, within, Option.bind_some, Edge.ofSegment?_self,
          Option.toArray_none, Array.append_empty]
        exact ⟨_, rfl⟩

/-- Closing changes only the path. -/
theorem exists_close_eq (scanner : Scanner) :
    ∃ edges subpath probe, scanner.close = scanner.withPath edges subpath probe := by
  have unfinished : LineCommand.close ≠ .finish := nofun
  obtain ⟨edges, subpath, probe, closed, _⟩ := (SamePath.refl scanner).step unfinished
  exact ⟨edges, subpath, probe, Except.ok.inj closed⟩

theorem Probes.moveTo_close {scanner : Scanner} (probes : scanner.Probes) (point : Point) :
    scanner.close.moveTo point = scanner.moveTo point := by
  cases within : scanner.subpath with
  | none => rw [close, within]
  | some subpath =>
      have stays : ∃ later, scanner.close.subpath = some later := by
        simp only [close, within]
        split
        · exact ⟨_, within⟩
        · exact ⟨_, rfl⟩
      obtain ⟨later, withinLater⟩ := stays
      have stepped : scanner.step .close = .ok scanner.close := rfl
      have probesLater := probes.step stepped
      obtain ⟨probe, closed⟩ := scanner.exists_closeSubpath_close_eq
      obtain ⟨edges, open', probe', path⟩ := scanner.exists_close_eq
      rw [probesLater.moveTo_of_within withinLater, probes.moveTo_of_within within, closed, path]
      rfl

theorem Probes.map_bare_finish_close {scanner : Scanner} (ready : scanner.Ready)
    (probes : scanner.Probes) : scanner.close.finish.map bare = scanner.finish.map bare := by
  have stepped : scanner.step .close = .ok scanner.close := rfl
  obtain ⟨probe, closed⟩ := scanner.exists_closeSubpath_close_eq
  obtain ⟨edges, closedBefore⟩ := scanner.exists_closeSubpath_eq
  rw [closedBefore] at closed
  cases attached : scanner.cache with
  | none =>
      have detached : scanner.close.cache = none := by
        obtain ⟨_, _, _, path⟩ := scanner.exists_close_eq
        rw [path]
        exact attached
      rw [(probes.step stepped).map_bare_finish (ready.step stepped) detached,
        probes.map_bare_finish ready attached, closed, closedBefore]
      exact map_bare_rasterize_withPath attached edges probe scanner.probe
  | some cache =>
      have kept : scanner.closeSubpath.cache = some cache := by
        rw [closedBefore]
        exact attached
      have keptLater : scanner.close.closeSubpath.cache = some cache := by
        rw [closed]
        exact attached
      obtain ⟨_, later⟩ := exists_finish_of_cache keptLater
      obtain ⟨_, finished⟩ := exists_finish_of_cache kept
      rw [later, finished, closed, closedBefore]
      rfl

/-- What starts a subpath or ends the path is answered alike whether or not the subpath before was
closed. -/
theorem Probes.map_bare_step_close {scanner : Scanner} (ready : scanner.Ready)
    (probes : scanner.Probes) {command : LineCommand} (ends : command.continues = false) :
    (scanner.close.step command).map bare = (scanner.step command).map bare := by
  cases command with
  | moveTo point =>
      exact congrArg (fun next => Except.ok (ε := Fault) (bare next)) (probes.moveTo_close point)
  | finish => exact probes.map_bare_finish_close ready
  | lineJoin => cases ends
  | lineTo point => cases ends
  | close => cases ends

/-! ## Paths -/

/-- Paths that begin alike go on alike. -/
theorem map_bare_send_cons_congr {first second : Scanner} {command : LineCommand}
    (same : (first.step command).map bare = (second.step command).map bare)
    (commands : List LineCommand) :
    (first.send (command :: commands)).map bare = (second.send (command :: commands)).map bare := by
  rw [Scanner.send, Scanner.send, List.foldlM_cons, List.foldlM_cons]
  exact map_bare_bind_congr same fun alike => map_bare_send_congr alike commands

/-- Closing subpaths explicitly changes nothing in what is left of the path. -/
theorem Probes.map_bare_send_of_closesMore {scanner : Scanner} (ready : scanner.Ready)
    (probes : scanner.Probes) {commands more : List LineCommand}
    (closes : LineCommand.ClosesMore commands more) :
    (scanner.send more).map bare = (scanner.send commands).map bare := by
  induction closes generalizing scanner with
  | nil => rfl
  | keep command _ inductionHypothesis =>
      rw [Scanner.send, Scanner.send, List.foldlM_cons, List.foldlM_cons]
      cases stepped : scanner.step command with
      | error fault => rfl
      | ok next => exact inductionHypothesis (ready.step stepped) (probes.step stepped)
  | @ahead command rest more allowed _ inductionHypothesis =>
      have closed : scanner.step .close = .ok scanner.close := rfl
      have ends : command.continues = false := by simpa using allowed
      have later := inductionHypothesis (ready.step closed) (probes.step closed)
      rw [Scanner.send, List.foldlM_cons, closed]
      change (scanner.close.send more).map bare = _
      rw [later]
      exact map_bare_send_cons_congr (probes.map_bare_step_close ready ends) rest

/-! ## Calls -/

/-- The second calls are the first ones, but for subpaths that they close explicitly: within a path
that is sent, or by a call of their own ahead of a call that starts a subpath or ends the path. -/
inductive Call.ClosesMore : List Call → List Call → Prop
  | nil : ClosesMore [] []
  | keep (call : Call) {rest more : List Call} (closes : ClosesMore rest more) :
      ClosesMore (call :: rest) (call :: more)
  | send {commands others : List LineCommand} {rest more : List Call}
      (path : LineCommand.ClosesMore commands others) (closes : ClosesMore rest more) :
      ClosesMore (.send commands :: rest) (.send others :: more)
  | ahead {command : LineCommand} {commands : List LineCommand} {rest more : List Call}
      (ends : command.continues = false)
      (closes : ClosesMore (.send (command :: commands) :: rest) more) :
      ClosesMore (.send (command :: commands) :: rest) (.send [.close] :: more)

/-- The calls change the clip box and the grid only between paths. -/
def KeepsFrame (scanner : Scanner) : List Call → Prop
  | [] => True
  | call :: rest =>
      (call.keepsFrame = false → scanner.Idle) ∧
        ∀ next, scanner.perform call = .ok next → next.KeepsFrame rest

/-- Whether calls change the frame does not depend on what is kept. -/
theorem KeepsFrame.congr {first second : Scanner} {calls : List Call}
    (keeps : first.KeepsFrame calls) (same : first.bare = second.bare) :
    second.KeepsFrame calls := by
  induction calls generalizing first second with
  | nil => trivial
  | cons call rest inductionHypothesis =>
      refine ⟨?_, ?_⟩
      · intro changes
        obtain ⟨edges, subpath, probe⟩ := keeps.1 changes
        rw [eq_of_bare_eq same.symm]
        exact ⟨edges, subpath, probe⟩
      · intro next performed
        have answered := map_bare_congr (fun scanner => scanner.perform call)
          (map_bare_perform_bare call) same
        rw [performed] at answered
        obtain ⟨other, otherPerformed, alike⟩ := exists_of_map_eq_ok answered
        exact inductionHypothesis (keeps.2 other otherPerformed) alike

theorem Ready.perform {scanner next : Scanner} (ready : scanner.Ready) {call : Call}
    (performed : scanner.perform call = .ok next) : next.Ready := by
  cases call with
  | setGrid lgX lgY =>
      cases performed
      exact ready.setGrid lgX lgY
  | setRule rule =>
      cases performed
      exact ⟨ready.lgX_le, ready.lgY_le, ready.clip⟩
  | setClip clip =>
      cases performed
      exact ready.setClip clip
  | setPaint paint =>
      cases performed
      exact ready.setPaint paint
  | setCache cache =>
      cases performed
      exact ⟨ready.lgX_le, ready.lgY_le, ready.clip⟩
  | send commands => exact ready.send performed
  | clearRect x y width height color =>
      cases performed
      exact ready.clearRect x y width height color
  | replay cache => exact ready.replay performed

theorem Probes.perform {scanner next : Scanner} (probes : scanner.Probes) {call : Call}
    (keeps : call.keepsFrame = false → scanner.Idle)
    (performed : scanner.perform call = .ok next) : next.Probes := by
  cases call with
  | setGrid lgX lgY =>
      cases performed
      exact ((keeps rfl).setGrid lgX lgY).probes
  | setRule rule =>
      cases performed
      exact ⟨probes.fresh, probes.vertices⟩
  | setClip clip =>
      cases performed
      have idle := keeps rfl
      exact Idle.probes ⟨idle.edges, idle.subpath, idle.probe⟩
  | setPaint paint =>
      cases performed
      exact ⟨probes.fresh, probes.vertices⟩
  | setCache cache =>
      cases performed
      exact ⟨probes.fresh, probes.vertices⟩
  | send commands => exact probes.send performed
  | clearRect x y width height color =>
      cases performed
      rw [clearRect_eq]
      exact ⟨probes.fresh, probes.vertices⟩
  | replay cache =>
      obtain ⟨touches, box, scratch, rfl⟩ := exists_of_replay performed
      exact ⟨probes.fresh, probes.vertices⟩

/-- Calls that begin alike go on alike. -/
theorem map_bare_performAll_cons_congr {first second : Scanner} {call other : Call}
    (same : (first.perform call).map bare = (second.perform other).map bare) (calls : List Call) :
    (first.performAll (call :: calls)).map bare =
      (second.performAll (other :: calls)).map bare := by
  rw [performAll, performAll, List.foldlM_cons, List.foldlM_cons]
  exact map_bare_bind_congr same fun alike => map_bare_performAll_congr alike calls

theorem Probes.map_bare_performAll_of_closesMore {scanner : Scanner} (ready : scanner.Ready)
    (probes : scanner.Probes) {calls more : List Call} (closes : Call.ClosesMore calls more)
    (keeps : scanner.KeepsFrame calls) :
    (scanner.performAll more).map bare = (scanner.performAll calls).map bare := by
  induction closes generalizing scanner with
  | nil => rfl
  | @keep call rest more _ inductionHypothesis =>
      rw [performAll, performAll, List.foldlM_cons, List.foldlM_cons]
      cases performed : scanner.perform call with
      | error fault => rfl
      | ok next =>
          exact inductionHypothesis (ready.perform performed) (probes.perform keeps.1 performed)
            (keeps.2 next performed)
  | @send commands others rest more path _ inductionHypothesis =>
      have sent : (scanner.perform (.send others)).map bare =
          (scanner.perform (.send commands)).map bare :=
        probes.map_bare_send_of_closesMore ready path
      rw [map_bare_performAll_cons_congr sent, performAll, performAll, List.foldlM_cons,
        List.foldlM_cons]
      cases performed : scanner.perform (.send commands) with
      | error fault => rfl
      | ok next =>
          exact inductionHypothesis (ready.perform performed) (probes.perform keeps.1 performed)
            (keeps.2 next performed)
  | @ahead command commands rest more ends _ inductionHypothesis =>
      have closed : scanner.step .close = .ok scanner.close := rfl
      have same : (scanner.close.perform (.send (command :: commands))).map bare =
          (scanner.perform (.send (command :: commands))).map bare :=
        map_bare_send_cons_congr (probes.map_bare_step_close ready ends) commands
      have keepsLater : scanner.close.KeepsFrame (.send (command :: commands) :: rest) := by
        have unchanged : (Call.send (command :: commands)).keepsFrame ≠ false :=
          Bool.false_ne_true.symm
        refine ⟨fun changes => absurd changes unchanged, ?_⟩
        intro next performed
        rw [performed] at same
        obtain ⟨other, otherPerformed, alike⟩ := exists_of_map_eq_ok same.symm
        exact (keeps.2 other otherPerformed).congr alike
      have later := inductionHypothesis (ready.step closed) (probes.step closed) keepsLater
      change (scanner.close.performAll more).map bare = _
      rw [later]
      exact map_bare_performAll_cons_congr same rest

end Scanner

end Raster
