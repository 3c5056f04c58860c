import Raster.Proofs.Scan.Replaying

/-!
# Degenerate paints

With a degenerate paint neither the end of a path nor a replay draws anything.  The end of a path
reports that there is no box, while a replay leaves the box of the drawing before it.
-/

namespace Raster.Scanner

/-- The scanner with another bounding box. -/
def reporting (scanner : Scanner) (box : Option PixelBox) : Scanner :=
  { scanner with boundingBox := box }

theorem filledRect?_of_isDegenerate {scanner : Scanner}
    (degenerate : scanner.paint.isDegenerate = true) : scanner.filledRect? = none := by
  unfold filledRect?
  split
  · rename_i solid _
    rw [isDegenerate_of_solidColor? solid] at degenerate
    cases degenerate
  · rfl

/-- Under a degenerate paint the end of a path drops it and the bounding box. -/
theorem finish_of_isDegenerate {scanner : Scanner}
    (degenerate : scanner.paint.isDegenerate = true) (detached : scanner.cache = none) :
    scanner.finish = .ok ((scanner.reporting none).withPath #[] none .fresh) := by
  obtain ⟨edges, closed⟩ := scanner.exists_closeSubpath_eq
  have closedPaint : (scanner.withPath edges none scanner.probe).paint.isDegenerate = true :=
    degenerate
  have noRect : scanner.closeSubpath.filledRect? = none := by
    rw [closed, filledRect?_of_isDegenerate closedPaint]
  have closedCache : (scanner.withPath edges none scanner.probe).cache = none := detached
  rw [finish_of_noRect noRect, closed, rasterize_of_isDegenerate closedCache closedPaint]
  rfl

/-- Under a degenerate paint a command changes the path, and the last one drops the bounding
box. -/
theorem step_of_isDegenerate {scanner : Scanner}
    (degenerate : scanner.paint.isDegenerate = true) (detached : scanner.cache = none)
    (command : LineCommand) :
    ∃ edges subpath probe, scanner.step command =
      .ok ((scanner.reporting (if command = .finish then none else scanner.boundingBox)).withPath
        edges subpath probe) := by
  by_cases ends : command = .finish
  · subst ends
    exact ⟨_, _, _, finish_of_isDegenerate degenerate detached⟩
  · obtain ⟨edges, subpath, probe, stepped, _⟩ := (SamePath.refl scanner).step ends
    refine ⟨edges, subpath, probe, ?_⟩
    rw [stepped, if_neg ends]
    rfl

/-- Under a degenerate paint paths change nothing but the bounding box. -/
theorem send_of_isDegenerate {scanner : Scanner}
    (degenerate : scanner.paint.isDegenerate = true) (detached : scanner.cache = none)
    (commands : List LineCommand) :
    ∃ edges subpath probe, scanner.send commands =
      .ok ((scanner.reporting
        (if .finish ∈ commands then none else scanner.boundingBox)).withPath edges subpath
          probe) := by
  induction commands generalizing scanner with
  | nil => exact ⟨scanner.edges, scanner.subpath, scanner.probe, rfl⟩
  | cons command rest inductionHypothesis =>
      obtain ⟨edges, subpath, probe, stepped⟩ := step_of_isDegenerate degenerate detached command
      rw [send, List.foldlM_cons, stepped]
      obtain ⟨edges', subpath', probe', sent⟩ := @inductionHypothesis
        ((scanner.reporting
          (if command = .finish then none else scanner.boundingBox)).withPath edges subpath probe)
        degenerate detached
      refine ⟨edges', subpath', probe', sent.trans ?_⟩
      by_cases ends : command = .finish
      · subst ends
        simp only [if_true, List.mem_cons, true_or]
        split <;> rfl
      · simp only [if_neg ends, List.mem_cons, Ne.symm ends, false_or]
        rfl

/-- Under a degenerate paint no path and no replay of any cache changes the surface; a path that
ends leaves no bounding box, and a replay leaves the one there was.  Under any paint the record of
a path draws what the path itself draws, and reports the same box if the paint is not degenerate,
or else if there was no box before. -/
theorem degenerate_paint_draws_nothing (scanner : Scanner) :
    (scanner.paint.isDegenerate = true →
      (scanner.cache = none → ∀ commands, ∃ drawn, scanner.send commands = .ok drawn ∧
        drawn.surface = scanner.surface ∧
        drawn.boundingBox = if .finish ∈ commands then none else scanner.boundingBox) ∧
      ∀ cache, scanner.replay cache = .ok scanner) ∧
    ∀ {recorder : Scanner} {cache : CoverageCache} {commands : List LineCommand}, recorder.Idle →
      recorder.cache = some cache → .finish ∉ commands →
      ∃ recorded kept, recorder.send (commands ++ [.finish]) = .ok recorded ∧
        recorded.cache = some kept ∧ kept.isValid = true ∧
        ∀ direct drawn : Scanner, direct.Ready → direct.Idle → direct.cache = none →
          direct.frame = recorder.frame → direct.send (commands ++ [.finish]) = .ok drawn →
          scanner.surface = direct.surface → scanner.paint = direct.paint →
          ∃ replayed, scanner.replay kept = .ok replayed ∧ replayed.surface = drawn.surface ∧
            (replayed.boundingBox = drawn.boundingBox ↔
              (direct.paint.isDegenerate = true → scanner.boundingBox = none)) := by
  refine ⟨?_, ?_⟩
  · intro degenerate
    refine ⟨?_, fun _ => replay_of_isDegenerate (.inr degenerate)⟩
    intro detached commands
    obtain ⟨edges, subpath, probe, sent⟩ := send_of_isDegenerate degenerate detached commands
    exact ⟨_, sent, rfl, rfl⟩
  · intro recorder cache commands idle attached unfinished
    obtain ⟨recorded, kept, sent, _, keeps, valid, replays⟩ :=
      idle.exists_recorded attached unfinished
    refine ⟨recorded, kept, sent, keeps, valid, ?_⟩
    intro direct drawn ready directIdle detached sameFrame drawnDirect surface paint
    obtain ⟨replayed, played, same, box⟩ :=
      replays direct drawn ready directIdle detached sameFrame drawnDirect scanner surface paint
    refine ⟨replayed, played, same, ?_⟩
    cases degenerate : direct.paint.isDegenerate with
    | false =>
        simp only [box degenerate, Bool.false_eq_true, false_implies]
    | true =>
        obtain ⟨_, _, _, directSent⟩ :=
          send_of_isDegenerate degenerate detached (commands ++ [.finish])
        obtain rfl := Except.ok.inj (directSent.symm.trans drawnDirect)
        have unchanged := @replay_of_isDegenerate scanner kept (.inr (paint ▸ degenerate))
        obtain rfl := Except.ok.inj (unchanged.symm.trans played)
        simp [reporting, withPath]

/-- A gradient from a point to itself. -/
def pointGradient : Paint :=
  .linear (.new ⟨0, 0⟩ ⟨0, 0⟩ ⟨[⟨0, .black⟩], .clamp, Array.replicate Ramp.size 0xff000000⟩ .identity)

/-- A scanner with one pixel, which paths of that paint do not change. -/
def pointPainter : Scanner :=
  ((Scanner.new ⟨.gray8, 1, 1, .packed 1, #[7]⟩).setGrid 0 0).setPaint pointGradient

/-- The sides of the pixel. -/
def pixelSides : List LineCommand :=
  [.moveTo ⟨0, 0⟩, .lineTo ⟨65536, 0⟩, .lineTo ⟨65536, 65536⟩, .lineTo ⟨0, 65536⟩, .close]

theorem degenerate_paint_draws_nothing_pixel :
    pointPainter.paint.isDegenerate = true ∧ pointPainter.cache = none ∧
      (∃ drawn, pointPainter.send (pixelSides ++ [.finish]) = .ok drawn ∧
        drawn.surface = pointPainter.surface ∧ drawn.boundingBox = none) ∧
      (pointPainter.setCache (some .empty)).Idle ∧ .finish ∉ pixelSides ∧
      ∃ recorded kept, (pointPainter.setCache (some .empty)).send (pixelSides ++ [.finish]) =
          .ok recorded ∧ recorded.cache = some kept ∧
        ∃ replayed, pointPainter.replay kept = .ok replayed ∧ replayed.boundingBox = none := by
  have degenerate : pointPainter.paint.isDegenerate = true := by rfl
  have idle : pointPainter.Idle := ⟨rfl, rfl, rfl⟩
  have ready : pointPainter.Ready :=
    ((ready_new ⟨.gray8, 1, 1, .packed 1, #[7]⟩).setGrid 0 0).setPaint pointGradient
  have recorderIdle : (pointPainter.setCache (some .empty)).Idle := ⟨rfl, rfl, rfl⟩
  have unfinished : .finish ∉ pixelSides := by decide
  obtain ⟨inert, records⟩ := degenerate_paint_draws_nothing pointPainter
  obtain ⟨drawn, sent, same, box⟩ := (inert degenerate).1 rfl (pixelSides ++ [.finish])
  rw [if_pos (by decide)] at box
  obtain ⟨recorded, kept, recordedSent, keeps, _, replays⟩ := records recorderIdle rfl unfinished
  obtain ⟨replayed, played, _, agree⟩ :=
    replays pointPainter drawn ready idle rfl rfl sent rfl rfl
  exact ⟨degenerate, rfl, ⟨drawn, sent, same, box⟩, recorderIdle, unfinished, recorded, kept,
    recordedSent, keeps, replayed, played, (agree.mpr fun _ => rfl).trans box⟩

/-- Once the pixel has been recorded, replaying it under the same paint leaves the box of the
recording, although nothing is drawn; drawing it directly leaves none. -/
theorem replay_leaves_box_of_recording :
    ∃ recorded kept replayed drawn,
      (pointPainter.setCache (some .empty)).send (pixelSides ++ [.finish]) = .ok recorded ∧
        recorded.paint.isDegenerate = true ∧ recorded.cache = some kept ∧ kept.isValid = true ∧
        (recorded.setCache none).replay kept = .ok replayed ∧
        replayed.boundingBox = some ⟨0, 0, 1, 1⟩ ∧
        pointPainter.send (pixelSides ++ [.finish]) = .ok drawn ∧ drawn.boundingBox = none :=
  ⟨_, _, _, _, by rfl, by rfl, by rfl, by rfl, by rfl, by rfl, by rfl, by rfl⟩

end Raster.Scanner
