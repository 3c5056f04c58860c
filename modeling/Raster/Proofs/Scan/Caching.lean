import Raster.Proofs.Coverage.Filing
import Raster.Proofs.Scan.Bounding
import Raster.Proofs.Scan.Replaying

/-!
# What caches hold

A cache is new, it is invalidated, or it is attached to a scanner and taken back after any calls.
As long as no counter passes the greatest byte, it is complete at every moment of such a history:
the end of a path replaces all of it by the rows of that path, and nothing else changes it.
-/

namespace Raster

/-- The rows of a greatest surface under the finest grid. -/
def Edge.maxRows : Int := Surface.maxSize * 8

/-- The edge crosses only rows that a surface can have. -/
def Edge.OnSurface (edge : Edge) : Prop :=
  0 ≤ edge.firstRow ∧ edge.stopRow ≤ maxRows

namespace Sweep

variable {frame : ScanFrame} {edges : List Edge}

/-- Some edge crosses a sample row of every row of coverage. -/
theorem exists_crosses_of_mem_coverageRows {row : CoverageRow}
    (member : row ∈ coverageRows frame edges) :
    ∃ edge ∈ edges, ∃ sample, edge.Crosses sample ∧ row.y * frame.grid.rows ≤ sample ∧
      sample < (row.y + 1) * frame.grid.rows := by
  by_contra uncrossed
  have made := coverageRow?_of_mem_coverageRows member
  have noSpans : lineSpans frame edges row.y = [] := by
    apply List.flatMap_eq_nil_iff.mpr
    intro sample sampleMember
    apply spansAt_eq_nil
    intro edge edgeMember crosses
    obtain ⟨low, high⟩ := (mem_interval _ _ sample).mp sampleMember
    exact uncrossed ⟨edge, edgeMember, sample, crosses, low, high⟩
  rw [noSpans] at made
  cases made

/-- Edges on a surface have rows of coverage whose corners do not saturate. -/
theorem rowsFit_of_onSurface (width : frame.clip.width = frame.clip.right - frame.clip.left)
    (left : 0 ≤ frame.clip.left) (right : frame.clip.right ≤ Word.max32)
    (onSurface : ∀ edge ∈ edges, edge.OnSurface) : RowsFit (coverageRows frame edges) := by
  constructor
  · intro row member
    obtain ⟨first, last, ordered, begins, ends, inside, _⟩ :=
      samplesAt_of_mem_coverageRows width member
    unfold Word.Fits32 Word.min32
    omega
  · intro row member
    obtain ⟨edge, edgeMember, sample, ⟨begun, notEnded⟩, low, high⟩ :=
      exists_crosses_of_mem_coverageRows member
    obtain ⟨firstRow, stopRow⟩ := onSurface edge edgeMember
    have rows : (1 : Int) ≤ frame.grid.rows := by exact_mod_cast frame.grid.rows_pos
    have nonneg : 0 < row.y + 1 := by
      by_contra negative
      have below : (row.y + 1) * frame.grid.rows ≤ 0 :=
        Int.mul_nonpos_of_nonpos_of_nonneg (by omega) (by omega)
      omega
    have atMost : row.y ≤ row.y * frame.grid.rows := le_mul_of_one_le_right (by omega) rows
    unfold Edge.maxRows Surface.maxSize at stopRow
    unfold Word.Fits32 Word.min32 Word.max32
    omega

/-- Without a counter beyond a byte a row of coverage begins and ends with coverage. -/
theorem endsCovered_of_mem_coverageRows
    (width : frame.clip.width = frame.clip.right - frame.clip.left)
    (counts : ∀ x y, samplesAt frame edges x y ≤ 255) {row : CoverageRow}
    (member : row ∈ coverageRows frame edges) : row.encoded.EndsCovered := by
  have byte : ∀ x y, 0 < samplesAt frame edges x y → samplesAt frame edges x y % 256 ≠ 0 := by
    intro x y positive
    rw [Nat.mod_eq_of_lt (Nat.lt_succ_of_le (counts x y))]
    exact Nat.ne_of_gt positive
  obtain ⟨first, last, ordered, _, _, _, values, firstPos, lastPos⟩ :=
    samplesAt_of_mem_coverageRows width member
  have decoded : RunRow.expand row.encoded.runs = row.values := CoverageCache.expand_runs _
  constructor
  · refine ⟨_, ?_, byte _ _ firstPos⟩
    rw [decoded, values, List.head?_map, List.head?_range', if_neg (by omega), Option.map_some]
  · have atLast : first + (last + 1 - first) - 1 = last := by omega
    refine ⟨_, ?_, byte _ _ lastPos⟩
    rw [decoded, values, List.getLast?_map, List.getLast?_range', if_neg (by omega),
      Option.map_some, atLast]

/-- The record of a path without a counter beyond a byte is complete. -/
theorem complete_record (width : frame.clip.width = frame.clip.right - frame.clip.left)
    (fits : RowsFit (coverageRows frame edges))
    (counts : ∀ x y, samplesAt frame edges x y ≤ 255) (cache : CoverageCache)
    (maxCoverage : Nat) :
    (cache.record maxCoverage (coverageRows frame edges)
      (boxOf (coverageRows frame edges))).Complete := by
  refine ⟨?_, ?_, ?_, ?_, ?_⟩
  · intro invalid
    cases invalid
  · have lines := pairwise_coverageRows frame edges
    rw [← List.pairwise_map, CoverageCache.lines_record, List.pairwise_map]
    exact lines
  · exact CoverageCache.filed_record cache maxCoverage _ fun row =>
      values_ne_nil_of_mem_coverageRows width
  · rw [CoverageCache.rows_record]
    intro runs runsMember
    obtain ⟨row, member, rfl⟩ := List.mem_map.mp runsMember
    exact endsCovered_of_mem_coverageRows width counts member
  · have pixels : (fun x y => ∃ row ∈ (cache.record maxCoverage (coverageRows frame edges)
        (boxOf (coverageRows frame edges))).rows, row.HasPixel x y) =
          fun x y => ∃ row ∈ coverageRows frame edges, row.HasPixel x y := by
      funext x y
      simp only [CoverageCache.rows_record, List.mem_map, exists_exists_and_eq_and,
        RunRow.HasPixel, CoverageRow.encoded, RunRow.count_runs, CoverageRow.HasPixel]
    rw [pixels]
    exact hull_boxOf fun row => hull_box_of_mem_coverageRows width fits

end Sweep

namespace Scanner

/-! ## Edges on the surface -/

/-- The scanner is placed, and its edges cross only rows that a surface can have, under whatever
clip boxes and grids they were received. -/
structure Sited (scanner : Scanner) : Prop where
  placed : scanner.Placed
  edges : ∀ edge ∈ scanner.edges.toList, edge.OnSurface

/-- Edges on the surface have rows of coverage whose corners do not saturate. -/
theorem Ready.rowsFit {scanner : Scanner} (ready : scanner.Ready) {edges : List Edge}
    (onSurface : ∀ edge ∈ edges, edge.OnSurface) :
    Sweep.RowsFit (Sweep.coverageRows scanner.frame edges) :=
  Sweep.rowsFit_of_onSurface ready.width_eq ready.clip.left_nonneg
    (ready.clip.right_le.trans (Word.fits32_clamp32 _).2) onSurface

/-- The edge of a segment crosses rows of the clip box. -/
theorem Placed.onSurface_of_ofSegment? {scanner : Scanner} (placed : scanner.Placed)
    {source target : Point} {edge : Edge}
    (made : Edge.ofSegment? scanner.grid scanner.clip source target = some edge) :
    edge.OnSurface := by
  have topNonneg : 0 ≤ scanner.clip.top * scanner.grid.rows :=
    Int.mul_nonneg placed.ready.clip.top_nonneg (by omega)
  have bottomLe : scanner.clip.bottom ≤ (Surface.maxSize : Int) :=
    (placed.ready.clip.bottom_le.trans scanner.surface.bounds_le.2).trans
      (Int.ofNat_le.mpr placed.accepted.height_le)
  have rowsLe : (scanner.grid.rows : Int) ≤ 8 := Int.ofNat_le.mpr placed.ready.rows_le
  have stopLe : scanner.clip.bottom * scanner.grid.rows ≤ Surface.maxSize * 8 :=
    Int.mul_le_mul bottomLe rowsLe (by omega) (by omega)
  obtain ⟨_, rfl⟩ := (Edge.ofSegment?_eq_some_iff ⟨source, target⟩).mp made
  simp only [Edge.OnSurface, Edge.between, Edge.maxRows]
  omega

theorem Sited.addEdge {scanner : Scanner} (sited : scanner.Sited) (source target : Point) :
    ∀ edge ∈ (scanner.addEdge source target).edges.toList, edge.OnSurface := by
  intro edge member
  rw [addEdge_eq, Array.toList_append, Option.toList_toArray] at member
  rcases List.mem_append.mp member with kept | added
  · exact sited.edges edge kept
  · exact sited.placed.onSurface_of_ofSegment? (Option.mem_toList.mp added)

theorem Sited.closeSubpath {scanner : Scanner} (sited : scanner.Sited) :
    ∀ edge ∈ scanner.closeSubpath.edges.toList, edge.OnSurface := by
  intro edge member
  rw [closeSubpath_eq, Array.toList_append, Option.toList_toArray] at member
  rcases List.mem_append.mp member with kept | added
  · exact sited.edges edge kept
  · obtain ⟨subpath, _, made⟩ := Option.bind_eq_some_iff.mp (Option.mem_toList.mp added)
    exact sited.placed.onSurface_of_ofSegment? made

theorem Sited.step {scanner next : Scanner} {command : LineCommand} (sited : scanner.Sited)
    (stepped : scanner.step command = .ok next) : next.Sited := by
  refine ⟨sited.placed.step stepped, ?_⟩
  cases command with
  | moveTo point =>
      cases stepped
      exact sited.closeSubpath
  | lineJoin =>
      cases stepped
      exact sited.edges
  | lineTo point =>
      cases stepped
      unfold lineTo
      cases scanner.subpath with
      | none => exact sited.edges
      | some subpath => exact sited.addEdge subpath.current point
  | close =>
      cases stepped
      unfold Scanner.close
      cases scanner.subpath with
      | none => exact sited.edges
      | some subpath =>
          simp only
          split
          · exact sited.edges
          · exact sited.addEdge subpath.current subpath.start
  | finish =>
      obtain ⟨_, _, _, _, rfl, _⟩ := exists_of_finish stepped
      exact fun _ member => absurd member List.not_mem_nil

theorem Sited.perform {scanner next : Scanner} (sited : scanner.Sited) {call : Call}
    (performed : scanner.perform call = .ok next) : next.Sited := by
  have placed := sited.placed.perform performed
  cases call with
  | setGrid lgX lgY =>
      cases performed
      exact ⟨placed, sited.edges⟩
  | setRule rule =>
      cases performed
      exact ⟨placed, sited.edges⟩
  | setClip clip =>
      cases performed
      exact ⟨placed, sited.edges⟩
  | setPaint paint =>
      cases performed
      exact ⟨placed, sited.edges⟩
  | setCache cache =>
      cases performed
      exact ⟨placed, sited.edges⟩
  | send commands => exact send_keeps (fun holds stepped => holds.step stepped) sited performed
  | clearRect x y width height color =>
      cases performed
      rw [clearRect_eq] at placed ⊢
      exact ⟨placed, sited.edges⟩
  | replay cache =>
      obtain ⟨touches, box, scratch, rfl⟩ := exists_of_replay performed
      exact ⟨placed, sited.edges⟩

theorem Sited.performAll {scanner next : Scanner} (sited : scanner.Sited) {calls : List Call}
    (performed : scanner.performAll calls = .ok next) : next.Sited :=
  foldlM_keeps (fun _ sited performed => sited.perform performed) sited performed

theorem sited_new {surface : Surface} (accepted : surface.Accepted) :
    (Scanner.new surface).Sited :=
  ⟨placed_new accepted, fun _ member => absurd member List.not_mem_nil⟩

/-! ## Histories -/

/-- Whether a call is neither a path nor a change of the attached cache. -/
def Call.leavesCache : Call → Bool
  | send _ => false
  | setCache _ => false
  | _ => true

/-- The second scanner is left after paths and any other calls but changes of the attached cache.
No path that ends has a counter beyond a byte. -/
inductive Renders (scanner : Scanner) : Scanner → Prop where
  | refl : Renders scanner scanner
  | command {middle next : Scanner} {command : LineCommand} (before : Renders scanner middle)
      (counts : command = .finish → ∀ x y, middle.closeSubpath.samplesAt x y ≤ 255)
      (stepped : middle.step command = .ok next) : Renders scanner next
  | call {middle next : Scanner} {call : Call} (before : Renders scanner middle)
      (leaves : call.leavesCache = true) (performed : middle.perform call = .ok next) :
      Renders scanner next

/-- The record of a closed path without a counter beyond a byte is complete. -/
theorem Sited.complete_record {scanner : Scanner} (sited : scanner.Sited)
    (recording : scanner.cache.isSome = true) (counts : ∀ x y, scanner.samplesAt x y ≤ 255) :
    scanner.record.Complete := by
  have noRect : scanner.filledRect? = none := by
    obtain ⟨cache, attached⟩ := Option.isSome_iff_exists.mp recording
    rw [filledRect?, attached]
  have swept : ∀ x y, Sweep.samplesAt scanner.frame scanner.edges.toList x y ≤ 255 := by
    intro x y
    have counted := counts x y
    rw [samplesAt, noRect] at counted
    exact counted
  have ready := sited.placed.ready
  exact Sweep.complete_record ready.width_eq (ready.rowsFit sited.edges) swept _ _

/-- The end of a path without a counter beyond a byte leaves a complete cache. -/
theorem Sited.complete_finish {scanner next : Scanner} (sited : scanner.Sited)
    (counts : ∀ x y, scanner.closeSubpath.samplesAt x y ≤ 255)
    (finished : scanner.finish = .ok next) {kept : CoverageCache}
    (keeps : next.cache = some kept) : kept.Complete := by
  obtain ⟨edges, closed⟩ := scanner.exists_closeSubpath_eq
  have sameCache : scanner.closeSubpath.cache = scanner.cache := by
    rw [closed]
    rfl
  have closedSited : scanner.closeSubpath.Sited := by
    refine ⟨?_, sited.closeSubpath⟩
    obtain ⟨⟨lgX, lgY, clip⟩, accepted⟩ := sited.placed
    rw [closed]
    exact ⟨⟨lgX, lgY, clip⟩, accepted⟩
  cases attached : scanner.cache with
  | none =>
      obtain ⟨_, _, _, _, rfl, same⟩ := exists_of_finish finished
      rw [attached] at same
      simp only at keeps
      rw [keeps] at same
      cases same
  | some earlier =>
      have recording : scanner.closeSubpath.cache = some earlier := sameCache.trans attached
      obtain ⟨scratch, recorded⟩ := exists_finish_of_cache recording
      rw [recorded] at finished
      cases finished
      cases keeps
      exact closedSited.complete_record (by rw [recording, Option.isSome_some]) counts

theorem Renders.send {scanner received : Scanner} {commands : List LineCommand}
    (unfinished : .finish ∉ commands) (sent : scanner.send commands = .ok received) :
    scanner.Renders received := by
  refine @foldlM_keeps _ _ _ scanner.Renders _ ?_ _ _ .refl sent
  intro middle next command member renders stepped
  exact renders.command (fun ends => absurd (ends ▸ member) unfinished) stepped

/-- The scanner is sited, and an attached cache is complete. -/
structure Caches (scanner : Scanner) : Prop where
  sited : scanner.Sited
  complete : ∀ cache, scanner.cache = some cache → cache.Complete

theorem Caches.step {scanner next : Scanner} (caches : scanner.Caches) {command : LineCommand}
    (counts : command = .finish → ∀ x y, scanner.closeSubpath.samplesAt x y ≤ 255)
    (stepped : scanner.step command = .ok next) : next.Caches := by
  refine ⟨caches.sited.step stepped, ?_⟩
  intro cache kept
  by_cases ends : command = .finish
  · subst ends
    exact caches.sited.complete_finish (counts rfl) stepped kept
  · obtain ⟨_, _, _, path, _⟩ := (SamePath.refl scanner).step ends
    obtain rfl := Except.ok.inj (path.symm.trans stepped)
    exact caches.complete cache kept

/-- A call that leaves the cache attached keeps it. -/
theorem cache_of_perform {scanner next : Scanner} {call : Call} (leaves : call.leavesCache = true)
    (performed : scanner.perform call = .ok next) : next.cache = scanner.cache := by
  cases call with
  | setGrid lgX lgY =>
      cases performed
      rfl
  | setRule rule =>
      cases performed
      rfl
  | setClip clip =>
      cases performed
      rfl
  | setPaint paint =>
      cases performed
      rfl
  | setCache cache => cases leaves
  | send commands => cases leaves
  | clearRect x y width height color =>
      cases performed
      rw [clearRect_eq]
  | replay cache =>
      obtain ⟨_, _, _, rfl⟩ := exists_of_replay performed
      rfl

theorem Caches.renders {scanner next : Scanner} (caches : scanner.Caches)
    (renders : scanner.Renders next) : next.Caches := by
  induction renders with
  | refl => exact caches
  | command before counts stepped inductionHypothesis =>
      exact inductionHypothesis.step counts stepped
  | call before leaves performed inductionHypothesis =>
      refine ⟨inductionHypothesis.sited.perform performed, ?_⟩
      rw [cache_of_perform leaves performed]
      exact inductionHypothesis.complete

end Scanner

namespace CoverageCache

/-- The cache has been new, or was invalidated, or was taken back from a scanner to which it had
been attached, after any calls on any surface. -/
inductive Obtained : CoverageCache → Prop where
  | new : Obtained .empty
  | invalidated {cache : CoverageCache} (earlier : Obtained cache) : Obtained cache.invalidate
  | detached {cache kept : CoverageCache} {format : PixelFormat} {width height : Nat}
      {layout : Layout} {elements : Array Nat} {surface : Surface} {before : List Scanner.Call}
      {scanner used : Scanner} (earlier : Obtained cache)
      (made : Surface.new? format width height layout elements = .ok surface)
      (reached : (Scanner.new surface).performAll before = .ok scanner)
      (renders : (scanner.setCache (some cache)).Renders used)
      (keeps : used.cache = some kept) : Obtained kept

/-- Whatever its history, a cache is complete: an invalid one is empty, and a valid one has rows
on lines from top to bottom, each of which takes its own part of the stream and begins and ends
with coverage.  Its box is the smallest one around its rows, and there is none exactly if there are
no rows. -/
theorem complete_of_obtained {cache : CoverageCache} (obtained : cache.Obtained) :
    cache.Complete ∧ (cache.boundingBox = none ↔ cache.rows = []) := by
  have complete : cache.Complete := by
    induction obtained with
    | new => exact complete_of_no_entries rfl rfl rfl
    | invalidated earlier inductionHypothesis => exact complete_of_no_entries rfl rfl rfl
    | @detached earlier kept _ _ _ _ _ _ _ scanner used _ made reached renders keeps
        inductionHypothesis =>
        have sited := (Scanner.sited_new (Surface.accepted_of_new? made)).performAll reached
        have caches : (scanner.setCache (some earlier)).Caches := by
          refine ⟨@Scanner.Sited.perform _ _ sited (.setCache (some earlier)) rfl, ?_⟩
          intro attached same
          obtain rfl := Option.some.inj same
          exact inductionHypothesis
        exact (caches.renders renders).complete _ keeps
  exact ⟨complete, complete.boundingBox_eq_none_iff⟩

/-- A scanner with three pixels. -/
def pairScanner : Scanner :=
  (Scanner.new ⟨.gray8, 3, 1, .packed 3, #[0, 0, 0]⟩).setGrid 0 0

/-- The sides of a rectangle that covers two of the pixels. -/
def pairSides : List LineCommand :=
  [.moveTo ⟨0, 0⟩, .lineTo ⟨131072, 0⟩, .lineTo ⟨131072, 65536⟩, .lineTo ⟨0, 65536⟩]

/-- A cache in which the rectangle was recorded has one row of two pixels. -/
theorem complete_of_obtained_rectangle :
    ∃ kept : CoverageCache, kept.Obtained ∧ kept.isValid = true ∧
      kept.rows = [⟨0, 0, [(1, 2)]⟩] ∧ kept.boundingBox = some ⟨0, 0, 2, 1⟩ ∧ kept.Complete := by
  have made : Surface.new? .gray8 3 1 (.packed 3) #[0, 0, 0] =
    .ok ⟨.gray8, 3, 1, .packed 3, #[0, 0, 0]⟩ := rfl
  have reached : (Scanner.new ⟨.gray8, 3, 1, .packed 3, #[0, 0, 0]⟩).performAll [.setGrid 0 0] =
    .ok pairScanner := rfl
  have ready : pairScanner.Ready :=
    (Scanner.ready_new ⟨.gray8, 3, 1, .packed 3, #[0, 0, 0]⟩).setGrid 0 0
  have recorderReady : (pairScanner.setCache (some .empty)).Ready :=
    ⟨ready.lgX_le, ready.lgY_le, ready.clip⟩
  have idle : (pairScanner.setCache (some .empty)).Idle := ⟨rfl, rfl, rfl⟩
  have unfinished : .finish ∉ pairSides := by decide
  obtain ⟨received, sent, clip, visible, drawn, finished, kept, keeps, valid, rows, box⟩ :
      ∃ received, (pairScanner.setCache (some .empty)).send pairSides = .ok received ∧
        received.clip = ⟨0, 0, 3, 1⟩ ∧
        (∀ x ∈ [0, 1, 2], received.closeSubpath.samplesAt x 0 ≤ 255) ∧
        ∃ drawn, received.finish = .ok drawn ∧ ∃ kept, drawn.cache = some kept ∧
          kept.isValid = true ∧ kept.rows = [⟨0, 0, [(1, 2)]⟩] ∧
          kept.boundingBox = some ⟨0, 0, 2, 1⟩ :=
    ⟨_, rfl, rfl, by decide +kernel, _, rfl, _, rfl, by rfl, by decide +kernel, by decide +kernel⟩
  have counts : ∀ x y, received.closeSubpath.samplesAt x y ≤ 255 := by
    intro x y
    rcases Nat.eq_zero_or_pos (received.closeSubpath.samplesAt x y) with none | positive
    · omega
    · have follows := idle.follows.send unfinished sent
      have inClip := ((recorderReady.send sent).hull_closeSubpath follows).2 x y positive
      rw [clip, PixelBox.contains_iff] at inClip
      simp only at inClip
      obtain rfl : y = 0 := by omega
      apply visible
      simp only [List.mem_cons, List.not_mem_nil, or_false]
      omega
  have renders : (pairScanner.setCache (some .empty)).Renders drawn :=
    @Scanner.Renders.command _ _ _ .finish (.send unfinished sent) (fun _ => counts) finished
  have obtained : kept.Obtained := .detached .new made reached renders keeps
  exact ⟨kept, obtained, valid, rows, box, (complete_of_obtained obtained).1⟩

end CoverageCache

end Raster
