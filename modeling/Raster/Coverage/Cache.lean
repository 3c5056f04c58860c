import Raster.Coverage.Row

/-!
# Coverage caches

A coverage cache records the coverage of a path, so that the path can be drawn
again without being scanned.  The rows share one stream of bytes, in which every
run takes a byte for its value and a byte for its length; a row begins at its
offset and ends where the next one begins.  A cache is either invalid and empty, or
holds all rows of one path.
-/

namespace Raster

namespace CoverageCache

/-- Where the runs of a recorded row begin. -/
structure Entry where
  y : Int
  x : Int
  offset : Nat
deriving Repr, DecidableEq

end CoverageCache

/-- The recorded coverage of a path. -/
structure CoverageCache where
  isValid : Bool
  box : Option PixelBox
  /-- The coverage of a pixel that is covered completely. -/
  maxCoverage : Nat
  entries : Array CoverageCache.Entry
  bytes : Array Nat
deriving Repr, DecidableEq

namespace CoverageCache

/-- The cache that holds nothing. -/
def empty : CoverageCache := ⟨false, none, 0, #[], #[]⟩

/-- The cache with everything recorded removed. -/
def invalidate (cache : CoverageCache) : CoverageCache :=
  { cache with isValid := false, box := none, entries := #[], bytes := #[] }

/-- The pixels of the recorded path. -/
def boundingBox (cache : CoverageCache) : Option PixelBox :=
  if cache.isValid then cache.box else none

/-! ## Runs -/

/-- The longest run that a length byte can tell. -/
def maxRun : Nat := 255

/-- The runs of some values that follow `count` values equal to `value`. -/
def runsFrom (value count : Nat) : List Nat → List (Nat × Nat)
  | [] => [(value, count)]
  | next :: rest =>
      if next = value ∧ count < maxRun then
        runsFrom value (count + 1) rest
      else
        (value, count) :: runsFrom next 1 rest

/-- Values as runs of equal ones, none longer than `maxRun`. -/
def runs : List Nat → List (Nat × Nat)
  | [] => []
  | value :: rest => runsFrom value 1 rest

/-- Runs as a stream of bytes. -/
def toBytes (runs : List (Nat × Nat)) : List Nat :=
  runs.flatMap fun (value, length) => [value, length]

/-- A stream of bytes as runs; an odd last byte is left out. -/
def ofBytes : List Nat → List (Nat × Nat)
  | value :: length :: rest => (value, length) :: ofBytes rest
  | _ => []

/-! ## Recording -/

/-- The cache in which a path is going to be recorded. -/
def start (cache : CoverageCache) (maxCoverage : Nat) : CoverageCache :=
  { cache.invalidate with maxCoverage := maxCoverage }

/-- The cache with one more row. -/
def push (cache : CoverageCache) (row : CoverageRow) : CoverageCache :=
  { cache with
    entries := cache.entries.push ⟨row.y, row.x, cache.bytes.size⟩
    bytes := cache.bytes ++ toBytes (runs row.values) }

/-- The cache with its path complete. -/
def finish (cache : CoverageCache) (box : Option PixelBox) : CoverageCache :=
  { cache with box := box, isValid := true }

/-- The cache in which a path with the given rows and pixels has been recorded. -/
def record (cache : CoverageCache) (maxCoverage : Nat) (rows : List CoverageRow)
    (box : Option PixelBox) : CoverageCache :=
  (rows.foldl push (cache.start maxCoverage)).finish box

/-! ## Reading -/

/-- The offsets at which the rows end. -/
def stops (cache : CoverageCache) : List Nat :=
  (cache.entries.toList.drop 1).map (·.offset) ++ [cache.bytes.size]

/-- The recorded rows. -/
def rows (cache : CoverageCache) : List RunRow :=
  (cache.entries.toList.zip cache.stops).map fun (entry, stop) =>
    ⟨entry.x, entry.y, ofBytes (cache.bytes.extract entry.offset stop).toList⟩

@[simp]
theorem ofBytes_toBytes (runs : List (Nat × Nat)) : ofBytes (toBytes runs) = runs := by
  induction runs with
  | nil => rfl
  | cons run rest inductionHypothesis =>
      obtain ⟨value, length⟩ := run
      change (value, length) :: ofBytes (toBytes rest) = _
      rw [inductionHypothesis]

/-- Expanding the runs of some values gives the values back. -/
theorem expand_runsFrom (value count : Nat) (values : List Nat) :
    RunRow.expand (runsFrom value count values) = List.replicate count value ++ values := by
  induction values generalizing value count with
  | nil => simp [runsFrom, RunRow.expand]
  | cons next rest inductionHypothesis =>
      unfold runsFrom
      split
      · rename_i same
        rw [inductionHypothesis, List.replicate_succ', same.1]
        simp
      · rw [RunRow.expand_cons, inductionHypothesis]
        simp

@[simp]
theorem expand_runs (values : List Nat) : RunRow.expand (runs values) = values := by
  cases values with
  | nil => rfl
  | cons value rest => simp [runs, expand_runsFrom]

end CoverageCache

end Raster
