import Raster.Path.Command
import Raster.Stage

/-!
# Recorded paths

A path store records commands in a compact form: a list of tags and a stream of
coordinate words.  A line or a quadratic curve whose points lie near the current
point takes one word per point, which packs two signed 16-bit differences; other
points take two words.  `commands` reads the recorded path back.
-/

namespace Raster

namespace PathStore

/-- The kind of a recorded command and the form of its points. -/
inductive Tag where
  | moveTo
  | lineJoin
  | lineTo
  | shortLineTo
  | quadTo
  | shortQuadTo
  | cubicTo
  | close
  | finish
deriving Repr, DecidableEq, Inhabited

/-- The number that stands for a tag in the encoded form. -/
def Tag.code : Tag → Nat
  | moveTo => 0
  | lineJoin => 1
  | lineTo => 2
  | shortLineTo => 3
  | quadTo => 4
  | shortQuadTo => 5
  | cubicTo => 6
  | close => 7
  | finish => 8

end PathStore

/-- Commands in their recorded form, with the current point and the start of the
current subpath. -/
structure PathStore where
  tags : Array PathStore.Tag
  words : Array Int
  current : Point
  start : Point
deriving Repr, DecidableEq

namespace PathStore

/-- The store without commands. -/
def empty : PathStore := ⟨#[], #[], .origin, .origin⟩

/-- Whether a difference of coordinates is a signed 16-bit integer. -/
def isShort (difference : Int) : Bool :=
  -32768 ≤ difference && difference ≤ 32767

/-- Two signed 16-bit integers in one signed 32-bit word, `dx` above `dy`. -/
def packDelta (dx dy : Int) : Int :=
  dx * 65536 + dy % 65536

/-- The word for `point` relative to `current`, if both differences are short.  The
differences are taken in 32 bits; one that wraps around may look short, and is refused. -/
def delta? (current point : Point) : Option Int :=
  let dx := point.x - current.x
  let dy := point.y - current.y
  if isShort (Word.wrap32 dx) && isShort (Word.wrap32 dy) && Word.Fits32 dx && Word.Fits32 dy then
    some (packDelta (Word.wrap32 dx) (Word.wrap32 dy))
  else none

/-- The point that a packed difference leads to. -/
def offset (current : Point) (word : Int) : Point :=
  ⟨current.x + word / 65536, current.y + ((word + 32768) % 65536 - 32768)⟩

/-- Only differences that are short without wraparound are packed. -/
theorem exists_of_delta? {current point : Point} {word : Int}
    (packed : delta? current point = some word) :
    ∃ dx dy, point.x = current.x + dx ∧ point.y = current.y + dy ∧
      (-32768 ≤ dx ∧ dx ≤ 32767) ∧ (-32768 ≤ dy ∧ dy ≤ 32767) ∧ word = packDelta dx dy := by
  unfold delta? isShort at packed
  simp only at packed
  split at packed
  · rename_i short
    simp only [Bool.and_eq_true, decide_eq_true_eq] at short
    obtain ⟨⟨⟨shortX, shortY⟩, fitsX⟩, fitsY⟩ := short
    rw [Word.wrap32_eq_self fitsX] at shortX packed
    rw [Word.wrap32_eq_self fitsY] at shortY packed
    exact ⟨_, _, by omega, by omega, shortX, shortY, (Option.some.inj packed).symm⟩
  · cases packed

/-- A packed difference leads back to the point that it was taken from. -/
theorem offset_of_delta? {current point : Point} {word : Int}
    (packed : delta? current point = some word) : offset current word = point := by
  obtain ⟨dx, dy, x, y, shortX, shortY, rfl⟩ := exists_of_delta? packed
  unfold packDelta
  ext
  · simp only [offset]
    omega
  · simp only [offset]
    omega

/-! ## Recording -/

/-- The coordinates of points, in order. -/
def coordinates (points : List Point) : List Int :=
  points.flatMap fun point => [point.x, point.y]

/-- Appends a command whose points are stored as `words`. -/
def push (store : PathStore) (tag : Tag) (words : List Int) (current start : Point) :
    PathStore :=
  { tags := store.tags.push tag
    words := store.words ++ words
    current := current
    start := start }

/-- Appends a command. -/
def record (store : PathStore) : PathCommand → PathStore
  | .moveTo point => store.push .moveTo (coordinates [point]) point point
  | .lineJoin => store.push .lineJoin [] store.current store.start
  | .lineTo point =>
      match delta? store.current point with
      | some word => store.push .shortLineTo [word] point store.start
      | none => store.push .lineTo (coordinates [point]) point store.start
  | .close => store.push .close [] store.start store.start
  | .finish => store.push .finish [] .origin store.start
  | .quadTo control point =>
      match delta? store.current control, delta? store.current point with
      | some word₁, some word₂ =>
          store.push .shortQuadTo [word₁, word₂] point store.start
      | _, _ => store.push .quadTo (coordinates [control, point]) point store.start
  | .cubicTo control₁ control₂ point =>
      store.push .cubicTo (coordinates [control₁, control₂, point]) point store.start

/-- Appends a list of commands. -/
def recordAll (store : PathStore) (commands : List PathCommand) : PathStore :=
  commands.foldl record store

/-- The store with all commands removed. -/
def clear (_ : PathStore) : PathStore := empty

/-- The number of recorded commands. -/
def size (store : PathStore) : Nat :=
  store.tags.size

/-- Whether nothing is recorded. -/
def isEmpty (store : PathStore) : Bool :=
  store.tags.isEmpty

/-- Whether the last recorded command ends the path. -/
def isTerminated (store : PathStore) : Bool :=
  store.tags.back? = some .finish

/-! ## Reading back -/

/-- The next word of the stream and the words after it; an exhausted stream reads
as zeros. -/
def nextWord : List Int → Int × List Int
  | [] => (0, [])
  | word :: rest => (word, rest)

/-- The next point stored as two words. -/
def nextPoint (words : List Int) : Point × List Int :=
  let (x, words) := nextWord words
  let (y, words) := nextWord words
  (⟨x, y⟩, words)

/-- The next point stored as a difference from `current`. -/
def nextOffset (current : Point) (words : List Int) : Point × List Int :=
  let (word, words) := nextWord words
  (offset current word, words)

/-- What a reader of the encoded form knows: the words that are left, the current
point and the start of the subpath. -/
structure Cursor where
  words : List Int
  current : Point
  start : Point
deriving Repr, DecidableEq

/-- The command of a tag, and the reader after it. -/
def Cursor.read (cursor : Cursor) : Tag → Cursor × PathCommand
  | .moveTo =>
      let (point, words) := nextPoint cursor.words
      (⟨words, point, point⟩, .moveTo point)
  | .lineJoin => (cursor, .lineJoin)
  | .lineTo =>
      let (point, words) := nextPoint cursor.words
      (⟨words, point, cursor.start⟩, .lineTo point)
  | .shortLineTo =>
      let (point, words) := nextOffset cursor.current cursor.words
      (⟨words, point, cursor.start⟩, .lineTo point)
  | .quadTo =>
      let (control, words) := nextPoint cursor.words
      let (point, words) := nextPoint words
      (⟨words, point, cursor.start⟩, .quadTo control point)
  | .shortQuadTo =>
      let (control, words) := nextOffset cursor.current cursor.words
      let (point, words) := nextOffset cursor.current words
      (⟨words, point, cursor.start⟩, .quadTo control point)
  | .cubicTo =>
      let (control₁, words) := nextPoint cursor.words
      let (control₂, words) := nextPoint words
      let (point, words) := nextPoint words
      (⟨words, point, cursor.start⟩, .cubicTo control₁ control₂ point)
  | .close => (⟨cursor.words, cursor.start, cursor.start⟩, .close)
  | .finish => (⟨cursor.words, .origin, cursor.start⟩, .finish)

/-- The commands of a list of tags, and the reader after them. -/
def Cursor.readAll (cursor : Cursor) (tags : List Tag) : Cursor × List PathCommand :=
  Stage.run (fun cursor tag =>
    let (next, command) := cursor.read tag
    (next, [command])) cursor tags

/-- The recorded commands. -/
def commands (store : PathStore) : List PathCommand :=
  (Cursor.readAll ⟨store.words.toList, .origin, .origin⟩ store.tags.toList).2

@[simp]
theorem clear_eq_empty (store : PathStore) : store.clear = empty :=
  rfl

@[simp]
theorem size_push (store : PathStore) (tag : Tag) (words : List Int) (current start : Point) :
    (store.push tag words current start).size = store.size + 1 := by
  simp [push, size]

end PathStore

end Raster
