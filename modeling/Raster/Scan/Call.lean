import Raster.Scan.Scanner

/-!
# Calls to a scanner

All that can be done to a scanner on its surface, as data.  A scanner is reachable if calls
lead to it from a new one.
-/

namespace Raster.Scanner

/-- An operation on a scanner with its arguments. -/
inductive Call where
  | setGrid (lgX lgY : Nat)
  | setRule (rule : WindingRule)
  | setClip (clip : Option PixelBox)
  | setPaint (paint : Paint)
  | setCache (cache : Option CoverageCache)
  | send (commands : List LineCommand)
  | clearRect (x y width height : Int) (color : Color)
  | replay (cache : CoverageCache)

/-- Performs a call. -/
def perform (scanner : Scanner) : Call → Except Fault Scanner
  | .setGrid lgX lgY => .ok (scanner.setGrid lgX lgY)
  | .setRule rule => .ok (scanner.setRule rule)
  | .setClip clip => .ok (scanner.setClip clip)
  | .setPaint paint => .ok (scanner.setPaint paint)
  | .setCache cache => .ok (scanner.setCache cache)
  | .send commands => scanner.send commands
  | .clearRect x y width height color => .ok (scanner.clearRect x y width height color)
  | .replay cache => scanner.replay cache

/-- Performs calls in order. -/
def performAll (scanner : Scanner) (calls : List Call) : Except Fault Scanner :=
  calls.foldlM perform scanner

/-- Whether a call keeps the clip box and the grid, which the edges of a path depend on. -/
def Call.keepsFrame : Call → Bool
  | setGrid _ _ => false
  | setClip _ => false
  | _ => true

end Raster.Scanner
