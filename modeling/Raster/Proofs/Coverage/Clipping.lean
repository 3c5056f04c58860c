import Raster.Proofs.Coverage.Confining
import Raster.Proofs.Word

/-!
# Clipped rows

A row may begin and end off the surface.  An explicit row is clipped once, and its values and its
colors are cut out of the middle.  A row of runs is clipped run by run, and each visible piece cuts
its own colors out of those of the row, found by the distance from where the row begins.  Both ways
are followed here in machine words.  They touch the same pixels in the same order, but for touches
without opacity, so that runs draw what the values draw that they stand for.
-/

namespace Raster

namespace RowTarget

end RowTarget

namespace RowSource

end RowSource

/-! ## Explicit rows in machine words -/

namespace RowTarget

end RowTarget

section

variable {target : RowTarget} (widthLe : target.width ≤ Surface.maxSize)

include widthLe

end

/-! ## Runs in machine words -/

namespace RunRow

section

variable {target : RowTarget} {row : RunRow}

end

end RunRow

/-! ## Both ways -/

end Raster
