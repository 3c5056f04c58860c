import Raster.Affine
import Raster.Canvas.Basic
import Raster.Canvas.Call
import Raster.Canvas.Chain
import Raster.Canvas.Config
import Raster.Canvas.Drawing
import Raster.Color
import Raster.Coverage.Cache
import Raster.Coverage.Row
import Raster.Error
import Raster.Fixed
import Raster.Paint.Basic
import Raster.Paint.Cycle
import Raster.Paint.Linear
import Raster.Paint.Radial
import Raster.Paint.Ramp
import Raster.Paint.Space
import Raster.Paint.Texture
import Raster.Path.Command
import Raster.Path.Dasher
import Raster.Path.Data
import Raster.Path.Flattener
import Raster.Path.Offset
import Raster.Path.Outline
import Raster.Path.Pen
import Raster.Path.Shape
import Raster.Path.Store
import Raster.Path.Stroker
import Raster.Pixel.Alpha
import Raster.Pixel.Format
import Raster.PixelBox
import Raster.Plane
import Raster.Proofs.Addressing
import Raster.Proofs.Affine.Collapsing
import Raster.Proofs.Affine.Saturating
import Raster.Proofs.Canvas.Agreeing
import Raster.Proofs.Canvas.Changing
import Raster.Proofs.Canvas.Closing
import Raster.Proofs.Canvas.Forgetting
import Raster.Proofs.Canvas.Freshness
import Raster.Proofs.Canvas.Interpreting
import Raster.Proofs.Canvas.Offsetting
import Raster.Proofs.Canvas.Reaching
import Raster.Proofs.Canvas.Refilling
import Raster.Proofs.Canvas.Remembering
import Raster.Proofs.Canvas.Rendering
import Raster.Proofs.Canvas.Resting
import Raster.Proofs.Canvas.Sending
import Raster.Proofs.Canvas.Straying
import Raster.Proofs.Canvas.Whole
import Raster.Proofs.Coverage.Clipping
import Raster.Proofs.Coverage.Confining
import Raster.Proofs.Coverage.Encoding
import Raster.Proofs.Coverage.Filing
import Raster.Proofs.Coverage.Layering
import Raster.Proofs.Coverage.Recording
import Raster.Proofs.Coverage.Tinting
import Raster.Proofs.Coverage.Touching
import Raster.Proofs.Double
import Raster.Proofs.Fault
import Raster.Proofs.Hull
import Raster.Proofs.Paint.Averaging
import Raster.Proofs.Paint.Blending
import Raster.Proofs.Paint.Bordering
import Raster.Proofs.Paint.Ending
import Raster.Proofs.Paint.Filling
import Raster.Proofs.Paint.Folding
import Raster.Proofs.Paint.Grading
import Raster.Proofs.Paint.Interpolating
import Raster.Proofs.Paint.Placing
import Raster.Proofs.Paint.Ramping
import Raster.Proofs.Paint.Sampling
import Raster.Proofs.Paint.Settling
import Raster.Proofs.Paint.Tiling
import Raster.Proofs.Path.Attracting
import Raster.Proofs.Path.Clearing
import Raster.Proofs.Path.Deviating
import Raster.Proofs.Path.Dwelling
import Raster.Proofs.Path.Fitting
import Raster.Proofs.Path.Following
import Raster.Proofs.Path.Halving
import Raster.Proofs.Path.Interpreting
import Raster.Proofs.Path.Marking
import Raster.Proofs.Path.Outlining
import Raster.Proofs.Path.Refining
import Raster.Proofs.Path.Restarting
import Raster.Proofs.Path.Reversing
import Raster.Proofs.Path.Shrinking
import Raster.Proofs.Path.Storing
import Raster.Proofs.Path.Straying
import Raster.Proofs.Pixel.Mixing
import Raster.Proofs.Pixel.Repainting
import Raster.Proofs.Pixel.Weighing
import Raster.Proofs.Scan.ActiveList
import Raster.Proofs.Scan.Balancing
import Raster.Proofs.Scan.Bounding
import Raster.Proofs.Scan.Caching
import Raster.Proofs.Scan.Closing
import Raster.Proofs.Scan.Compositing
import Raster.Proofs.Scan.Confining
import Raster.Proofs.Scan.Conversion
import Raster.Proofs.Scan.Counting
import Raster.Proofs.Scan.Degeneracy
import Raster.Proofs.Scan.Discarding
import Raster.Proofs.Scan.Finishing
import Raster.Proofs.Scan.Flooding
import Raster.Proofs.Scan.Layering
import Raster.Proofs.Scan.Looping
import Raster.Proofs.Scan.Order
import Raster.Proofs.Scan.Overlap
import Raster.Proofs.Scan.Probing
import Raster.Proofs.Scan.Ranging
import Raster.Proofs.Scan.Rectangle
import Raster.Proofs.Scan.Relocating
import Raster.Proofs.Scan.Repainting
import Raster.Proofs.Scan.Replaying
import Raster.Proofs.Scan.Retracing
import Raster.Proofs.Scan.Reusing
import Raster.Proofs.Scan.Shifting
import Raster.Proofs.Scan.Sides
import Raster.Proofs.Scan.Spans
import Raster.Proofs.Scan.Stepping
import Raster.Proofs.Scan.Tracing
import Raster.Proofs.Scan.Winding
import Raster.Proofs.Word
import Raster.Scalar
import Raster.Scan.Call
import Raster.Scan.Edge
import Raster.Scan.Loop
import Raster.Scan.RectFill
import Raster.Scan.RectProbe
import Raster.Scan.Scanner
import Raster.Scan.Sweep
import Raster.Stage
import Raster.Surface
import Raster.Text.Blank
import Raster.Text.Integer
import Raster.Word
