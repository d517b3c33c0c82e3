import UmlDrawing.Geometry.Operand
import UmlDrawing.Line.Relation
import UmlDrawing.Line.Dashes
import UmlDrawing.Color.Resolve
import UmlDrawing.Markup.Node
import UmlDrawing.Element.Layout
import UmlDrawing.Path.Pen
import UmlDrawing.Config
import UmlDrawing.Font.Metrics
import UmlDrawing.Raster.Summary
import UmlDrawing.Main
import UmlDrawing.Proofs.Color.Range
import UmlDrawing.Proofs.Compositor.Complete
import UmlDrawing.Proofs.Compositor.Footprint
import UmlDrawing.Proofs.Compositor.Growth
import UmlDrawing.Proofs.Compositor.Local
import UmlDrawing.Proofs.Compositor.Sharing
import UmlDrawing.Proofs.Document.ZoomLevel
import UmlDrawing.Proofs.Element.Attributes
import UmlDrawing.Proofs.Element.Order
import UmlDrawing.Proofs.Markup.Nesting
import UmlDrawing.Proofs.Markup.Leaves
import UmlDrawing.Proofs.Raster.Clipped
import UmlDrawing.Proofs.Surface.Clips
import UmlDrawing.Proofs.Surface.Saved
import UmlDrawing.Proofs.Svg.Opacity
import UmlDrawing.Proofs.Svg.Run
import UmlDrawing.Proofs.Line.Points
import UmlDrawing.Proofs.Line.Reversal
import UmlDrawing.Proofs.Document.Enclosed
import UmlDrawing.Proofs.Surface.Answered
import UmlDrawing.Proofs.Surface.Recorded
import UmlDrawing.Proofs.Numeral.Sums
import UmlDrawing.Proofs.Renderer.TextPlaces
import UmlDrawing.Proofs.Renderer.BoxTexts
import UmlDrawing.Proofs.Surface.Stamps
import UmlDrawing.Proofs.Surface.Alongside
import UmlDrawing.Proofs.Svg.Copies
import UmlDrawing.Proofs.Svg.Stamps
import UmlDrawing.Proofs.Line.Cycle
import UmlDrawing.Proofs.Path.Trace
import UmlDrawing.Proofs.Svg.Thousandths
import UmlDrawing.Proofs.Path.Looks
import UmlDrawing.Proofs.Renderer.Centered
import UmlDrawing.Proofs.Document.LastChild
import UmlDrawing.Proofs.Color.Hexadecimal
import UmlDrawing.Proofs.Config.HelpText
import UmlDrawing.Proofs.Line.Zoom
import UmlDrawing.Proofs.Document.Encoding
import UmlDrawing.Proofs.Chunk
