import UmlDrawing.Geometry.Vec
import UmlDrawing.Markup.Style

/-! Fonts as they are asked for: a family, a size in pixels, and a weight and slant. -/
namespace UmlDrawing

/-- Everything that decides the size of a text. -/
structure FontStyle (α : Type) where
  family : Text
  size : α
  bold : Bool := false
  italic : Bool := false
  deriving DecidableEq, Repr, Inhabited

namespace FontStyle

variable {α : Type}

def weightName (f : FontStyle α) : Text := if f.bold then "bold".toList else "normal".toList

def slantName (f : FontStyle α) : Text := if f.italic then "italic".toList else "normal".toList

end FontStyle

end UmlDrawing
