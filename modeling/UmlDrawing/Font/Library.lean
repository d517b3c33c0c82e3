import UmlDrawing.Font.Style
import UmlDrawing.Raster.Stencil
import UmlDrawing.Scalar.Basic

/-! Fonts as an imaging library gives them. Nothing of the library is known here but the operations
that measuring and drawing rest on. -/
namespace UmlDrawing

structure Font where
  /-- how far a text reaches -/
  length (text : Text) : Except Fault Scalar
  /-- the first and the last row that a text leaves ink in, drawn to the corner of an empty image -/
  inkRows (text : Text) (columns rows : Nat) : Except Fault (Option (Int × Int))
  /-- the pixels of a text with its upper left corner at a position -/
  stencil (text : Text) (position : Vec Scalar) : Except Fault Raster.Stencil

/-- A font, and what it was loaded from. -/
structure Face extends Font where
  name : Text
  size : Scalar

structure FontLibrary where
  /-- the font in a file, if there is such a file -/
  truetype (name : Text) (size : Scalar) : Except Fault (Option Face)
  /-- the font that is always there -/
  builtin (size : Scalar) : Except Fault Face

def Font.width (f : Font) (t : Text) : Except Fault Scalar := do
  let length ← f.length t
  Arithmetic.inexact length

end UmlDrawing
