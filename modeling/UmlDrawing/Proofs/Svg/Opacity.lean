import UmlDrawing.Font.Block
import UmlDrawing.Proofs.Fault
import UmlDrawing.Proofs.Numeral.Exact
import UmlDrawing.Proofs.Surface.Studio
import UmlDrawing.Proofs.Svg.Written
import UmlDrawing.Raster.Picture
import UmlDrawing.Svg.Printer

/-! The opacity of what is drawn, in vector graphics and on images. Areas and lines have one opacity
on both, written in an attribute here and rounded to a level there. Texts are written without the
attribute, so that they are full whatever their colour. -/
open UmlDrawing.Action

namespace UmlDrawing

open Binary64

namespace Scalar

end Scalar

/-- A piece of a drawing that leaves something to be seen: an area, lines, or a text. -/
inductive Mark where
  | area (path : List (Subpath Scalar)) (color : Color) (alpha : Scalar)
  | line (path : List (Subpath Scalar)) (color : Color) (dash : List Scalar)
  | text (font : Except Fault Font) (content : Text) (position : Except Fault (Vec Scalar))
    (style : FontStyle Scalar) (color : Color)

namespace Mark

variable {Content Shared Saved : Type} [Medium Content Shared Saved]

/-- Draws a mark on a surface of any kind. -/
def draw : Mark → Action (Canvas Content Shared) Unit
  | area path color alpha => Medium.fill path color alpha
  | line path color dash => Medium.stroke path color dash
  | text font content position style color =>
    (Medium.text content style color).draw position font

def color : Mark → Color
  | area _ color _ => color
  | line _ color _ => color
  | text _ _ _ _ color => color

/-- The opacity that a mark is drawn with: that of its colour, for an area times one of its own. -/
def opacity : Mark → Except Fault Scalar
  | area _ color alpha => Scalar.mul color.a alpha
  | line _ color _ => .ok color.a
  | text _ _ _ _ color => .ok color.a

end Mark

namespace Svg

/-- The attributes that make a node less than full. -/
def opacityNames : List Text :=
  ["opacity".toList, "fill-opacity".toList, "stroke-opacity".toList]

/-- The opacities that a node is written with. -/
def opacities : Xml.Node → List Text
  | .element _ attributes _ => (attributes.filter (·.1 ∈ opacityNames)).map (·.2)
  | _ => []

/-- A node has a written opacity; without an attribute it is full. -/
def Shows (node : Xml.Node) (t : Text) : Prop :=
  opacities node = [t] ∨ opacities node = [] ∧ t = ['1']

instance (node : Xml.Node) (t : Text) : Decidable (Shows node t) :=
  inferInstanceAs (Decidable (opacities node = [t] ∨ opacities node = [] ∧ t = ['1']))

namespace Sheet

variable {d d' : Document} {s s' : Sheet} {path : List (Subpath Scalar)} {color : Color}

end Sheet

variable {path : List (Subpath Scalar)} {attributes : List Xml.Attribute} {node : Xml.Node}

end Svg

namespace Raster

namespace Picture

variable {o : Scalar} {p p' : Picture} {u : Unit} {overlay : Overlay}

end Picture

end Raster

namespace Mark

variable {m : Mark} {d d' : Svg.Document} {s s' : Svg.Sheet}

/-- An empty image. -/
def blank : Raster.Picture := { image := .replicate 4 3 .transparent }

end Mark

end UmlDrawing
