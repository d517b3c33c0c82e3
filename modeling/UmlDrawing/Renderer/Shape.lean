import UmlDrawing.Color.Resolve
import UmlDrawing.Element.Basic
import UmlDrawing.Line.Relation
import UmlDrawing.Surface.Sketch

/-! The shapes of elements: boxes, ellipses, separators and lines with arrowheads. Boxes and ellipses
are filled with half the opacity of the background colour, and clip what is drawn after them. -/
namespace UmlDrawing.Shape

open Arithmetic (ofInt)

variable {α : Type} [Arithmetic α]

/-- The part of the opacity that the background of a shape keeps. -/
def fillAlpha : Scalar := .real 0.5

def fullAlpha : Scalar := .real 1.0

def colorOf (property : Option Text) (default : Option Color) : Sketch α (Option Color) := do
  let (color, notes) ← Sketch.ofExcept (Color.resolve property default)
  Sketch.report notes
  pure color

def lineColor (e : Element) : Sketch α Color := do
  let color ← colorOf (e.get? "fg".toList) (some Color.black)
  pure (color.getD Color.black)

/-- Fills the path with the background colour, if there is one and the element has an area. -/
def fill (e : Element) : Sketch α Unit := do
  let background ← colorOf (e.get? "bg".toList) none
  match background with
  | none => pure ()
  | some color =>
    if e.bounds.isEmpty then Sketch.report [.fillOmitted e.kind]
    else Sketch.draw (.fill color fillAlpha)

def dashLengths (d : Dash) : List α := d.pattern.map ofInt

def stroke (e : Element) : Sketch α Unit := do
  let dash := (LineStyle.decode (e.get? "lt".toList)).dash
  let color ← lineColor e
  Sketch.draw (.stroke color (dashLengths dash))

/-- Fills and draws a path and clips to it. -/
def finish (e : Element) (outline : Command α) : Sketch α Unit := do
  Sketch.draw .beginPath
  Sketch.draw outline
  fill e
  stroke e
  Sketch.draw .clip

def box (e : Element) : Sketch α Unit :=
  finish e (.rect (ofInt e.bounds.x) (ofInt e.bounds.y) (ofInt e.bounds.w) (ofInt e.bounds.h))

def ellipse (e : Element) : Sketch α Unit :=
  finish e (.ellipse (ofInt e.bounds.x) (ofInt e.bounds.y) (ofInt e.bounds.w) (ofInt e.bounds.h))

def separator (x y w : α) (color : Color) : Sketch α Unit := do
  Sketch.draw .beginPath
  Sketch.draw (.moveTo ⟨x, y⟩)
  let right ← Sketch.ofExcept (Arithmetic.add x w)
  Sketch.draw (.lineTo ⟨right, y⟩)
  Sketch.draw (.stroke color [])

def head (h : ArrowHead α) (color : Color) : Sketch α Unit := do
  Sketch.draw .beginPath
  Sketch.draw (.polyline h.points h.closed)
  match h.fill with
  | .inverse => Sketch.draw (.fill Color.white fullAlpha)
  | .foreground => Sketch.draw (.fill color fullAlpha)
  | .none => pure ()
  Sketch.draw (.stroke color [])

/-- A polyline and its arrowheads; a lone point is not drawn. -/
def lines (g : RelationGeometry α) (color : Color) : Sketch α Unit :=
  if g.points.length < 2 then Sketch.report [.lineOmitted g.points.length]
  else do
    Sketch.draw .beginPath
    Sketch.draw (.polyline g.points false)
    Sketch.draw (.stroke color (dashLengths g.dash))
    g.heads.forM fun h => head h color

end UmlDrawing.Shape
