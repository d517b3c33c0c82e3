import UmlDrawing.Renderer.TextLine

/-! The drawing of the known kinds of elements. Elements are drawn with their corner at the origin. -/
namespace UmlDrawing

abbrev Renderer (α : Type) := Element → Config α → Sketch α Unit

namespace Renderer

open Arithmetic

variable {α : Type} [Arithmetic α]

/-- Where the text of an element has got to, and whether this is still its heading. -/
structure Progress (α : Type) where
  y : α
  heading : Bool
  deriving DecidableEq, Repr, Inhabited

/-- Draws one line of a text that separators divide into compartments. A separator stands in the
middle of its half line, and the heading ends with the first one. -/
def compartmentLine (e : Element) (config : Config α) (color : Color) (halfLine : α)
    (state : Progress α) (line : Text) : Sketch α (Progress α) := do
  let x : α := ofInt e.bounds.x
  let w : α := ofInt e.bounds.w
  if TextLine.isSeparator line then do
    let y ← Sketch.ofExcept (add state.y halfLine)
    Shape.separator x y w color
    pure ⟨y, false⟩
  else do
    let height ← TextLine.draw line config x state.y w color { center := state.heading }
    let y ← Sketch.ofExcept (add state.y height)
    pure ⟨y, state.heading⟩

/-- Draws the text of an element from the top down; the heading may be centered. -/
def compartments (e : Element) (config : Config α) (centerHeading : Bool) : Sketch α Unit := do
  let color ← Shape.lineColor e
  let lineHeight ← TextLine.defaultHeight config
  let halfLine ← Sketch.ofExcept (half lineHeight)
  let start : Progress α := ⟨ofInt e.bounds.y, centerHeading⟩
  let _ ← e.lines.foldlM (compartmentLine e config color halfLine) start
  pure ()

def plain : Renderer α := fun e config => do
  Shape.box e
  compartments e config false

/-- A box with a centered heading, which goes up to the first separator. -/
def classifier : Renderer α := fun e config => do
  Shape.box e
  compartments e config true

def useCaseLine (e : Element) (config : Config α) (color : Color) (lineHeight y : α)
    (line : Text) : Sketch α α := do
  let x : α := ofInt e.bounds.x
  let w : α := ofInt e.bounds.w
  if TextLine.isSeparator line then do
    let halfLine ← Sketch.ofExcept (half lineHeight)
    let y ← Sketch.ofExcept (add y halfLine)
    Shape.separator x y w color
    pure y
  else do
    let height ← TextLine.draw line config x y w color { center := true, vcenter := true }
    Sketch.ofExcept (add y height)

/-- Where the text of a use case starts, so that lines of equal height are in the middle. -/
def useCaseTop (e : Element) (lineHeight : α) : Except Fault α := do
  let halfHeight ← half (ofInt e.bounds.h)
  let middle ← add (ofInt e.bounds.y) halfHeight
  let total ← mul (ofInt e.lines.length) lineHeight
  let halfTotal ← half total
  sub middle halfTotal

def useCase : Renderer α := fun e config => do
  Shape.ellipse e
  let color ← Shape.lineColor e
  let lineHeight ← TextLine.defaultHeight config
  let top ← Sketch.ofExcept (useCaseTop e lineHeight)
  let _ ← e.lines.foldlM (useCaseLine e config color lineHeight) top
  pure ()

/-- Draws one line of the text of a relation. All its lines are of equal height. -/
def relationLine (e : Element) (config : Config α) (color : Color) (lineHeight x y : α)
    (line : Text) : Sketch α α := do
  let _ ← TextLine.draw line config x y (ofInt e.bounds.w) color
  Sketch.ofExcept (add y lineHeight)

def relationGeometry (e : Element) (config : Config α) : Sketch α (RelationGeometry α) := do
  let spec ← Sketch.ofExcept (LineSpec.decode (e.get? "lt".toList) e.points)
  Sketch.report (RelationGeometry.notes spec config.zoom)
  Sketch.ofExcept (RelationGeometry.build spec config.zoom)

def relation : Renderer α := fun e config => do
  let geometry ← relationGeometry e config
  let color ← Shape.lineColor e
  Shape.lines geometry color
  let lineHeight ← TextLine.defaultHeight config
  let anchor ← Sketch.ofExcept (RelationGeometry.labelAnchor geometry.points lineHeight)
  match anchor with
  | none => if e.lines.isEmpty then pure () else Sketch.report [.labelOmitted]
  | some start => do
    let _ ← e.lines.foldlM (relationLine e config color lineHeight start.x) start.y
    pure ()

end Renderer

end UmlDrawing
