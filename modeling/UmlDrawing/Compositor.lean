import UmlDrawing.Element.Layout
import UmlDrawing.Renderer.Registry

/-! The composition of a diagram. Every element is drawn to a surface of its own, with its corner at
the origin, and then placed, so that clips and transparency never reach other elements. The size of
the diagram only grows from pass to pass. -/
namespace UmlDrawing

/-- A finished diagram: its size, its elements in drawing order, and what was drawn. -/
structure Drawing (A : Type) where
  size : Vec Int
  elements : List Element
  artwork : A
  deriving Inhabited

/-- What a pass leaves behind, whether it came to an end or not. -/
structure Pass (A : Type) where
  result : Except Fault (Drawing A)
  size : Vec Int
  metrics : Metrics
  notes : List Note

namespace Pass

def map {A B : Type} (f : A → B) (p : Pass A) : Pass B :=
  { p with result := p.result.map fun d => { d with artwork := f d.artwork } }

end Pass

/-- What decides how elements are drawn. -/
structure Compositor where
  registry : Registry (Renderer Scalar)
  config : Config Scalar
  outlines : Bool := false

namespace Compositor

def builtin (config : Config Scalar) : Compositor :=
  { registry := BuiltinRenderer.registry.map BuiltinRenderer.draw, config := config }

/-- The offset of the lines of an element, which puts them on pixels. -/
def strokeOffset : Vec Scalar := ⟨.real 0.5, .real 0.5⟩

def outlineColor : Color := { r := 255, g := 0, b := 0 }

/-- The least far corner that no element exceeds. -/
def extent (es : List Element) : Vec Int :=
  es.foldl (fun c e => ⟨max c.x e.bounds.extent.x, max c.y e.bounds.extent.y⟩) ⟨0, 0⟩

/-- The size that has room for some elements as well, and one more for their lines. -/
def grow (size : Vec Int) (es : List Element) : Vec Int :=
  ⟨max size.x ((extent es).x + 1), max size.y ((extent es).y + 1)⟩

def surfaceSize (b : Bounds) : Vec Scalar := ⟨.whole (b.w + 1), .whole (b.h + 1)⟩

section Drawing

variable {Content Shared Saved : Type} [Medium Content Shared Saved]

/-- Draws an element to the surface with a number. A failure is reported and what was drawn before
it stays; the state of the surface is as before in any case. -/
def sketchElement (c : Compositor) (renderer : Renderer Scalar) (number : Nat) (e : Element) :
    Action (Studio Content Shared Saved) Unit :=
  tryCatch (Studio.saved number ((renderer e.localized c.config).play number)) fun fault =>
    Studio.report [.drawingFailed e.kind e.bounds.x e.bounds.y fault]

def outline (number : Nat) (b : Bounds) : Action (Studio Content Shared Saved) Unit := do
  Studio.perform number 0 .beginPath
  Studio.perform number 0 (.rect (.whole 0) (.whole 0) (.whole b.w) (.whole b.h))
  Studio.perform number 0 (.stroke outlineColor [])

/-- Draws an element to a new surface and places it. -/
def renderElement (c : Compositor) (e : Element) : Action (Studio Content Shared Saved) Unit := do
  let number := (← get).surfaces.length
  let size := surfaceSize e.bounds
  Studio.perform 0 0 (.create size.x size.y)
  Studio.perform number 0 (.translate strokeOffset)
  let (renderer, notes) := c.registry.find e.kind
  Studio.report notes
  let renderer ← Action.ofExcept renderer
  sketchElement c renderer number e
  if c.outlines then outline number e.bounds
  Studio.perform 0 0 (.place number (e.bounds.pos.map Scalar.whole))

def renderElements (c : Compositor) : List Element → Action (Studio Content Shared Saved) Unit
  | [] => pure ()
  | e :: es => do
    renderElement c e
    renderElements c es

def canvasOf (s : Studio Content Shared Saved) : Except Fault (Canvas Content Shared) := do
  let target ← orFault .noSuchSurface s.surfaces[0]?
  pure (s.shared, target.content)

def drawElements (c : Compositor) (size : Vec Int) (metrics : Metrics) (es : List Element)
    (notes : List Note) : Pass (Canvas Content Shared) :=
  match Studio.start (size.map Scalar.whole) metrics with
  | .error fault => ⟨.error fault, size, metrics, notes⟩
  | .ok studio =>
    match renderElements c es studio with
    | .error fault s => ⟨.error fault, size, s.metrics, notes ++ s.notes⟩
    | .ok _ s =>
      ⟨do
        let canvas ← canvasOf s
        pure ⟨size, es, canvas⟩, size, s.metrics,
        notes ++ s.notes ++ [.rendered es.length size.x size.y]⟩

/-- One pass over some records, after passes that left the given size and metrics. -/
def render (c : Compositor) (size : Vec Int) (metrics : Metrics) (records : List ElementRecord) :
    Pass (Canvas Content Shared) :=
  match Layout.ofRecords records with
  | (.error fault, notes) => ⟨.error fault, size, metrics, notes⟩
  | (.ok es, notes) => drawElements c (grow size es) metrics es notes

end Drawing

end Compositor

end UmlDrawing
