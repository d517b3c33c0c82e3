import UmlDrawing.Element.Attributes
import UmlDrawing.Geometry.Bounds
import UmlDrawing.Note
import UmlDrawing.Numeral.Integer

/-! Elements of a diagram: records as documents hold them, and the elements built of them. -/
namespace UmlDrawing

/-- A coordinate of a record: an integer, or a text to read one from. -/
inductive Coordinate where
  | number (n : Int)
  | written (text : Text)
  deriving DecidableEq, Repr

namespace Coordinate

instance : Inhabited Coordinate := ⟨number 0⟩

def toInt : Coordinate → Except Fault Int
  | number n => .ok n
  | written text => Numeral.parseLeading text 0

end Coordinate

/-- Position and size of a record, as they were given. -/
structure Coordinates where
  x : Coordinate := .number 0
  y : Coordinate := .number 0
  w : Coordinate := .number 0
  h : Coordinate := .number 0
  deriving DecidableEq, Repr, Inhabited

/-- One element as a document holds it. -/
structure ElementRecord where
  /-- the kind of the element -/
  id : Text := []
  coordinates : Coordinates := {}
  /-- text lines and properties -/
  panel : Text := []
  /-- the point list of a line -/
  additional : Text := []
  /-- the layer, if the document gives it outside the properties -/
  layer : Option Int := none
  deriving DecidableEq, Repr, Inhabited

structure Element where
  kind : Text
  bounds : Bounds
  layer : Int := 0
  lines : List Text := []
  properties : Properties := []
  points : Text := []
  deriving DecidableEq, Repr, Inhabited

namespace Element

/-- The kind of elements that name none. -/
def defaultKind : Text := "Default".toList

def get? (e : Element) (key : Text) : Option Text := e.properties.get? key

/-- The element moved to the origin. -/
def localized (e : Element) : Element := { e with bounds := e.bounds.atOrigin }

/-- The layer of a record with the given properties: the leading integer of the `layer` property
counts first, then the layer of the record. -/
def layerOf (properties : Properties) (r : ElementRecord) : Except Fault Int :=
  match properties.get? "layer".toList with
  | some value => Numeral.parseLeading value (r.layer.getD 0)
  | none => .ok (r.layer.getD 0)

def sizeNotes (id : Text) (w h : Int) : List Note :=
  if w < 0 ∨ h < 0 then [.sizeClamped id w h] else []

/-- The element of a record, or the reason why there is none, and what there is to report. -/
def build (r : ElementRecord) : Except Fault Element × List Note :=
  let attributes := Attributes.parse r.panel
  let corner : Except Fault (Int × Int × Int × Int) := do
    let x ← r.coordinates.x.toInt
    let y ← r.coordinates.y.toInt
    let w ← r.coordinates.w.toInt
    let h ← r.coordinates.h.toInt
    pure (x, y, w, h)
  match corner with
  | .error fault => (.error fault, [])
  | .ok (x, y, w, h) =>
    let element : Except Fault Element := do
      let layer ← layerOf attributes.properties r
      pure
        { kind := if r.id = [] then defaultKind else r.id
          bounds := .clamped x y w h
          layer := layer
          lines := attributes.lines
          properties := attributes.properties
          points := r.additional }
    (element, sizeNotes r.id w h)

@[simp] theorem localized_bounds (e : Element) : e.localized.bounds = e.bounds.atOrigin := rfl

@[simp] theorem localized_lines (e : Element) : e.localized.lines = e.lines := rfl

@[simp] theorem localized_get? (e : Element) (key : Text) :
    e.localized.get? key = e.get? key := rfl

end Element

end UmlDrawing
