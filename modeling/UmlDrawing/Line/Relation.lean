import UmlDrawing.Line.Arrowhead
import UmlDrawing.Line.Points

/-! Relations: polylines with a style and an arrowhead at either end. -/
namespace UmlDrawing

structure LineSpec where
  style : LineStyle
  points : List (Vec Int)
  deriving DecidableEq, Repr, Inhabited

namespace LineSpec

def decode (property : Option Text) (raw : Text) : Except Fault LineSpec := do
  let points ← PointList.decode raw
  pure ⟨LineStyle.decode property, points⟩

/-- The relation seen from its other end. -/
def reverse (s : LineSpec) : LineSpec :=
  ⟨{ s.style with left := s.style.right.reverse, right := s.style.left.reverse },
    s.points.reverse⟩

end LineSpec

/-- All that is drawn of a relation besides its text. -/
structure RelationGeometry (α : Type) where
  points : List (Vec α)
  dash : Dash
  heads : List (ArrowHead α)
  deriving DecidableEq, Repr, Inhabited

namespace RelationGeometry

open Arithmetic

variable {α : Type} [Arithmetic α]

def scalePoints (points : List (Vec Int)) (zoom : α) : Except Fault (List (Vec α)) :=
  points.mapM fun p => (p.map ofInt).scale zoom

/-- The arrowhead at the beginning of the points, if they show a direction. -/
def headAt (token : Text) (points : List (Vec α)) (zoom : α) :
    Except Fault (Option (ArrowHead α)) :=
  match points with
  | tip :: toward :: _ => ArrowHead.build token tip toward zoom
  | _ => pure none

/-- The geometry of a relation at the given zoom. Arrowheads need the direction of the first or
last segment, so fewer than two points are drawn without them. -/
def build (spec : LineSpec) (zoom : α) : Except Fault (RelationGeometry α) := do
  let points ← scalePoints spec.points zoom
  let left ← headAt spec.style.left points zoom
  let right ← headAt spec.style.right points.reverse zoom
  pure ⟨points, spec.style.dash, left.toList ++ right.toList⟩

/-- What there is to report about a relation. The tokens are looked at in turn, the second only if
the first arrowhead could be made. -/
def notes (spec : LineSpec) (zoom : α) : List Note :=
  match scalePoints spec.points zoom with
  | .error _ => []
  | .ok points =>
    if points.length < 2 then
      if spec.style.left = [] ∧ spec.style.right = [] then []
      else [.headsOmitted points.length]
    else
      ArrowKind.notes spec.style.left ++
        match headAt spec.style.left points zoom with
        | .error _ => []
        | .ok _ => ArrowKind.notes spec.style.right

/-- Where the text of a relation starts: between the two points around the middle of the list,
half a line up. -/
def labelAnchor (points : List (Vec α)) (lineHeight : α) : Except Fault (Option (Vec α)) :=
  match points with
  | [] => pure none
  | first :: rest => do
    let anchor ←
      if rest = [] then pure first
      else
        let center := points.length / 2 - 1
        let a := points.getD center first
        let b := points.getD (center + 1) first
        a.midpoint b
    let up ← half lineHeight
    let start ← anchor.sub ⟨ofInt 0, up⟩
    pure (some start)

end RelationGeometry

end UmlDrawing
