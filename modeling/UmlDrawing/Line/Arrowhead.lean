import UmlDrawing.Line.Style
import UmlDrawing.Geometry.Vec

/-! The outlines of arrowheads. An outline is laid out along the second axis with its tip at the
origin, turned towards the rest of the line and moved to the end of the line. -/
namespace UmlDrawing

structure ArrowHead (α : Type) where
  kind : ArrowKind
  points : List (Vec α)
  closed : Bool
  fill : HeadFill
  deriving DecidableEq, Repr, Inhabited

namespace ArrowHead

open Arithmetic

variable {α : Type} [Arithmetic α]

/-- Length along the line at zoom one. -/
def baseLength : Int := 10

/-- Half the width at zoom one. -/
def baseWidth : Int := 5

/-- The corners of an arrowhead of the given length and half width, before it is turned. -/
def template (kind : ArrowKind) (length width : α) : Except Fault (List (Vec α)) :=
  let left : Vec α := ⟨Arithmetic.neg width, length⟩
  let right : Vec α := ⟨width, length⟩
  match kind with
  | .opened => pure [left, Vec.origin, right]
  | .hollowTriangle | .filledTriangle => pure [Vec.origin, left, right]
  | .none | .hollowDiamond | .filledDiamond => do
    let tail ← mul length (ofInt 2)
    pure [Vec.origin, left, ⟨ofInt 0, tail⟩, right]

/-- A corner of the template, turned and moved to the tip. -/
def place (tip : Vec α) (theta : α) (corner : Vec α) : Except Fault (Vec α) := do
  let turned ← corner.rotate theta
  tip.add turned

def turn (tip toward : Vec α) : Except Fault α := do
  let along ← toward.sub tip
  let angle ← along.angle
  let quarter ← half pi
  Arithmetic.sub angle quarter

/-- The arrowhead of a token at the tip of a line that comes from the direction of `toward`; none
if the token stands for none. -/
def build (token : Text) (tip toward : Vec α) (zoom : α) : Except Fault (Option (ArrowHead α)) :=
  let kind := ArrowKind.ofToken token
  if kind = .none then pure none
  else do
    let theta ← turn tip toward
    let length ← mul (ofInt baseLength) zoom
    let width ← mul (ofInt baseWidth) zoom
    let corners ← template kind length width
    let points ← corners.mapM (place tip theta)
    pure (some ⟨kind, points, decide (kind ≠ .opened), kind.fill⟩)

@[simp] theorem build_nil (tip toward : Vec α) (zoom : α) :
    build [] tip toward zoom = .ok none := rfl

end ArrowHead

end UmlDrawing
