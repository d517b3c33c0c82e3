import UmlDrawing.Geometry.Vec

/-! Ellipses as polygons. -/
namespace UmlDrawing.Ellipse

open Arithmetic

variable {α : Type} [Arithmetic α]

/-- The corners of an ellipse that is drawn as a polygon. -/
def corners : Nat := 64

def corner (center radii : Vec α) (count i : Nat) : Except Fault (Vec α) := do
  let circle ← mul (ofInt 2) pi
  let turns ← mul circle (ofInt i)
  let theta ← div turns (ofInt count)
  let c ← cos theta
  let dx ← mul radii.x c
  let x ← add center.x dx
  let s ← sin theta
  let dy ← mul radii.y s
  let y ← add center.y dy
  pure ⟨x, y⟩

def polygon (center radii : Vec α) (count : Nat) : Except Fault (List (Vec α)) :=
  (List.range count).mapM (corner center radii count)

@[simp] theorem polygon_zero (center radii : Vec α) : polygon center radii 0 = .ok [] := rfl

end UmlDrawing.Ellipse
