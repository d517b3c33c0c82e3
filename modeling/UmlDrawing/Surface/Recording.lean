import UmlDrawing.Surface.Medium

/-! Recordings: surfaces that keep a list of what was drawn on them. Coordinates are rounded to
thousandths, so recordings of the same drawing are equal; a surface that is placed is recorded with
all that it holds at that time. -/
namespace UmlDrawing

structure Outline where
  points : List (Vec Scalar)
  closed : Bool
  deriving Inhabited

/-- One recorded drawing operation; colours are kept as they are written. -/
inductive Call where
  | fill (path : List Outline) (color : Text) (alpha : Scalar)
  | stroke (path : List Outline) (color : Text) (dash : List Scalar)
  | clip (path : List Outline)
  | text (text : Text) (position : Vec Scalar) (font : FontStyle Scalar) (color : Text)
  | surface (position size : Vec Scalar) (calls : List Call)
  deriving Inhabited

structure Recording where
  calls : List Call
  deriving Inhabited

namespace Outline

/-- A piece of a path, rounded to thousandths. -/
def ofSubpath (s : Subpath Scalar) : Outline :=
  ⟨s.points.map fun p => p.map Scalar.thousandths, s.closed⟩

def ofPath (path : List (Subpath Scalar)) : List Outline := path.map ofSubpath

@[simp] theorem ofPath_nil : ofPath [] = [] := rfl

end Outline

namespace Call

def name : Call → Text
  | fill .. => "fill".toList
  | stroke .. => "stroke".toList
  | clip _ => "clip".toList
  | text .. => "text".toList
  | surface .. => "surface".toList

end Call

namespace Recording

def record (call : Call) : Action (Canvas Recording Unit) Unit :=
  modify fun (shared, r) => (shared, ⟨r.calls ++ [call]⟩)

instance : Medium Recording Unit Unit where
  root _ := .ok ((), ⟨[]⟩)
  create _ _ := .ok ((), ⟨[]⟩)
  save _ := ()
  restore _ r := r
  fill path color alpha := do
    let written ← Action.ofExcept color.text
    record (.fill (Outline.ofPath path) written alpha)
  stroke path color dash := do
    let written ← Action.ofExcept color.text
    record (.stroke (Outline.ofPath path) written dash)
  clip path := record (.clip (Outline.ofPath path))
  text text font color := .written fun position => do
    let position ← Action.ofExcept position
    let written ← Action.ofExcept color.text
    record (.text text (position.map Scalar.thousandths) font written)
  place size placed position := record (.surface position size placed.calls)

end Recording

end UmlDrawing
