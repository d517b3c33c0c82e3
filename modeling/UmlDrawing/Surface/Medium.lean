import UmlDrawing.Font.Library
import UmlDrawing.Surface.Command

/-! The kinds of drawing surfaces. A kind says what a surface holds, what all surfaces of one
drawing have in common, and what every drawing operation does to both. Paths, offsets and the stack
of states are the same for all kinds and are not its business. -/
namespace UmlDrawing

/-- What a surface of some kind holds, together with what the surfaces of a drawing share. -/
abbrev Canvas (Content Shared : Type) := Shared × Content

/-- How a text gets on a surface. Its position may be impossible. -/
inductive Lettering (Content Shared : Type) where
  | written (draw : (position : Except Fault (Vec Scalar)) → Action (Canvas Content Shared) Unit)
  | set (draw : (font : Font) → (position : Vec Scalar) → Action (Canvas Content Shared) Unit)

class Medium (Content : Type) (Shared Saved : outParam Type) where
  /-- the surface that a drawing starts from -/
  root (size : Vec Scalar) : Except Fault (Canvas Content Shared)
  /-- an empty surface beside those that are there -/
  create (size : Vec Scalar) (shared : Shared) : Except Fault (Canvas Content Shared)
  /-- what is kept of a surface when its state is pushed -/
  save (content : Content) : Saved
  restore (saved : Saved) (content : Content) : Content
  fill (path : List (Subpath Scalar)) (color : Color) (alpha : Scalar) :
    Action (Canvas Content Shared) Unit
  stroke (path : List (Subpath Scalar)) (color : Color) (dash : List Scalar) :
    Action (Canvas Content Shared) Unit
  clip (path : List (Subpath Scalar)) : Action (Canvas Content Shared) Unit
  text (text : Text) (font : FontStyle Scalar) (color : Color) : Lettering Content Shared
  /-- composites what another surface of the given size holds -/
  place (size : Vec Scalar) (content : Content) (position : Vec Scalar) :
    Action (Canvas Content Shared) Unit

end UmlDrawing
