import UmlDrawing.Chunk
import UmlDrawing.Numeral.Integer
import UmlDrawing.Geometry.Vec

/-! Point lists: the coordinates of the points one after the other, separated by semicolons. -/
namespace UmlDrawing.PointList

/-- The coordinates of a point list as they are written, without blank ones at the end. -/
def tokens (raw : Text) : List Text :=
  ((Text.splitOn ';' (Text.trim raw)).reverse.dropWhile Text.allBlank).reverse

/-- A coordinate; a missing or malformed one is zero. -/
def coordinate (token : Option Text) : Except Fault Int :=
  match token with
  | none => .ok 0
  | some t => Numeral.parseLeading t 0

def point (pair : List (Option Text)) : Except Fault (Vec Int) := do
  let x ← coordinate (pair.headD none)
  let y ← coordinate (pair.tail.headD none)
  pure ⟨x, y⟩

/-- The points of a point list. A lone coordinate at the end is the first one of its point. -/
def decode (raw : Text) : Except Fault (List (Vec Int)) :=
  (Chunk.ofList 2 true (tokens raw)).mapM point

/-- The point list of some points, with a separator after every coordinate but the last. -/
def encode (points : List (Vec Int)) : Text :=
  Text.join [';'] (points.flatMap fun p => [Text.ofInt p.x, Text.ofInt p.y])

example : decode "1;2; 3x ;".toList = .ok [⟨1, 2⟩, ⟨3, 0⟩] := rfl

end UmlDrawing.PointList
