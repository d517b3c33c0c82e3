import UmlDrawing.Path.Pen
import UmlDrawing.Scalar.Basic

/-! Numbers and paths as vector graphics write them. -/
namespace UmlDrawing.Svg

/-- A number, rounded to thousandths and written with six leading digits. -/
def number (a : Scalar) : Except Fault Text := do
  let x ← a.thousandths.toFloat
  pure (Decimal.general x)

def point (p : Vec Scalar) : Except Fault Text := do
  let x ← number p.x
  let y ← number p.y
  pure (x ++ ',' :: y)

/-- Whether a written number, or a text made of written numbers, has none in it that is infinite or
undefined: only the words for those have the letter. -/
def isMeasure (written : Text) : Bool := !written.elem 'n'

/-- The text, refused if a number in it is infinite or undefined. -/
def measured (written : Text) : Except Fault Text :=
  if isMeasure written then .ok written else .error (.attributeValue written)

/-- The steps of an ellipse: two half turns between its leftmost and its rightmost point. -/
def ellipseSteps (center radii : Vec Scalar) : Except Fault (List Text) := do
  let radiiText ← point radii
  let arc := "A ".toList ++ radiiText ++ " 0 1,0 ".toList
  let left ← Scalar.sub center.x radii.x
  let leftmost ← point ⟨left, center.y⟩
  let right ← Scalar.add center.x radii.x
  let rightmost ← point ⟨right, center.y⟩
  pure ["M ".toList ++ leftmost, arc ++ rightmost, arc ++ leftmost, ['Z']]

def polylineSteps (points : List (Vec Scalar)) (closed : Bool) : Except Fault (List Text) :=
  match points with
  | [] => pure []
  | first :: rest => do
    let start ← point first
    let ends ← rest.mapM point
    pure (("M ".toList ++ start) :: ends.map ("L ".toList ++ ·)
      ++ if closed then [['Z']] else [])

def subpathSteps (s : Subpath Scalar) : Except Fault (List Text) :=
  match s.ellipse with
  | some (center, radii) => ellipseSteps center radii
  | none => polylineSteps s.points s.closed

/-- The piece of a path, refused if it is an ellipse with a radius that is written with a sign. Arcs
have none. -/
def unsigned (s : Subpath Scalar) : Except Fault Unit :=
  match s.ellipse with
  | none => pure ()
  | some (_, radii) => do
    let x ← number radii.x
    let y ← number radii.y
    if x.head? = some '-' then .error (.attributeValue x)
    else if y.head? = some '-' then .error (.attributeValue y)
    else pure ()

/-- A path as it is written; a path without points is written as nothing. -/
def pathData (path : List (Subpath Scalar)) : Except Fault Text := do
  let steps ← path.mapM subpathSteps
  pure (Text.join [' '] steps.flatten)

@[simp] theorem pathData_nil : pathData [] = .ok [] := rfl

example : (pathData [{ points := [⟨.real 0.5, .whole 1⟩, ⟨.whole 4, .whole 1⟩] }]).toOption =
    some "M 0.5,1 L 4,1".toList := by decide +kernel

end UmlDrawing.Svg
