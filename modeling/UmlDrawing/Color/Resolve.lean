import UmlDrawing.Color.Notation
import UmlDrawing.Note

/-! Colour properties of elements, with a default for those that are missing or unknown. -/
namespace UmlDrawing.Color

/-- A colour, or the word for none, as it stands in a note. -/
def defaultText : Option Color → Except Fault Text
  | none => .ok "None".toList
  | some c => c.text

/-- The colour of a property and what there is to report about it. A missing or blank property and
one that cannot be read give the default; the report of the latter writes the default, which fails
for one out of range. -/
def resolve (property : Option Text) (default : Option Color) :
    Except Fault (Option Color × List Note) :=
  match property with
  | none => .ok (default, [])
  | some value =>
    if Text.allBlank value then .ok (default, [])
    else
      match parse value with
      | .ok color => .ok (some color, [])
      | .error _ => do
        let written ← defaultText default
        pure (default, [.colorIgnored value written])

@[simp] theorem resolve_none (default : Option Color) : resolve none default = .ok (default, []) :=
  rfl

end UmlDrawing.Color
