import UmlDrawing.Element.Attributes
import UmlDrawing.Font.Style
import UmlDrawing.Note
import UmlDrawing.Numeral.Integer
import UmlDrawing.Scalar.Basic

/-! Settings of a whole diagram: the font and the zoom. -/
namespace UmlDrawing

/-- Font and zoom of a diagram; the font size is the one at zoom one. -/
structure Config (α : Type) where
  fontFamily : Text
  fontSize : α
  zoom : α
  deriving DecidableEq, Repr, Inhabited

namespace Config

def standard : Config Scalar := ⟨"serif".toList, .whole 14, .real 1.0⟩

/-- The standard settings at a zoom level, where ten is the natural size. -/
def ofZoomLevel (level : Scalar) : Except Fault (Config Scalar) := do
  let zoom ← Scalar.div level (.whole 10)
  pure { standard with zoom := zoom }

section Fonts

variable {α : Type} [Arithmetic α]

def effectiveSize (c : Config α) : Except Fault α := Arithmetic.mul c.fontSize c.zoom

def font (c : Config α) (style : TextStyle) : Except Fault (FontStyle α) := do
  let size ← c.effectiveSize
  pure ⟨c.fontFamily, size, style.bold, style.italic⟩

def defaultFont (c : Config α) : Except Fault (FontStyle α) := c.font {}

end Fonts

/-- The beginnings of the family names that help texts use, with the generic families. -/
def familyPrefixes : List (Text × Text) :=
  [("SansSerif".toList, "sans-serif".toList), ("Monospaced".toList, "monospace".toList)]

def genericFamily? (value : Text) : Option Text :=
  (familyPrefixes.find? fun entry => Text.startsWith (Text.trim value) entry.1).map (·.2)

/-- The settings with those of a help text in place of the former ones, and what there is to
report. A family that is not known and a size that is not positive change nothing. -/
def withHelpText (c : Config Scalar) (help : Text) : Except Fault (Config Scalar × List Note) := do
  let props := Attributes.parseHelp help
  let family := ((props.get? "fontfamily".toList).bind genericFamily?).getD c.fontFamily
  match props.get? "fontsize".toList with
  | none => pure ({ c with fontFamily := family }, [])
  | some value =>
    let size ← Numeral.parseLeading value (-1)
    if 0 < size then pure ({ c with fontFamily := family, fontSize := .whole size }, [])
    else pure ({ c with fontFamily := family }, [.fontSizeIgnored value])

end Config

end UmlDrawing
