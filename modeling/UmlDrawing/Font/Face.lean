import UmlDrawing.Font.Library

/-! The font of a style: the best one of its family that can be loaded. -/
namespace UmlDrawing

/-- The files of one font: upright, bold, italic, and both. -/
structure FontFiles where
  regular : String
  bold : String
  italic : String
  boldItalic : String

namespace FontFiles

def pick (f : FontFiles) (bold italic : Bool) : Text :=
  match bold, italic with
  | false, false => f.regular.toList
  | true, false => f.bold.toList
  | false, true => f.italic.toList
  | true, true => f.boldItalic.toList

/-- The fonts of the serif family, the best first. -/
def serif : List FontFiles :=
  [⟨"DejaVuSerif.ttf", "DejaVuSerif-Bold.ttf", "DejaVuSerif-Italic.ttf",
      "DejaVuSerif-BoldItalic.ttf"⟩,
   ⟨"LiberationSerif-Regular.ttf", "LiberationSerif-Bold.ttf", "LiberationSerif-Italic.ttf",
      "LiberationSerif-BoldItalic.ttf"⟩,
   ⟨"times.ttf", "timesbd.ttf", "timesi.ttf", "timesbi.ttf"⟩]

def sansSerif : List FontFiles :=
  [⟨"DejaVuSans.ttf", "DejaVuSans-Bold.ttf", "DejaVuSans-Oblique.ttf",
      "DejaVuSans-BoldOblique.ttf"⟩,
   ⟨"LiberationSans-Regular.ttf", "LiberationSans-Bold.ttf", "LiberationSans-Italic.ttf",
      "LiberationSans-BoldItalic.ttf"⟩,
   ⟨"arial.ttf", "arialbd.ttf", "ariali.ttf", "arialbi.ttf"⟩]

def monospace : List FontFiles :=
  [⟨"DejaVuSansMono.ttf", "DejaVuSansMono-Bold.ttf", "DejaVuSansMono-Oblique.ttf",
      "DejaVuSansMono-BoldOblique.ttf"⟩,
   ⟨"LiberationMono-Regular.ttf", "LiberationMono-Bold.ttf", "LiberationMono-Italic.ttf",
      "LiberationMono-BoldItalic.ttf"⟩,
   ⟨"cour.ttf", "courbd.ttf", "couri.ttf", "courbi.ttf"⟩]

/-- The fonts of a generic family; none if the family is not generic. -/
def ofFamily (family : Text) : List FontFiles :=
  if family = "serif".toList then serif
  else if family = "sans-serif".toList then sansSerif
  else if family = "monospace".toList then monospace
  else []

/-- The files that are installed where nothing else is said: the best font of every family. -/
def standard : List Text :=
  [serif, sansSerif, monospace].flatMap fun fonts =>
    fonts.head?.toList.flatMap fun f =>
      [f.pick false false, f.pick true false, f.pick false true, f.pick true true]

end FontFiles

namespace FontLibrary

def find? (library : FontLibrary) (size : Scalar) : List Text → Except Fault (Option Face)
  | [] => .ok none
  | name :: names => do
    match ← library.truetype name size with
    | some face => pure (some face)
    | none => library.find? size names

end FontLibrary

namespace Face

/-- The files that suit a style, the best first; the family itself may name a file. -/
def candidates (style : FontStyle Scalar) : List Text :=
  (FontFiles.ofFamily style.family).map (·.pick style.bold style.italic) ++ [style.family]

def load (library : FontLibrary) (style : FontStyle Scalar) : Except Fault Face := do
  match ← library.find? style.size (candidates style) with
  | some face => pure face
  | none => library.builtin style.size

end Face

namespace FontLibrary

def font (library : FontLibrary) (style : FontStyle Scalar) : Except Fault Font :=
  (Face.load library style).map Face.toFont

end FontLibrary

end UmlDrawing
