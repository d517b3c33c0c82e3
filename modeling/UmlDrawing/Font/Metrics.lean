import UmlDrawing.Font.Face
import UmlDrawing.Raster.Size

/-! The measuring of texts. A font is loaded once for every style and kept for a while by the whole
program; line heights come from the ink of one letter, which is looked for once for every style and
then remembered. -/
namespace UmlDrawing

/-- The fonts of the whole program. -/
structure FontStock where
  installed : FontLibrary
  /-- the loaded fonts, the one that was used last first -/
  loaded : List (FontStyle Scalar × Font) := []

/-- The fonts as all metrics share them, and the line heights that these metrics know so far. -/
structure Metrics extends FontStock where
  heights : List (FontStyle Scalar × Scalar) := []

namespace Metrics

/-- The letter whose ink decides the line height. -/
def referenceGlyph : Text := ['M']

def lineSpacing : Scalar := .real 1.75

/-- Whether two styles are the same; sizes are compared as numbers. -/
def sameStyle (a b : FontStyle Scalar) : Bool :=
  a.family == b.family && Scalar.same a.size b.size && a.bold == b.bold && a.italic == b.italic

def count (m : Metrics) : Nat := m.heights.length

def known? (m : Metrics) (style : FontStyle Scalar) : Option Scalar :=
  (m.heights.find? fun entry => sameStyle entry.1 style).map (·.2)

def maxLoaded : Nat := 64

/-- The font of a style, and the metrics that keep it. Styles with equal sizes share one font. -/
def font (m : Metrics) (style : FontStyle Scalar) : Except Fault Font × Metrics :=
  match m.loaded.find? fun entry => sameStyle entry.1 style with
  | some found =>
    let others := m.loaded.filter fun entry => !sameStyle entry.1 style
    (.ok found.2, { m with loaded := found :: others })
  | none =>
    match m.installed.font style with
    | .ok f => (.ok f, { m with loaded := ((style, f) :: m.loaded).take maxLoaded })
    | .error fault => (.error fault, m)

def width (m : Metrics) (t : Text) (style : FontStyle Scalar) : Except Fault Scalar × Metrics :=
  if t = [] then (.ok (.real 0.0), m)
  else
    let (font, m) := m.font style
    (font.bind fun f => f.width t, m)

/-- The line height of a font at a size, found from the ink of the reference letter: the rows between
its first and its last one, or the size if it leaves no ink, times the line spacing. The letter is
drawn to a square with room for two of it. -/
def inkHeight (font : Font) (size : Scalar) : Except Fault Scalar := do
  let glyphWidth ← font.width referenceGlyph
  let side ← Scalar.mul (Arithmetic.max glyphWidth size) (.whole 2)
  let side ← side.ceil
  let (columns, rows) ← Raster.imageSize side side
  match ← font.inkRows referenceGlyph columns rows with
  | none => Scalar.mul size lineSpacing
  | some (first, last) => Scalar.mul (.whole (last - first)) lineSpacing

/-- The line height of a style, and the metrics that remember it. -/
def height (m : Metrics) (style : FontStyle Scalar) : Except Fault Scalar × Metrics :=
  match m.known? style with
  | some h => (.ok h, m)
  | none =>
    let (font, m) := m.font style
    match font.bind fun f => inkHeight f style.size with
    | .ok h => (.ok h, { m with heights := m.heights ++ [(style, h)] })
    | .error fault => (.error fault, m)

end Metrics

end UmlDrawing
