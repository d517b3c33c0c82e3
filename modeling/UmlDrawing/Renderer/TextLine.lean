import UmlDrawing.Config
import UmlDrawing.Markup.Node
import UmlDrawing.Renderer.Shape

/-! Lines of text. A line of one or two dashes is a separator; any other line is drawn run by run
from left to right. -/
namespace UmlDrawing.TextLine

open Arithmetic

variable {α : Type} [Arithmetic α]

/-- The space between the border of an element and its text. -/
def padding : Int := 2

/-- Whether a line is a separator; a line break may follow it. -/
def isSeparator (line : Text) : Bool :=
  line == ['-'] || line == ['-', '-'] || line == ['-', '\n'] || line == ['-', '-', '\n']

/-- The line height of text without markup. -/
def defaultHeight (config : Config α) : Sketch α α := do
  let font ← Sketch.ofExcept config.defaultFont
  Sketch.height font

/-- What the drawing of some runs takes up: their width together, and the line height of the last
one. -/
structure Extent (α : Type) where
  width : α
  height : α
  deriving DecidableEq, Repr, Inhabited

/-- The line under a run, one above the end of its line height. -/
def underline (x y width height runWidth : α) (color : Color) : Sketch α Unit := do
  Sketch.draw .beginPath
  let left ← Sketch.ofExcept (add x width)
  let bottom ← Sketch.ofExcept (add y height)
  let level ← Sketch.ofExcept (sub bottom (ofInt 1))
  Sketch.draw (.moveTo ⟨left, level⟩)
  let right ← Sketch.ofExcept (add left runWidth)
  Sketch.draw (.lineTo ⟨right, level⟩)
  Sketch.draw (.stroke color [])

def run (x y : α) (config : Config α) (color : Color) (done : Extent α) (leaf : Markup.Leaf) :
    Sketch α (Extent α) := do
  let font ← Sketch.ofExcept (config.font leaf.style)
  let runWidth ← Sketch.width leaf.literal font
  let height ← Sketch.height font
  if leaf.style.underline then underline x y done.width height runWidth color
  let left ← Sketch.ofExcept (add x done.width)
  Sketch.draw (.text leaf.literal ⟨left, y⟩ font color)
  let width ← Sketch.ofExcept (add done.width runWidth)
  pure ⟨width, height⟩

def runs (leaves : List Markup.Leaf) (x y : α) (config : Config α) (color : Color) :
    Sketch α (Extent α) := do
  let height ← defaultHeight config
  leaves.foldlM (run x y config color) ⟨zero, height⟩

def runWidths (leaves : List Markup.Leaf) (config : Config α) : Sketch α (List α) :=
  leaves.mapM fun leaf => do
    let font ← Sketch.ofExcept (config.font leaf.style)
    Sketch.width leaf.literal font

def centered (leaves : List Markup.Leaf) (config : Config α) (x w : α) : Sketch α α := do
  let widths ← runWidths leaves config
  let total ← Sketch.ofExcept (sum widths)
  let middle ← Sketch.ofExcept (half w)
  let left ← Sketch.ofExcept (half total)
  let indent ← Sketch.ofExcept (sub middle left)
  Sketch.ofExcept (add x indent)

structure Placement where
  /-- in the middle of its width, instead of indented by the padding -/
  center : Bool := false
  /-- at its position, instead of below it by the padding -/
  vcenter : Bool := false
  deriving DecidableEq, Repr, Inhabited

/-- Draws a line of text and gives the height it takes up. A separator takes up half a line. -/
def draw (line : Text) (config : Config α) (x y w : α) (color : Color)
    (placement : Placement := {}) : Sketch α α :=
  if isSeparator line then do
    Shape.separator x y w color
    let height ← defaultHeight config
    Sketch.ofExcept (half height)
  else do
    let leaves := Markup.Node.drawable (Markup.Node.parse line)
    let top ←
      if placement.vcenter then pure y else Sketch.ofExcept (add y (ofInt padding))
    let left ←
      if placement.center then centered leaves config x w
      else Sketch.ofExcept (add x (ofInt padding))
    let extent ← runs leaves left top config color
    pure extent.height

end UmlDrawing.TextLine
