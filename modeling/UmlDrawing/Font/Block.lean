import UmlDrawing.Font.Face

/-! Fonts that are good enough to try the program with. A text is set as one solid block, as wide as
its characters are together; the proportions follow from the traits that a file name mentions. -/
namespace UmlDrawing

structure BlockFont where
  name : Text
  size : Scalar

namespace BlockFont

def isBold (f : BlockFont) : Bool := Text.contains f.name "Bold".toList

def isItalic (f : BlockFont) : Bool :=
  Text.contains f.name "Italic".toList || Text.contains f.name "Oblique".toList

def isMono (f : BlockFont) : Bool := Text.contains f.name "Mono".toList

def isSerif (f : BlockFont) : Bool := Text.contains f.name "Serif".toList

/-- The width of a character in thousandths of the size. -/
def advance (f : BlockFont) (c : Char) : Nat :=
  (if f.isMono then 600 else 300 + 25 * (c.toNat % 17) + 10 * f.isSerif.toNat)
    + 60 * f.isBold.toNat + 20 * f.isItalic.toNat

def length (f : BlockFont) (t : Text) : Except Fault Scalar := do
  let units := t.foldl (fun n c => n + f.advance c) 0
  let product ← Scalar.mul f.size (.whole units)
  Scalar.div product (.whole 1000)

/-- The height of a block in hundredths of the size. -/
def capHeight (f : BlockFont) : Int :=
  70 + 2 * f.isBold.toNat + f.isSerif.toNat + 3 * f.isMono.toNat

def rows (f : BlockFont) : Except Fault Int := do
  let product ← Scalar.mul f.size (.whole f.capHeight)
  let height ← Scalar.div product (.whole 100)
  height.floor

def columns (f : BlockFont) (t : Text) : Except Fault Int := do
  let length ← f.length t
  length.ceil

def drop (f : BlockFont) : Except Fault Int := do
  let fifth ← Scalar.div f.size (.whole 5)
  fifth.floor

def inkRows (f : BlockFont) (t : Text) : Except Fault (Option (Int × Int)) := do
  let columns ← f.columns t
  let rows ← f.rows
  if columns ≤ 0 ∨ rows ≤ 0 then pure none
  else
    let drop ← f.drop
    pure (some (drop, drop + rows - 1))

/-- The pixels of a block. It can only be set where a real number leads. -/
def stencil (f : BlockFont) (t : Text) (position : Vec Scalar) : Except Fault Raster.Stencil := do
  let x ← position.x.truncate
  let y ← position.y.truncate
  let _ ← position.mapM Scalar.toFloat
  let drop ← f.drop
  let columns ← f.columns t
  let rows ← f.rows
  pure (Raster.Stencil.box x (y + drop) columns rows)

def face (f : BlockFont) : Face where
  length := f.length
  inkRows t _ _ := f.inkRows t
  stencil := f.stencil
  name := f.name
  size := f.size

def load (name : Text) (size : Scalar) : Except Fault Face :=
  if Scalar.le size (.whole 0) then .error .fontSize else .ok (face ⟨name, size⟩)

end BlockFont

/-- Block fonts under the names of some files. -/
def FontLibrary.blocks (installed : List Text) : FontLibrary where
  truetype name size := do
    let face ← BlockFont.load name size
    pure (if installed.contains name then some face else none)
  builtin := BlockFont.load "default".toList

instance : Coe (List Text) FontLibrary := ⟨FontLibrary.blocks⟩

end UmlDrawing
