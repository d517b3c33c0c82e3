import UmlDrawing.Color.Basic
import UmlDrawing.Raster.Size

/-! Pixels with eight bits for every colour and for the opacity, and how one is laid over another.
All arithmetic is on integers; a division by 255 is done with shifts. -/
namespace UmlDrawing.Raster

abbrev Level := UInt8

structure Pixel where
  r : Level
  g : Level
  b : Level
  a : Level
  deriving DecidableEq, Repr, Inhabited

/-- A number divided by 255, nearly. -/
def over255 (n : Nat) : Nat := (n / 256 + n) / 256

/-- The product of two levels as parts of the full level. -/
def scaleLevel (a b : Level) : Level := (over255 (a.toNat * b.toNat + 128)).toUInt8

/-- An integer as a level, the nearest end of the range if it lies outside. -/
def clampLevel (n : Int) : Level := if n < 0 then 0 else if 255 < n then 255 else n.toNat.toUInt8

namespace Pixel

def transparent : Pixel := ⟨0, 0, 0, 0⟩

/-- Whether components are small enough to be clamped: red is taken with 64 bits, the others with
those of a coordinate. -/
def isInk (r g b a : Int) : Bool :=
  isLong r && isCoordinate g && isCoordinate b && isCoordinate a

/-- The pixel that a colour is painted with. -/
def ofColor (c : Color) : Except Fault Pixel := do
  let (r, g, b, a) ← c.rgba
  if isInk r g b a then pure ⟨clampLevel r, clampLevel g, clampLevel b, clampLevel a⟩
  else .error .pixelOverflow

def masked (p : Pixel) (level : Level) : Pixel := { p with a := scaleLevel p.a level }

/-- A pixel laid over another one. -/
def onto (top bottom : Pixel) : Pixel :=
  if top.a = 0 then bottom
  else
    let blend := bottom.a.toNat * (255 - top.a.toNat)
    let opacity := top.a.toNat * 255 + blend
    let c := top.a.toNat * 255 * 255 * 128 / opacity
    let d := 255 * 128 - c
    let mix := fun (s t : Level) =>
      (over255 (s.toNat * c + t.toNat * d + 16384) / 128).toUInt8
    ⟨mix top.r bottom.r, mix top.g bottom.g, mix top.b bottom.b,
      (over255 (opacity + 128)).toUInt8⟩

end Pixel

@[simp] theorem scaleLevel_zero (a : Level) : scaleLevel a 0 = 0 := by
  simp [scaleLevel, over255]

theorem over255_scaled {n : Nat} (h : n < 256) : over255 (n * 255 + 128) = n := by
  unfold over255
  omega

@[simp] theorem scaleLevel_full (a : Level) : scaleLevel a 255 = a := by
  simp [scaleLevel, over255_scaled a.toNat_lt]

/-- A pixel that is masked out leaves what it is laid over. -/
@[simp] theorem Pixel.onto_masked_zero (top bottom : Pixel) :
    (top.masked 0).onto bottom = bottom := by
  simp [Pixel.masked, Pixel.onto]

end UmlDrawing.Raster
