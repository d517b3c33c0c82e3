import UmlDrawing.Fault

/-! The sizes that images can have. -/
namespace UmlDrawing.Raster

def maxCoordinate : Int := 2147483647

def maxColumns : Int := 536870910

def maxPixels : Int := 268435456

def isCoordinate (n : Int) : Bool := decide (-maxCoordinate - 1 ≤ n) && decide (n ≤ maxCoordinate)

def isLong (n : Int) : Bool :=
  decide (-9223372036854775808 ≤ n) && decide (n ≤ 9223372036854775807)

/-- A number of columns and rows, refused if there can be no such image. -/
def imageSize (columns rows : Int) : Except Fault (Nat × Nat) :=
  if !isCoordinate columns || !isCoordinate rows then .error .pixelOverflow
  else if maxColumns < columns ∨ maxPixels < columns * rows then .error .imageTooLarge
  else .ok (columns.toNat, rows.toNat)

end UmlDrawing.Raster
