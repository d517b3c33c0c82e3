import UmlDrawing.Scalar.Basic

/-! Colours with an opacity. Components outside their range can be held, but not written. -/
namespace UmlDrawing

/-- Red, green and blue from 0 to 255, and an opacity from 0 to 1. -/
structure Color where
  r : Int
  g : Int
  b : Int
  a : Scalar := .real 1.0
  deriving Inhabited

namespace Color

def black : Color := { r := 0, g := 0, b := 0 }

def white : Color := { r := 255, g := 255, b := 255 }

def isByte (n : Int) : Bool := decide (0 ≤ n) && decide (n ≤ 255)

def inRange (c : Color) : Bool :=
  isByte c.r && isByte c.g && isByte c.b && Scalar.le (.real 0.0) c.a && Scalar.le c.a (.real 1.0)

def hexByte (n : Int) : Text := Text.hexUpper 2 n.toNat

/-- The components of a colour in range, the opacity only if it is not full. -/
def hexDigits (c : Color) : Except Fault Text :=
  if c.inRange then do
    let rgb := hexByte c.r ++ hexByte c.g ++ hexByte c.b
    if Scalar.le (.real 1.0) c.a then pure rgb
    else
      let scaled ← Scalar.mul c.a (.whole 255)
      let alpha ← scaled.truncate
      pure (rgb ++ hexByte alpha)
  else .error .componentRange

def text (c : Color) : Except Fault Text := do
  let digits ← c.hexDigits
  pure ('#' :: digits)

def full (c : Color) : Color := { c with a := .real 1.0 }

def fullText (c : Color) : Except Fault Text := c.full.text

def withAlpha (c : Color) (alpha : Scalar) : Except Fault Color := do
  let a ← Scalar.mul c.a alpha
  pure { c with a := a }

/-- The components with the opacity as a number from 0 to 255. -/
def rgba (c : Color) : Except Fault (Int × Int × Int × Int) := do
  let scaled ← Scalar.mul c.a (.whole 255)
  let alpha ← scaled.round
  pure (c.r, c.g, c.b, alpha)

end Color

end UmlDrawing
