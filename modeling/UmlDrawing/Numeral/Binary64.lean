import UmlDrawing.Numeral.Power

/-! Doubles as exact numbers. A finite double is a mantissa times a power of two; every rational
number has a nearest double, and of two that are equally near the one with the even mantissa. -/
namespace UmlDrawing

namespace Binary64

open Numeral (twoTo)

inductive Value where
  | nan
  | infinite (negative : Bool)
  /-- the number `mantissa * 2 ^ exponent`, with its sign -/
  | finite (negative : Bool) (mantissa : Nat) (exponent : Int)
  deriving DecidableEq, Repr

def valueOfBits (bits : Nat) : Value :=
  let negative := bits / twoTo 63 % 2 == 1
  let field : Nat := bits / twoTo 52 % twoTo 11
  let fraction : Nat := bits % twoTo 52
  if field = 2047 then
    if fraction = 0 then .infinite negative else .nan
  else if field = 0 then .finite negative fraction (-1074)
  else .finite negative (twoTo 52 + fraction) ((field : Int) - 1075)

def value (x : Float) : Value := valueOfBits x.toBits.toNat

/-- Numerator and denominator of `mantissa * 2 ^ exponent`. -/
def ratio (mantissa : Nat) (exponent : Int) : Nat × Nat :=
  match exponent with
  | .ofNat e => (mantissa * twoTo e, 1)
  | .negSucc e => (mantissa, twoTo (e + 1))

/-- The quotient rounded to the nearest natural number, a tie to the even one. -/
def roundDiv (num den : Nat) : Nat :=
  let q := num / den
  let r := num % den
  if 2 * r < den ∨ (2 * r = den ∧ q % 2 = 0) then q else q + 1

/-- The bits of the double nearest to a positive ratio: the mantissa is the ratio on the grid
`2 ^ scale`, chosen so that it has 53 binary digits unless the number is too small for that. -/
def bitsOfRatio (num den : Nat) : Nat :=
  let estimate : Int := (num.log2 : Int) - den.log2
  let quotient (scale : Int) : Nat × Nat :=
    match scale with
    | .ofNat s => (num, den * twoTo s)
    | .negSucc s => (num * twoTo (s + 1), den)
  let floorLog : Int :=
    let (n, d) := quotient estimate
    if d ≤ n then estimate else estimate - 1
  let scale := max (floorLog - 52) (-1074)
  let (n, d) := quotient scale
  let bits := (scale + 1074).toNat * twoTo 52 + roundDiv n d
  min bits (2047 * twoTo 52)

/-- The double nearest to a ratio with a positive denominator; infinite if all are too small. -/
def ofRatio (negative : Bool) (num den : Nat) : Float :=
  let bits := if num = 0 then 0 else bitsOfRatio num den
  Float.ofBits (UInt64.ofNat (bits + if negative then twoTo 63 else 0))

/-- The double nearest to an integer; none if the integer lies beyond all of them. -/
def ofInt? (n : Int) : Option Float :=
  let x := ofRatio (decide (n < 0)) n.natAbs 1
  if x.isFinite then some x else none

/-- One digit of the square root: the root so far grows by `2 ^ k` if its square stays below. -/
def floorSqrtAux (n : Nat) : Nat → Nat → Nat
  | 0, root => root
  | k + 1, root =>
    let next := root + twoTo k
    floorSqrtAux n k (if next * next ≤ n then next else root)

/-- The largest natural number whose square is not above the given one. -/
def floorSqrt (n : Nat) : Nat := floorSqrtAux n (n.log2 / 2 + 1) 0

/-- The double nearest to the square root of `n * 4 ^ k`. The root is taken with binary digits to
spare, and a last one tells whether anything was cut off. -/
def sqrtOf (n : Nat) (k : Int) : Float :=
  let spare : Nat := 64
  let wide := n * twoTo (2 * spare)
  let root := floorSqrt wide
  let sticky := 2 * root + (if root * root = wide then 0 else 1)
  let (num, den) := ratio sticky (k - spare - 1)
  ofRatio false num den

/-- The length of the hypotenuse, correctly rounded; an infinite leg wins over one that is not a
number. -/
def hypotenuse (x y : Float) : Float :=
  match value x, value y with
  | .infinite _, _ => Float.ofBits 0x7FF0000000000000
  | _, .infinite _ => Float.ofBits 0x7FF0000000000000
  | .nan, _ => Float.ofBits 0x7FF8000000000000
  | _, .nan => Float.ofBits 0x7FF8000000000000
  | .finite _ m e, .finite _ n f =>
    let low := min e f
    let a := m * twoTo (e - low).toNat
    let b := n * twoTo (f - low).toNat
    sqrtOf (a * a + b * b) low

example : valueOfBits 0x3FF8000000000000 = .finite false (3 * twoTo 51) (-52) := by decide

example : bitsOfRatio 1 10 = 0x3FB999999999999A := by decide

end Binary64

end UmlDrawing
