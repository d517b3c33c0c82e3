import UmlDrawing.Numeral.Binary64
import UmlDrawing.Text.Basic

/-! Doubles in decimal: with a set number of places, with a set number of leading digits, and with
the fewest digits that read back. All digits come from exact integer arithmetic; a tie goes to the
even neighbour. -/
namespace UmlDrawing

namespace Decimal

open Binary64

open Numeral (twoTo tenTo)

/-- The text of `n / 10 ^ places`. -/
def point (places n : Nat) : Text :=
  if places = 0 then Text.ofNat n
  else
    let fraction := Nat.toDigits 10 (n % tenTo places)
    Text.ofNat (n / tenTo places) ++ ['.'] ++ List.replicate (places - fraction.length) '0'
      ++ fraction

def withSign (negative : Bool) (t : Text) : Text := if negative then '-' :: t else t

def special : Value → Text
  | .nan => "nan".toList
  | .infinite negative => withSign negative "inf".toList
  | .finite .. => []

def fixed (places : Nat) (x : Float) : Text :=
  match value x with
  | .finite negative m e =>
    let (num, den) := ratio m e
    withSign negative (point places (roundDiv (num * tenTo places) den))
  | v => special v

def roundPlaces (places : Nat) (x : Float) : Float :=
  match value x with
  | .finite negative m e =>
    let (num, den) := ratio m e
    ofRatio negative (roundDiv (num * tenTo places) den) (tenTo places)
  | _ => x

/-- How often a ratio below one has to be multiplied by ten to reach one. -/
def shortfall (den : Nat) : Nat → Nat → Nat
  | 0, _ => 0
  | fuel + 1, num => if den ≤ num then 0 else shortfall den fuel (num * 10) + 1

/-- The power of ten of the first digit of a positive ratio. -/
def leadingExponent (num den : Nat) : Int :=
  if den ≤ num then ((Nat.toDigits 10 (num / den)).length : Int) - 1
  else -(shortfall den 400 num : Int)

/-- The ratio on the grid `10 ^ exponent`, as a ratio. -/
def onGrid (num den : Nat) (exponent : Int) : Nat × Nat :=
  match exponent with
  | .ofNat k => (num, den * tenTo k)
  | .negSucc k => (num * tenTo (k + 1), den)

def dropTrailingZeros (t : Text) : Text := (t.reverse.dropWhile (· = '0')).reverse

/-- A text with a decimal point, without zeros at its end and without a point that ends it. -/
def dropFractionZeros (t : Text) : Text :=
  if '.' ∈ t then
    let kept := dropTrailingZeros t
    if kept.getLast? = some '.' then kept.dropLast else kept
  else t

/-- The mark of a power of ten: sign and at least two digits. -/
def powerMark (k : Int) : Text :=
  let digits := Nat.toDigits 10 k.natAbs
  'e' :: (if k < 0 then '-' else '+') :: List.replicate (2 - digits.length) '0' ++ digits

/-- Digits with the point after the first one, and the power of ten of the first one. -/
def scientific (digits : Text) (k : Int) : Text :=
  match digits with
  | [] => []
  | [d] => d :: powerMark k
  | d :: r => d :: '.' :: r ++ powerMark k

/-- A positive ratio with six leading digits, trailing zeros left out. Powers of ten below -4 or
above 5 are written with a mark. -/
def sixDigits (num den : Nat) : Text :=
  let k := leadingExponent num den
  let (n, d) := onGrid num den (k - 5)
  let rounded := roundDiv n d
  let (digits, k) := if rounded = tenTo 6 then (tenTo 5, k + 1) else (rounded, k)
  if -4 ≤ k ∧ k < 6 then dropFractionZeros (point (5 - k).toNat digits)
  else scientific (dropTrailingZeros (Text.ofNat digits)) k

def general (x : Float) : Text :=
  match value x with
  | .finite negative m e =>
    if m = 0 then withSign negative ['0']
    else
      let (num, den) := ratio m e
      withSign negative (sixDigits num den)
  | v => special v

def decimalRatio (n : Nat) (exponent : Int) : Nat × Nat :=
  match exponent with
  | .ofNat k => (n * tenTo k, 1)
  | .negSucc k => (n, tenTo (k + 1))

/-- Whether `n * 10 ^ exponent` is nearest to the double with the given bits. -/
def readsBack (bits n : Nat) (exponent : Int) : Bool :=
  let (num, den) := decimalRatio n exponent
  n ≠ 0 && bitsOfRatio num den == bits

/-- The neighbour of the ratio on the grid of `count` digits that reads back, the nearer one of
two. -/
def ofCount? (bits num den : Nat) (k : Int) (count : Nat) : Option (Nat × Int) :=
  let exponent := k - count + 1
  let (n, d) := onGrid num den exponent
  let low := n / d
  let near := roundDiv n d
  let far := if near = low then low + 1 else low
  if readsBack bits near exponent then some (near, exponent)
  else if readsBack bits far exponent then some (far, exponent)
  else none

/-- The fewest digits that read back as the positive double with the given bits, and the power of
ten of the last of them. -/
def shortest (bits m : Nat) (e : Int) : Nat × Int :=
  let (num, den) := ratio m e
  let k := leadingExponent num den
  match (List.range 17).findSome? fun i => ofCount? bits num den k (i + 1) with
  | some r => r
  | none => (roundDiv (onGrid num den (k - 16)).1 (onGrid num den (k - 16)).2, k - 16)

/-- Digits with the decimal point after `whole` of them, filled with zeros where there are none. -/
def positional (digits : Text) (whole : Int) : Text :=
  if whole ≤ 0 then "0.".toList ++ List.replicate (-whole).toNat '0' ++ digits
  else
    let n := whole.toNat
    if digits.length ≤ n then digits ++ List.replicate (n - digits.length) '0' ++ ".0".toList
    else digits.take n ++ ['.'] ++ digits.drop n

/-- The double with the fewest digits that read back: positional from `1e-4` up to `1e16`, with a
power of ten beyond. -/
def roundTrip (x : Float) : Text :=
  match value x with
  | .finite negative m e =>
    if m = 0 then withSign negative "0.0".toList
    else
      let (n, exponent) := shortest (x.toBits.toNat % twoTo 63) m e
      let all := Text.ofNat n
      let whole := exponent + all.length
      let digits := dropTrailingZeros all
      withSign negative
        (if -4 < whole ∧ whole ≤ 16 then positional digits whole
         else scientific digits (whole - 1))
  | v => special v

example : fixed 6 (-2.5) = "-2.500000".toList := by decide +kernel

example : general 1234567.0 = "1.23457e+06".toList := by rfl

example : roundTrip 0.1 = "0.1".toList := by rfl

end Decimal

end UmlDrawing
