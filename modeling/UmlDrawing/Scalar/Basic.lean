import UmlDrawing.Numeral.Decimal
import UmlDrawing.Scalar.Arithmetic

/-! The numbers of drawings: exact integers and doubles side by side. Integers stay exact among
themselves; where an integer meets a double it becomes the nearest double, unless it is too large
for one. -/
namespace UmlDrawing

/-- A whole number of any size, or a double. -/
inductive Scalar where
  | whole (n : Int)
  | real (x : Float)

namespace Scalar

open Binary64 (Value value ratio roundDiv)

instance : Inhabited Scalar := ⟨.whole 0⟩

instance : Coe Int Scalar := ⟨.whole⟩

/-- The double of a number, which fails for an integer beyond all doubles. -/
def toFloat : Scalar → Except Fault Float
  | whole n => orFault .beyondReals (Binary64.ofInt? n)
  | real x => .ok x

/-- The operation on integers if both are whole, else the one on doubles. -/
def lift (onInts : Int → Int → Int) (onFloats : Float → Float → Float) :
    Scalar → Scalar → Except Fault Scalar
  | whole m, whole n => .ok (whole (onInts m n))
  | a, b => do
    let x ← toFloat a
    let y ← toFloat b
    pure (real (onFloats x y))

def add : Scalar → Scalar → Except Fault Scalar := lift (· + ·) (· + ·)

def sub : Scalar → Scalar → Except Fault Scalar := lift (· - ·) (· - ·)

def mul : Scalar → Scalar → Except Fault Scalar := lift (· * ·) (· * ·)

/-- The quotient as a double; of two integers it is the double nearest to the exact one. -/
def div : Scalar → Scalar → Except Fault Scalar
  | whole m, whole n =>
    if n = 0 then .error .divisionByZero
    else
      let x := Binary64.ofRatio (decide (m < 0) != decide (n < 0)) m.natAbs n.natAbs
      if x.isFinite then .ok (real x) else .error .beyondReals
  | a, b => do
    let x ← toFloat a
    let y ← toFloat b
    if y == 0.0 then .error .divisionByZero else pure (real (x / y))

def neg : Scalar → Scalar
  | whole n => whole (-n)
  | real x => real (-x)

/-- Whether an integer lies below a double, compared exactly. -/
def intLtFloat (n : Int) (x : Float) : Bool :=
  match value x with
  | .nan => false
  | .infinite negative => !negative
  | .finite negative m e =>
    let (num, den) := ratio m e
    decide (n * (den : Int) < if negative then -(num : Int) else num)

def floatLtInt (x : Float) (n : Int) : Bool :=
  match value x with
  | .nan => false
  | .infinite negative => negative
  | .finite negative m e =>
    let (num, den) := ratio m e
    decide ((if negative then -(num : Int) else num) < n * (den : Int))

def lt : Scalar → Scalar → Bool
  | whole m, whole n => decide (m < n)
  | whole n, real x => intLtFloat n x
  | real x, whole n => floatLtInt x n
  | real x, real y => decide (x < y)

def intEqFloat (n : Int) (x : Float) : Bool :=
  match value x with
  | .finite negative m e =>
    let (num, den) := ratio m e
    decide (n * (den : Int) = if negative then -(num : Int) else num)
  | _ => false

/-- Whether two numbers are the same, whatever they are written as. -/
def same : Scalar → Scalar → Bool
  | whole m, whole n => decide (m = n)
  | whole n, real x => intEqFloat n x
  | real x, whole n => intEqFloat n x
  | real x, real y => x == y

def le (a b : Scalar) : Bool := lt a b || same a b

/-- The integer that a rounding of ratios makes of a number. -/
def toInt (rounding : (negative : Bool) → (num den : Nat) → Int) : Scalar → Except Fault Int
  | whole n => .ok n
  | real x =>
    match value x with
    | .nan => .error .wholeOfNaN
    | .infinite _ => .error .wholeOfInfinity
    | .finite negative m e =>
      let (num, den) := ratio m e
      .ok (rounding negative num den)

def ceil : Scalar → Except Fault Int :=
  toInt fun negative num den =>
    if negative then -((num / den : Nat) : Int) else (((num + den - 1) / den : Nat) : Int)

def floor : Scalar → Except Fault Int :=
  toInt fun negative num den =>
    if negative then -(((num + den - 1) / den : Nat) : Int) else ((num / den : Nat) : Int)

def truncate : Scalar → Except Fault Int :=
  toInt fun negative num den =>
    if negative then -((num / den : Nat) : Int) else ((num / den : Nat) : Int)

/-- The nearest integer, a tie going to the even one. -/
def round : Scalar → Except Fault Int :=
  toInt fun negative num den =>
    if negative then -(roundDiv num den : Int) else (roundDiv num den : Int)

def thousandths : Scalar → Scalar
  | whole n => whole n
  | real x => real (Decimal.roundPlaces 3 x)

def isFinite : Scalar → Bool
  | whole _ => true
  | real x => x.isFinite

instance : Arithmetic Scalar where
  ofInt := whole
  zero := real 0.0
  pi := real 3.141592653589793
  add := add
  sub := sub
  mul := mul
  div := div
  neg := neg
  inexact a := do pure (real (← toFloat a))
  hypot a b := do
    let x ← toFloat a
    let y ← toFloat b
    pure (real (Binary64.hypotenuse x y))
  direction rise run := do
    let y ← toFloat rise
    let x ← toFloat run
    pure (real (Float.atan2 y x))
  cos a := do
    let x ← toFloat a
    if x.isInf then .error .infiniteAngle else pure (real x.cos)
  sin a := do
    let x ← toFloat a
    if x.isInf then .error .infiniteAngle else pure (real x.sin)
  ceil := ceil
  lt := lt
  le := le

/-- The number with six decimal places; a negative zero has no sign. -/
def sixPlaces (a : Scalar) : Except Fault Text := do
  let t := Decimal.fixed 6 (← toFloat a)
  pure (if t = "-0.000000".toList then "0.000000".toList else t)

/-- The number with the fewest digits that read back; integers have no point. -/
def roundTrip : Scalar → Text
  | whole n => Text.ofInt n
  | real x => Decimal.roundTrip x

@[simp] theorem add_whole (m n : Int) : add (whole m) (whole n) = .ok (whole (m + n)) := rfl

@[simp] theorem sub_whole (m n : Int) : sub (whole m) (whole n) = .ok (whole (m - n)) := rfl

@[simp] theorem mul_whole (m n : Int) : mul (whole m) (whole n) = .ok (whole (m * n)) := rfl

@[simp] theorem lt_whole (m n : Int) : lt (whole m) (whole n) = decide (m < n) := rfl

@[simp] theorem same_whole (m n : Int) : same (whole m) (whole n) = decide (m = n) := rfl

@[simp] theorem truncate_whole (n : Int) : truncate (whole n) = .ok n := rfl

example : (round (real 2.5)).toOption = some 2 := by rfl

example : lt (whole (2 ^ 53)) (real 9007199254740994.0) = true := by rfl

end Scalar

end UmlDrawing
