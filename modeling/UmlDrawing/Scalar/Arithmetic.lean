import UmlDrawing.Fault

/-! What geometry needs of numbers. Every operation may fail, so that one definition serves the
machine's numbers, where an integer can be too large for a double, and exact arithmetic, where
only division by zero fails. -/
namespace UmlDrawing

/-- Numbers that coordinates are measured in. -/
class Arithmetic (α : Type) where
  ofInt : Int → α
  /-- the inexact zero that sums of lengths start from -/
  zero : α
  pi : α
  add : α → α → Except Fault α
  sub : α → α → Except Fault α
  mul : α → α → Except Fault α
  div : α → α → Except Fault α
  neg : α → α
  inexact : α → Except Fault α
  hypot : α → α → Except Fault α
  /-- the direction with the given rise and run, in radians -/
  direction : (rise run : α) → Except Fault α
  cos : α → Except Fault α
  sin : α → Except Fault α
  ceil : α → Except Fault Int
  lt : α → α → Bool
  le : α → α → Bool

namespace Arithmetic

variable {α : Type} [Arithmetic α]

/-- The smaller number; the first one unless the second is less. -/
def min (a b : α) : α := if lt b a then b else a

/-- The larger number; the first one unless the second is more. -/
def max (a b : α) : α := if lt a b then b else a

def half (a : α) : Except Fault α := div a (ofInt 2)

/-- The sum, from the left and starting at the integer zero. -/
def sum (terms : List α) : Except Fault α := terms.foldlM add (ofInt 0)

@[simp] theorem sum_nil : sum ([] : List α) = .ok (ofInt 0) := rfl

end Arithmetic

end UmlDrawing
