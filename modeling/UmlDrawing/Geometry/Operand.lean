import UmlDrawing.Geometry.Vec

/-! Operands of vector arithmetic whose kind is known only when they are used: a number, or a
tuple that should have two components. -/
namespace UmlDrawing

/-- What is given to an operation on vectors. -/
inductive Operand (α : Type) where
  | number (a : α)
  | tuple (components : List α)
  /-- anything that is neither -/
  | other

namespace Operand

variable {α : Type}

def toNumber : Operand α → Except Fault α
  | number a => .ok a
  | _ => .error .operandKind

def toVec : Operand α → Except Fault (Vec α)
  | tuple [x, y] => .ok ⟨x, y⟩
  | tuple _ => .error .operandLength
  | _ => .error .operandKind

@[simp] theorem toVec_tuple_pair (x y : α) : (tuple [x, y]).toVec = .ok ⟨x, y⟩ := rfl

end Operand

end UmlDrawing
