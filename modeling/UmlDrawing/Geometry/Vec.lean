import UmlDrawing.Scalar.Arithmetic

/-! Points and directions of the plane. The second axis points downwards, as on a screen. -/
namespace UmlDrawing

/-- A point or a direction. -/
structure Vec (α : Type) where
  x : α
  y : α
  deriving DecidableEq, Repr, Inhabited

namespace Vec

variable {α : Type}

def map {β : Type} (f : α → β) (v : Vec α) : Vec β := ⟨f v.x, f v.y⟩

/-- The same operation on both components, the first component first. -/
def mapM {β : Type} (f : α → Except Fault β) (v : Vec α) : Except Fault (Vec β) := do
  let x ← f v.x
  let y ← f v.y
  pure ⟨x, y⟩

@[simp] theorem map_x {β : Type} (f : α → β) (v : Vec α) : (v.map f).x = f v.x := rfl

@[simp] theorem map_y {β : Type} (f : α → β) (v : Vec α) : (v.map f).y = f v.y := rfl

variable [Arithmetic α]

open Arithmetic

/-- The origin, in exact integers. -/
def origin : Vec α := ⟨ofInt 0, ofInt 0⟩

def add (v w : Vec α) : Except Fault (Vec α) := do
  let x ← Arithmetic.add v.x w.x
  let y ← Arithmetic.add v.y w.y
  pure ⟨x, y⟩

def sub (v w : Vec α) : Except Fault (Vec α) := do
  let x ← Arithmetic.sub v.x w.x
  let y ← Arithmetic.sub v.y w.y
  pure ⟨x, y⟩

def scale (v : Vec α) (k : α) : Except Fault (Vec α) := v.mapM (mul · k)

def divide (v : Vec α) (k : α) : Except Fault (Vec α) := v.mapM (div · k)

def neg (v : Vec α) : Vec α := v.map Arithmetic.neg

def length (v : Vec α) : Except Fault α := hypot v.x v.y

/-- The angle between the first axis and the direction, in radians. -/
def angle (v : Vec α) : Except Fault α := direction v.y v.x

def midpoint (v w : Vec α) : Except Fault (Vec α) := do
  let s ← v.add w
  s.divide (ofInt 2)

/-- The direction turned around the origin by an angle in radians. -/
def rotate (v : Vec α) (theta : α) : Except Fault (Vec α) := do
  let c ← cos theta
  let s ← sin theta
  let xc ← mul v.x c
  let ys ← mul v.y s
  let x ← Arithmetic.sub xc ys
  let xs ← mul v.x s
  let yc ← mul v.y c
  let y ← Arithmetic.add xs yc
  pure ⟨x, y⟩

/-- The far corner of the box spanned by the origin and the points. -/
def boundingExtent (points : List (Vec α)) : Vec α :=
  points.foldl (fun e p => ⟨max e.x p.x, max e.y p.y⟩) origin

@[simp] theorem boundingExtent_nil : boundingExtent ([] : List (Vec α)) = origin := rfl

@[simp] theorem boundingExtent_append_singleton (ps : List (Vec α)) (p : Vec α) :
    boundingExtent (ps ++ [p]) =
      ⟨max (boundingExtent ps).x p.x, max (boundingExtent ps).y p.y⟩ := by
  simp [boundingExtent]

end Vec

end UmlDrawing
