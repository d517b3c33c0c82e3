import UmlDrawing.Geometry.Vec

/-! Boxes with integer corners. The size is never negative. -/
namespace UmlDrawing

structure Bounds where
  x : Int
  y : Int
  w : Nat
  h : Nat
  deriving DecidableEq, Repr, Inhabited

namespace Bounds

/-- The box with the given position and size, refused if the size is negative. -/
def make (x y w h : Int) : Except Fault Bounds :=
  if w < 0 ∨ h < 0 then .error (.negativeSize x y w h) else .ok ⟨x, y, w.toNat, h.toNat⟩

/-- The box with the given position, a negative size taken as none. -/
def clamped (x y w h : Int) : Bounds := ⟨x, y, w.toNat, h.toNat⟩

def pos (b : Bounds) : Vec Int := ⟨b.x, b.y⟩

def size (b : Bounds) : Vec Int := ⟨b.w, b.h⟩

/-- The far corner. -/
def extent (b : Bounds) : Vec Int := ⟨b.x + b.w, b.y + b.h⟩

def isEmpty (b : Bounds) : Bool := b.w == 0 || b.h == 0

def atOrigin (b : Bounds) : Bounds := { b with x := 0, y := 0 }

@[simp] theorem pos_atOrigin (b : Bounds) : b.atOrigin.pos = ⟨0, 0⟩ := rfl

@[simp] theorem size_atOrigin (b : Bounds) : b.atOrigin.size = b.size := rfl

theorem make_eq_ok_iff {x y w h : Int} {b : Bounds} :
    make x y w h = .ok b ↔ 0 ≤ w ∧ 0 ≤ h ∧ b = clamped x y w h := by
  unfold make clamped
  split
  · simp; omega
  · simp only [Except.ok.injEq]
    constructor
    · rintro rfl; exact ⟨by omega, by omega, rfl⟩
    · rintro ⟨-, -, rfl⟩; rfl

end Bounds

end UmlDrawing
