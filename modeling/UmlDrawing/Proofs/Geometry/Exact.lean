import Mathlib
import UmlDrawing.Geometry.Vec

/-! Exact arithmetic: the real numbers, where nothing is rounded and only a division by zero fails. -/
namespace UmlDrawing

open Classical in
noncomputable instance : Arithmetic ℝ where
  ofInt n := n
  zero := 0
  pi := Real.pi
  add a b := .ok (a + b)
  sub a b := .ok (a - b)
  mul a b := .ok (a * b)
  div a b := if b = 0 then .error .divisionByZero else .ok (a / b)
  neg a := -a
  inexact a := .ok a
  hypot a b := .ok √(a ^ 2 + b ^ 2)
  direction rise run := .ok (Complex.arg ⟨run, rise⟩)
  cos a := .ok (Real.cos a)
  sin a := .ok (Real.sin a)
  ceil a := .ok ⌈a⌉
  lt a b := decide (a < b)
  le a b := decide (a ≤ b)

namespace Arithmetic

variable {a b : ℝ}

@[simp] lemma real_ofInt (n : ℤ) : (ofInt n : ℝ) = n := rfl

@[simp] lemma real_zero : (zero : ℝ) = 0 := rfl

@[simp] lemma real_add (a b : ℝ) : add a b = .ok (a + b) := rfl

@[simp] lemma real_sub (a b : ℝ) : sub a b = .ok (a - b) := rfl

@[simp] lemma real_mul (a b : ℝ) : mul a b = .ok (a * b) := rfl

lemma real_div (a : ℝ) (hb : b ≠ 0) : div a b = .ok (a / b) := if_neg hb

@[simp] lemma real_inexact (a : ℝ) : inexact a = .ok a := rfl

@[simp] lemma real_ceil (a : ℝ) : ceil a = .ok ⌈a⌉ := rfl

@[simp] lemma real_lt_iff : lt a b = true ↔ a < b := decide_eq_true_iff

@[simp] lemma real_le_iff : le a b = true ↔ a ≤ b := decide_eq_true_iff

lemma real_min (a b : ℝ) : Arithmetic.min a b = a ⊓ b := by
  rw [Arithmetic.min]
  split
  · next h => exact (inf_of_le_right (real_lt_iff.1 h).le).symm
  · next h => exact (inf_of_le_left (not_lt.1 (mt real_lt_iff.2 h))).symm

lemma real_sum (terms : List ℝ) : sum terms = .ok terms.sum := by
  have hfrom (start : ℝ) : terms.foldlM add start = .ok (start + terms.sum) := by
    induction terms generalizing start with
    | nil => exact congrArg Except.ok (add_zero start).symm
    | cons t terms ih =>
      rw [List.foldlM_cons, List.sum_cons, ← add_assoc]
      exact ih (start + t)
  rw [sum, hfrom, real_ofInt, Int.cast_zero, zero_add]

end Arithmetic

namespace Vec

lemma real_add (v w : Vec ℝ) : v.add w = .ok ⟨v.x + w.x, v.y + w.y⟩ := rfl

lemma real_sub (v w : Vec ℝ) : v.sub w = .ok ⟨v.x - w.x, v.y - w.y⟩ := rfl

lemma real_scale (v : Vec ℝ) (k : ℝ) : v.scale k = .ok ⟨v.x * k, v.y * k⟩ := rfl

lemma real_rotate (v : Vec ℝ) (theta : ℝ) :
    v.rotate theta = .ok ⟨v.x * Real.cos theta - v.y * Real.sin theta,
      v.x * Real.sin theta + v.y * Real.cos theta⟩ := rfl

lemma real_divide (v : Vec ℝ) {k : ℝ} (hk : k ≠ 0) : v.divide k = .ok ⟨v.x / k, v.y / k⟩ := by
  simp only [divide, mapM, Arithmetic.real_div _ hk]
  rfl

end Vec

end UmlDrawing
