import UmlDrawing.Proofs.Fault
import UmlDrawing.Proofs.Numeral.Rounded
import UmlDrawing.Geometry.Vec
import UmlDrawing.Scalar.Basic

/-! Sums of integers and doubles. An integer up to the greatest double takes part in them, and so does
one that is two larger; a sum that holds a double once is a double from there on. -/
namespace UmlDrawing

/-- The greatest double. -/
def Binary64.greatest : Nat := (2 ^ 53 - 1) * 2 ^ 971

namespace Binary64

lemma exists_ofInt? {n : Int} (h : n.natAbs ≤ greatest) : ∃ x, ofInt? n = some x := by
  have hfinite : (ofRatio (decide (n < 0)) n.natAbs 1).isFinite = true :=
    isFinite_ofRatio _ Nat.one_pos (by rw [Nat.one_mul]; exact h)
  rw [ofInt?, if_pos hfinite]
  exact ⟨_, rfl⟩

/-- Two more than the greatest double is rounded to it. -/
lemma exists_ofInt?_add_two {n : Int} (h : n.natAbs ≤ greatest) : ∃ x, ofInt? (n + 2) = some x := by
  by_cases hle : (n + 2).natAbs ≤ greatest
  · exact exists_ofInt? hle
  · have hone : (ofInt? (greatest + 1)).isSome = true := by decide +kernel
    have htwo : (ofInt? (greatest + 2)).isSome = true := by decide +kernel
    have hcases : n + 2 = greatest + 1 ∨ n + 2 = greatest + 2 := by omega
    obtain hn | hn := hcases
    · rw [hn]
      exact Option.isSome_iff_exists.1 hone
    · rw [hn]
      exact Option.isSome_iff_exists.1 htwo

end Binary64

namespace Scalar

variable {a b c : Scalar} {x y : Float}

/-- Whether a number is a double or has a nearest one. -/
def Converts (a : Scalar) : Prop := ∃ x, a.toFloat = .ok x

lemma converts_real (x : Float) : (real x).Converts := ⟨x, rfl⟩

lemma converts_whole {n : Int} (h : ∃ x, Binary64.ofInt? n = some x) : (whole n).Converts := by
  obtain ⟨x, hx⟩ := h
  exact ⟨x, by rw [toFloat, hx]; rfl⟩

lemma add_real (h : a.toFloat = .ok x) (y : Float) : add a (real y) = .ok (real (x + y)) := by
  cases a with
  | whole n =>
    change (toFloat (whole n) >>= _) = _
    rw [h]
    rfl
  | real z =>
    cases h
    rfl

lemma real_add (x : Float) (h : b.toFloat = .ok y) : add (real x) b = .ok (real (x + y)) := by
  cases b with
  | whole n =>
    change (toFloat (real x) >>= fun x => toFloat (whole n) >>= _) = _
    rw [h]
    rfl
  | real z =>
    cases h
    rfl

lemma sub_real (h : a.toFloat = .ok x) (y : Float) : sub a (real y) = .ok (real (x - y)) := by
  cases a with
  | whole n =>
    change (toFloat (whole n) >>= _) = _
    rw [h]
    rfl
  | real z =>
    cases h
    rfl

lemma real_sub (x : Float) (h : b.toFloat = .ok y) : sub (real x) b = .ok (real (x - y)) := by
  cases b with
  | whole n =>
    change (toFloat (real x) >>= fun x => toFloat (whole n) >>= _) = _
    rw [h]
    rfl
  | real z =>
    cases h
    rfl

/-- Numbers that have doubles can be added. -/
lemma exists_add (ha : a.Converts) (hb : b.Converts) : ∃ c, add a b = .ok c := by
  obtain ⟨x, hx⟩ := ha
  obtain ⟨y, hy⟩ := hb
  cases b with
  | whole n =>
    cases a with
    | whole m => exact ⟨_, rfl⟩
    | real z => exact ⟨_, real_add z hy⟩
  | real z => exact ⟨_, add_real hx z⟩

lemma half_real (x : Float) : Arithmetic.half (real x) = .ok (real (x / 2.0)) := by
  have htwo : toFloat (whole 2) = .ok 2.0 := by rfl
  have hne : ((2.0 : Float) == 0.0) = false := by decide
  change div (real x) (whole 2) = _
  simp only [div, htwo]
  change (if ((2.0 : Float) == 0.0) = true then Except.error Fault.divisionByZero
    else Except.ok (real (x / 2.0))) = _
  rw [hne]
  rfl

/-- An integer up to the greatest double has a half. -/
lemma exists_half {n : Nat} (h : n ≤ Binary64.greatest) :
    ∃ x, Arithmetic.half (whole n) = .ok (real x) := by
  have htwice := h.trans (Nat.le_mul_of_pos_left Binary64.greatest Nat.two_pos)
  rw [Binary64.greatest] at htwice
  have hfinite : (Binary64.ofRatio (decide ((n : Int) < 0) != decide ((2 : Int) < 0)) n 2).isFinite =
      true := Binary64.isFinite_ofRatio _ Nat.two_pos htwice
  refine ⟨Binary64.ofRatio (decide ((n : Int) < 0) != decide ((2 : Int) < 0)) n 2, ?_⟩
  change div (whole n) (whole 2) = _
  rw [div, if_neg (by decide), Int.natAbs_natCast]
  exact if_pos hfinite

/-- A number and some doubles added to it, from left to right. -/
def sumFrom (start : Scalar) (xs : List Float) : Except Fault Scalar :=
  (xs.map real).foldlM add start

@[simp] lemma sumFrom_nil (start : Scalar) : sumFrom start [] = .ok start := rfl

lemma sumFrom_append (start : Scalar) (xs ys : List Float) :
    sumFrom start (xs ++ ys) = sumFrom start xs >>= fun a => sumFrom a ys := by
  rw [sumFrom, List.map_append, List.foldlM_append]
  rfl

lemma sumFrom_concat {start : Scalar} {xs : List Float} (h : sumFrom start xs = .ok a) (y : Float) :
    sumFrom start (xs ++ [y]) = add a (real y) := by
  rw [sumFrom_append, h, ok_bind, sumFrom, List.map_cons, List.foldlM_cons, List.map_nil]
  cases add a (real y) <;> rfl

lemma exists_sumFrom_real (x : Float) (ys : List Float) :
    ∃ z, sumFrom (real x) ys = .ok (real z) := by
  induction ys generalizing x with
  | nil => exact ⟨x, rfl⟩
  | cons y ys ih => exact ih (x + y)

/-- A sum that holds a double is one. -/
lemma exists_sumFrom (ha : a.Converts) {xs : List Float} (hne : xs ≠ []) :
    ∃ z, sumFrom a xs = .ok (real z) := by
  obtain ⟨x, hx⟩ := ha
  obtain ⟨y, ys, rfl⟩ := List.exists_cons_of_ne_nil hne
  obtain ⟨z, hz⟩ := exists_sumFrom_real (x + y) ys
  refine ⟨z, ?_⟩
  rw [sumFrom, List.map_cons, List.foldlM_cons, add_real hx]
  exact hz

end Scalar

/-- A point can be moved if both of its coordinates can. -/
lemma Vec.exists_add {o v : Vec Scalar} (hx : ∃ c, Scalar.add o.x v.x = .ok c)
    (hy : ∃ c, Scalar.add o.y v.y = .ok c) : ∃ u, o.add v = .ok u := by
  obtain ⟨c, hc⟩ := hx
  obtain ⟨d, hd⟩ := hy
  have hc' : Arithmetic.add o.x v.x = .ok c := hc
  have hd' : Arithmetic.add o.y v.y = .ok d := hd
  exact ⟨⟨c, d⟩, by rw [Vec.add, hc', ok_bind, hd']; rfl⟩

lemma Vec.exists_of_add {o v u : Vec Scalar} (h : o.add v = .ok u) :
    (∃ c, Scalar.add o.x v.x = .ok c) ∧ ∃ c, Scalar.add o.y v.y = .ok c := by
  obtain ⟨c, hc, h⟩ := bind_eq_ok_iff.1 h
  obtain ⟨d, hd, -⟩ := bind_eq_ok_iff.1 h
  exact ⟨⟨c, hc⟩, d, hd⟩

end UmlDrawing
