import UmlDrawing.Font.Metrics
import UmlDrawing.Proofs.Fault
import UmlDrawing.Proofs.Numeral.Whole

/-! Line heights of styles whose sizes are the same number, one written as an integer and one as a
double. Where the one has a line height so has the other, and it is the same: a size that is too
large for its double to be doubled is too large for an image as well. -/
namespace UmlDrawing

namespace Scalar

open Binary64

variable {a b : Scalar}

lemma exact_whole (n : Nat) : exact (whole n) = some ((n : ℚ) : WithBotTop ℚ) := by
  rw [exact, Int.cast_natCast]

/-- A positive number is written as an integer or as a double, and as each of them in one way. -/
theorem cases_of_same (h : same a b = true) (hpos : le a (whole 0) = false) :
    a = b ∨ ∃ (n : Nat) (x : Float), 0 < n ∧ (value x).exact = some ((n : ℚ) : WithBotTop ℚ) ∧
      (a = whole n ∧ b = real x ∨ a = real x ∧ b = whole n) := by
  obtain ⟨p, ha, hb⟩ := same_iff.1 h
  have hp : ((0 : ℚ) : WithBotTop ℚ) < p := by
    by_contra hle
    have hzero : exact (whole 0) = some ((0 : ℚ) : WithBotTop ℚ) := by rw [exact, Int.cast_zero]
    rw [le_iff.2 ⟨p, _, ha, hzero, not_lt.1 hle⟩] at hpos
    cases hpos
  have hinteger {n : Int} (hn : exact (whole n) = some p) :
      ∃ k : Nat, 0 < k ∧ whole n = whole k ∧ p = ((k : ℚ) : WithBotTop ℚ) := by
    cases hn
    have hnpos : (0 : ℚ) < n := WithBotTop.coe_lt_coe.1 hp
    obtain ⟨k, rfl⟩ := Int.eq_ofNat_of_zero_le (show 0 ≤ n by exact_mod_cast hnpos.le)
    exact ⟨k, by exact_mod_cast hnpos, rfl, by rw [Int.cast_natCast]⟩
  cases a with
  | whole m =>
    obtain ⟨k, hk, hm, rfl⟩ := hinteger ha
    cases b with
    | whole n =>
      have hcast : (n : ℚ) = m := WithBotTop.coe_injective (Option.some.inj (hb.trans ha.symm))
      exact .inl (congrArg whole (by exact_mod_cast hcast.symm))
    | real y => exact .inr ⟨k, y, hk, hb, .inl ⟨hm, rfl⟩⟩
  | real x =>
    cases b with
    | whole n =>
      obtain ⟨k, hk, hn, rfl⟩ := hinteger hb
      exact .inr ⟨k, x, hk, ha, .inr ⟨rfl, hn⟩⟩
    | real y => exact .inl (congrArg real (eq_of_exact hp.ne' ha hb))

end Scalar

namespace Metrics

open Binary64 Scalar

variable {n : Nat} {x : Float} {r : Nat × Nat}

/-- The image that the reference letter is drawn to. -/
def room (glyphWidth size : Scalar) : Except Fault (Nat × Nat) := do
  let side ← Scalar.mul (Arithmetic.max glyphWidth size) (.whole 2)
  let side ← side.ceil
  Raster.imageSize side side

lemma inkHeight_eq (font : Font) (size : Scalar) :
    inkHeight font size =
      (font.width referenceGlyph >>= fun glyphWidth =>
        room glyphWidth size >>= fun image =>
          font.inkRows referenceGlyph image.1 image.2 >>= fun rows =>
            match rows with
            | none => Scalar.mul size lineSpacing
            | some (first, last) => Scalar.mul (.whole (last - first)) lineSpacing) := by
  refine bind_congr fun glyphWidth => ?_
  rw [room, bind_assoc]
  refine bind_congr fun side => ?_
  exact (bind_assoc ..).symm

/-- A letter has the same room for a size that is written as an integer or as a double. -/
lemma room_eq_ok_iff (hn : 0 < n) (hx : (value x).exact = some ((n : ℚ) : WithBotTop ℚ))
    (glyphWidth : Scalar) : room glyphWidth (whole n) = .ok r ↔ room glyphWidth (real x) = .ok r := by
  have hless : lt glyphWidth (whole n) = lt glyphWidth (real x) := by
    rw [Bool.eq_iff_iff, lt_iff, lt_iff, exact_whole]
    simp only [exact, hx]
  have hmax (size : Scalar) : Arithmetic.max glyphWidth size =
      if lt glyphWidth size then size else glyphWidth := rfl
  by_cases hlt : lt glyphWidth (real x) = true
  · have hwhole : room glyphWidth (whole n) = Raster.imageSize (2 * n : Nat) (2 * n : Nat) := by
      rw [room, hmax, if_pos (hless.trans hlt), mul_whole, ok_bind, Int.mul_comm]
      rfl
    have hreal : room glyphWidth (real x) =
        (real (x * 2.0)).ceil >>= fun side => Raster.imageSize side side := by
      rw [room, hmax, if_pos hlt]
      rfl
    rw [hwhole, hreal]
    -- both fail where the double of the size is infinite, though not for the same reason
    obtain htwice | ⟨htwice, hlarge⟩ := value_twice hn hx
    · have hceil : (real (x * 2.0)).ceil = .ok ((2 * n : Nat) : Int) := by
        refine ceil_of_exact ?_
        rw [Int.cast_natCast]
        exact htwice
      rw [hceil, ok_bind]
    · have hceil : (real (x * 2.0)).ceil = .error .wholeOfInfinity := by
        simp only [ceil, toInt, htwice]
      have hsize : Raster.imageSize (2 * n : Nat) (2 * n : Nat) = .error .pixelOverflow := by
        have hbeyond : 2 ^ 31 < n := (Nat.pow_le_pow_right (by decide) (by decide)).trans_lt hlarge
        have hcoordinate : Raster.isCoordinate (2 * n : Nat) = false := by
          rw [Raster.isCoordinate, Raster.maxCoordinate, Bool.and_eq_false_iff]
          exact .inr (decide_eq_false (by omega))
        rw [Raster.imageSize, hcoordinate]
        rfl
      rw [hceil, hsize]
      exact iff_of_false (fun h => by cases h) fun h => by cases h
  · rw [room, room, hmax, hmax, if_neg hlt, hless, if_neg hlt]

/-- Whatever the ink, a size that is written as an integer or as a double is spaced alike. -/
lemma mul_lineSpacing (hn : 0 < n) (hx : (value x).exact = some ((n : ℚ) : WithBotTop ℚ)) :
    Scalar.mul (whole n) lineSpacing = Scalar.mul (real x) lineSpacing := by
  have hdouble : toFloat (whole n) = .ok x := by
    rw [toFloat, ofInt?_of_exact hn hx]
    rfl
  simp only [lineSpacing, Scalar.mul, lift, hdouble]
  rfl

/-- Fonts have the same line heights for a size that is written as an integer or as a double. -/
lemma inkHeight_eq_ok_iff (hn : 0 < n) (hx : (value x).exact = some ((n : ℚ) : WithBotTop ℚ))
    (font : Font) {h : Scalar} : inkHeight font (whole n) = .ok h ↔ inkHeight font (real x) = .ok h := by
  simp only [inkHeight_eq, bind_eq_ok_iff, room_eq_ok_iff hn hx, mul_lineSpacing hn hx]

/-- A line height for a size is one for every size that is the same number. -/
theorem inkHeight_of_same {a b : Scalar} (hsame : same a b = true) (hpos : le a (.whole 0) = false)
    {font : Font} {h : Scalar} (hheight : inkHeight font a = .ok h) : inkHeight font b = .ok h := by
  obtain rfl | ⟨n, x, hn, hx, ⟨rfl, rfl⟩ | ⟨rfl, rfl⟩⟩ := cases_of_same hsame hpos
  · exact hheight
  · exact (inkHeight_eq_ok_iff hn hx font).1 hheight
  · exact (inkHeight_eq_ok_iff hn hx font).2 hheight

end Metrics

end UmlDrawing
