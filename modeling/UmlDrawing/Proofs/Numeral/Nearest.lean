import UmlDrawing.Proofs.Numeral.Exact

/-! How near the nearest is. A quotient is rounded to an integer that is at most one half away, and a
ratio to a double that is off by at most one part in 2 ^ 53, unless it is so small that the mantissa
has fewer digits. -/
namespace UmlDrawing

namespace Binary64

open Numeral (twoTo)

/-- The integer nearest to a number, the even one of two that are equally near. -/
structure IsNearest (q : ℚ) (n : ℤ) : Prop where
  near : |q - n| ≤ 1 / 2
  even : |q - n| = 1 / 2 → Even n

section Integers

variable {q : ℚ} {n k : ℤ} {num den : ℕ}

lemma isNearest_self (n : ℤ) : IsNearest n n :=
  ⟨by simp, by simp⟩

lemma IsNearest.neg (h : IsNearest q n) : IsNearest (-q) (-n) := by
  have hdistance : |(-q : ℚ) - (-n : ℤ)| = |q - n| := by
    rw [← abs_neg]
    push_cast
    congr 1
    ring
  exact ⟨hdistance ▸ h.near, fun htie => (h.even (hdistance ▸ htie)).neg⟩

/-- An integer that is less than one half away is the nearest one. -/
lemma IsNearest.eq_of_lt (h : IsNearest q n) (hk : |q - k| < 1 / 2) : n = k := by
  have hdistance : |((n - k : ℤ) : ℚ)| < 1 := by
    calc |((n - k : ℤ) : ℚ)| = |(q - k) - (q - n)| := by
          push_cast
          congr 1
          ring
      _ ≤ |q - k| + |q - n| := abs_sub _ _
      _ < 1 := by linarith [h.near]
  have hzero : |n - k| < 1 := by exact_mod_cast hdistance
  exact sub_eq_zero.1 (Int.abs_lt_one_iff.1 hzero)

lemma isNearest_div (hden : 0 < den) (hnear : 2 * |(num : ℤ) - n * den| ≤ den)
    (heven : 2 * |(num : ℤ) - n * den| = den → Even n) : IsNearest (num / den) n := by
  have hpos : (0 : ℚ) < den := by exact_mod_cast hden
  have hdistance : |(num : ℚ) / den - n| = (|(num : ℤ) - n * den| : ℤ) / den := by
    rw [div_sub' hpos.ne', abs_div, abs_of_pos hpos]
    push_cast
    rw [mul_comm (den : ℚ)]
  constructor
  · rw [hdistance, div_le_div_iff₀ hpos two_pos, mul_comm, one_mul]
    exact_mod_cast hnear
  · rw [hdistance, div_eq_div_iff hpos.ne' two_ne_zero, mul_comm, one_mul]
    exact fun htie => heven (by exact_mod_cast htie)

/-- A quotient is rounded to the nearest integer. -/
theorem isNearest_roundDiv (num : ℕ) (hden : 0 < den) :
    IsNearest (num / den) (roundDiv num den) := by
  have hsplit : num / den * den + num % den = num := Nat.div_add_mod' num den
  have hmod : num % den < den := Nat.mod_lt _ hden
  have hrest : (num : ℤ) - (num / den : ℕ) * den = (num % den : ℕ) := by
    rw [sub_eq_iff_eq_add']
    exact_mod_cast hsplit.symm
  unfold roundDiv
  dsimp only
  split
  · next hdown =>
    refine isNearest_div hden ?_ fun htie => ?_
    · rw [hrest, Nat.abs_cast]
      omega
    · rw [hrest, Nat.abs_cast] at htie
      exact_mod_cast Nat.even_iff.2 (show num / den % 2 = 0 by omega)
  · next hup =>
    have hlack : |(num : ℤ) - (num / den + 1 : ℕ) * den| = den - (num % den : ℕ) := by
      rw [Nat.cast_succ, add_mul, one_mul, ← sub_sub, hrest, abs_sub_comm]
      exact abs_of_nonneg (by omega)
    refine isNearest_div hden ?_ fun htie => ?_
    · rw [hlack]
      omega
    · rw [hlack] at htie
      exact_mod_cast Nat.even_iff.2 (show (num / den + 1) % 2 = 0 by omega)

lemma le_roundDiv {k : ℕ} (hden : 0 < den) (h : den * k ≤ num) : k ≤ roundDiv num den := by
  have hquotient : k ≤ num / den := (Nat.le_div_iff_mul_le hden).2 (by rwa [mul_comm])
  unfold roundDiv
  dsimp only
  split <;> omega

end Integers

section Doubles

variable {s : Bool} {num den m : ℕ} {e scale : ℤ}

lemma gridScale_ge (num den : ℕ) : -1074 ≤ gridScale num den := le_max_right _ _

/-- The mantissa is filled up unless the grid is the finest one. -/
lemma le_gridMantissa (hnum : 0 < num) (hden : 0 < den) :
    2 ^ 52 ≤ gridMantissa num den ∨ gridScale num den = -1074 := by
  have hlow := (floorLog_bracket hnum hden).1
  refine or_iff_not_imp_right.2 fun hscale => le_roundDiv (onScale_pos hden) ?_
  have hfloor : floorLog num den = gridScale num den + 52 := by
    have hmax : gridScale num den = max (floorLog num den - 52) (-1074) := rfl
    omega
  have hpos : (0 : ℚ) < (onScale num den (gridScale num den)).2 := by
    exact_mod_cast onScale_pos hden
  have hpower : (0 : ℚ) < 2 ^ gridScale num den := zpow_pos two_pos _
  rw [hfloor, zpow_add₀ two_ne_zero, ← le_div_iff₀' hpower, ← onScale_div, le_div_iff₀ hpos,
    mul_comm] at hlow
  exact_mod_cast hlow

/-- A mantissa that is rounded up to the next power of two moves on to the next exponent. -/
lemma mul_zpow_of_bits {r : ℕ} (hm : Canonical m e) (hscale : -1074 ≤ scale) (hr : r ≤ 2 ^ 53)
    (hfull : 2 ^ 52 ≤ r ∨ scale = -1074)
    (h : (e + 1074).toNat * 2 ^ 52 + m = (scale + 1074).toNat * 2 ^ 52 + r) :
    (m : ℚ) * 2 ^ e = r * 2 ^ scale := by
  obtain ⟨hlt, hleast, -, hmfull⟩ := hm
  obtain ⟨rfl, rfl⟩ | ⟨rfl, rfl, rfl⟩ :
      m = r ∧ e = scale ∨ m = 2 ^ 52 ∧ r = 2 ^ 53 ∧ e = scale + 1 := by omega
  · rfl
  · rw [zpow_add_one₀ two_ne_zero]
    push_cast
    ring

/-- A finite double that is nearest to a positive ratio is what the ratio is on its grid. -/
theorem value_ofRatio (hnum : 0 < num) (hden : 0 < den)
    (hfinite : (ofRatio s num den).isFinite = true) :
    ∃ m e, value (ofRatio s num den) = .finite s m e ∧
      (m : ℚ) * 2 ^ e = gridMantissa num den * 2 ^ gridScale num den := by
  obtain ⟨t, m, e, hvalue⟩ := value_of_isFinite hfinite
  have hcanonical := canonical_of_value hvalue
  have hbound : bitsOfRatio num den ≤ 2047 * 2 ^ 52 := by
    rw [bitsOfRatio_eq]
    exact Nat.min_le_right _ _
  have hword : bitsOfRatio num den + (if s then 2 ^ 63 else 0) < 2 ^ 64 := by
    split <;> omega
  have hround : value (ofRatio s num den) =
      valueOfBits (bitsOfRatio num den + if s then 2 ^ 63 else 0) := by
    rw [ofRatio, if_neg hnum.ne', value_ofBits, UInt64.toNat_ofNat']
    exact congrArg valueOfBits (Nat.mod_eq_of_lt hword)
  have hbits := bits_of_valueOfBits hword (hround.symm.trans hvalue)
  have hparts : s = t ∧ bitsOfRatio num den = (e + 1074).toNat * 2 ^ 52 + m := by
    obtain ⟨hlt, hleast, hle, -⟩ := hcanonical
    cases s <;> cases t <;> simp at hbits ⊢ <;> omega
  obtain ⟨rfl, hmagnitude⟩ := hparts
  refine ⟨m, e, hvalue, mul_zpow_of_bits hcanonical (gridScale_ge num den)
    (gridMantissa_le hnum hden) (le_gridMantissa hnum hden) ?_⟩
  have hgrid : bitsOfRatio num den = min ((gridScale num den + 1074).toNat * 2 ^ 52 +
      gridMantissa num den) (2047 * 2 ^ 52) := bitsOfRatio_eq num den
  obtain ⟨hlt, hleast, hle, -⟩ := hcanonical
  omega

lemma value_ofRatio_zero (s : Bool) (den : ℕ) : value (ofRatio s 0 den) = .finite s 0 (-1074) := by
  rw [ofRatio, if_pos rfl, value_ofBits]
  cases s <;> rfl

/-- A ratio in the range of full mantissas is off by at most one part in 2 ^ 53. -/
theorem abs_ofRatio_sub_le (hnum : 0 < num) (hden : 0 < den)
    (hnormal : (2 : ℚ) ^ (-1022 : ℤ) ≤ num / den) :
    |(num : ℚ) / den - gridMantissa num den * 2 ^ gridScale num den| ≤
      num / den * 2 ^ (-53 : ℤ) := by
  obtain ⟨hlow, hhigh⟩ := floorLog_bracket hnum hden
  have hfloor : -1022 < floorLog num den + 1 :=
    (zpow_lt_zpow_iff_right₀ (one_lt_two (α := ℚ))).1 (hnormal.trans_lt hhigh)
  have hscale : gridScale num den = floorLog num den - 52 := max_eq_left (by omega)
  have hpower : (0 : ℚ) < 2 ^ gridScale num den := zpow_pos two_pos _
  have hnear : |(num : ℚ) / den / 2 ^ gridScale num den - gridMantissa num den| ≤ 1 / 2 := by
    rw [← onScale_div]
    exact (isNearest_roundDiv _ (onScale_pos hden)).near
  calc |(num : ℚ) / den - gridMantissa num den * 2 ^ gridScale num den|
      = |(num : ℚ) / den / 2 ^ gridScale num den - gridMantissa num den| *
          2 ^ gridScale num den := by
        rw [← abs_of_pos hpower, ← abs_mul, sub_mul, abs_of_pos hpower, div_mul_cancel₀ _ hpower.ne']
    _ ≤ 1 / 2 * 2 ^ gridScale num den := by
        gcongr
    _ = 2 ^ floorLog num den * 2 ^ (-53 : ℤ) := by
        rw [hscale, ← zpow_add₀ two_ne_zero, one_div, ← zpow_neg_one, ← zpow_add₀ two_ne_zero]
        congr 1
        ring
    _ ≤ num / den * 2 ^ (-53 : ℤ) := by gcongr

end Doubles

end Binary64

end UmlDrawing
