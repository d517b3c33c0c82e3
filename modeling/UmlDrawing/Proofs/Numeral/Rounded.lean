import UmlDrawing.Proofs.Numeral.Binary64

/-! Rounding to decimal places keeps doubles finite. The double nearest to a ratio is found on a
grid that is as fine as 53 binary digits allow, so it is finite unless the ratio is greater than the
greatest double. -/
namespace UmlDrawing

namespace Binary64

open Numeral (twoTo)

lemma roundDiv_le {num den k : Nat} (hden : 0 < den) (h : num ≤ den * k) :
    roundDiv num den ≤ k := by
  have hsplit : den * (num / den) + num % den = num := Nat.div_add_mod num den
  have hmod : num % den < den := Nat.mod_lt _ hden
  have hquotient : num / den ≤ k := Nat.div_le_of_le_mul h
  unfold roundDiv
  dsimp only
  split
  · exact hquotient
  · next hup =>
    refine Nat.lt_of_le_of_ne hquotient fun heq => hup (.inl ?_)
    rw [heq] at hsplit
    omega

/-- A ratio in units of a power of a base, as a ratio. -/
def inUnits (base num den : Nat) : Int → Nat × Nat
  | .ofNat k => (num, den * base ^ k)
  | .negSucc k => (num * base ^ (k + 1), den)

lemma inUnits_pos {base num den : Nat} (hbase : 0 < base) (hden : 0 < den) (k : Int) :
    0 < (inUnits base num den k).2 := by
  cases k with
  | ofNat k => exact Nat.mul_pos hden (Nat.pow_pos hbase)
  | negSucc k => exact hden

lemma inUnits_div (base num den : Nat) (k : Int) :
    ((inUnits base num den k).1 : ℚ) / (inUnits base num den k).2 = num / den / base ^ k := by
  cases k with
  | ofNat k =>
    simp only [inUnits, Int.ofNat_eq_natCast, zpow_natCast]
    push_cast
    rw [div_div]
  | negSucc k =>
    simp only [inUnits, zpow_negSucc]
    push_cast
    rw [div_inv_eq_mul, div_mul_eq_mul_div]

/-- A ratio on the grid `2 ^ scale`, as a ratio. -/
def onScale (num den : Nat) : Int → Nat × Nat
  | .ofNat s => (num, den * 2 ^ s)
  | .negSucc s => (num * 2 ^ (s + 1), den)

/-- The power of two of the first binary digit of a ratio. -/
def floorLog (num den : Nat) : Int :=
  let estimate : Int := (num.log2 : Int) - den.log2
  if (onScale num den estimate).2 ≤ (onScale num den estimate).1 then estimate else estimate - 1

/-- The exponent of the grid that a ratio is rounded on. -/
def gridScale (num den : Nat) : Int := max (floorLog num den - 52) (-1074)

lemma bitsOfRatio_eq (num den : Nat) :
    bitsOfRatio num den =
      min ((gridScale num den + 1074).toNat * twoTo 52 +
        roundDiv (onScale num den (gridScale num den)).1 (onScale num den (gridScale num den)).2)
        (2047 * twoTo 52) :=
  rfl

variable {num den : Nat} {scale : Int}

lemma onScale_eq (num den : Nat) (scale : Int) : onScale num den scale = inUnits 2 num den scale := by
  cases scale <;> rfl

lemma onScale_pos (hden : 0 < den) : 0 < (onScale num den scale).2 := by
  rw [onScale_eq]
  exact inUnits_pos two_pos hden scale

lemma onScale_div (num den : Nat) (scale : Int) :
    ((onScale num den scale).1 : ℚ) / (onScale num den scale).2 = num / den / 2 ^ scale := by
  rw [onScale_eq, inUnits_div, Nat.cast_ofNat]

/-- The first binary digit of a ratio, from the first digits of its parts. -/
lemma ratio_bracket (hnum : 0 < num) (hden : 0 < den) :
    (2 : ℚ) ^ ((num.log2 : Int) - den.log2 - 1) ≤ num / den ∧
      (num : ℚ) / den < 2 ^ ((num.log2 : Int) - den.log2 + 1) := by
  have hpos : (0 : ℚ) < den := by exact_mod_cast hden
  have hnumlow : (2 : ℚ) ^ num.log2 ≤ num := by exact_mod_cast Nat.log2_self_le (by omega)
  have hnumhigh : (num : ℚ) < 2 ^ (num.log2 + 1) := by exact_mod_cast Nat.lt_log2_self
  have hdenlow : (2 : ℚ) ^ den.log2 ≤ den := by exact_mod_cast Nat.log2_self_le (by omega)
  have hdenhigh : (den : ℚ) < 2 ^ (den.log2 + 1) := by exact_mod_cast Nat.lt_log2_self
  have hlow : (2 : ℚ) ^ ((num.log2 : Int) - den.log2 - 1) = 2 ^ num.log2 / 2 ^ (den.log2 + 1) := by
    rw [sub_sub, ← Nat.cast_succ, zpow_sub₀ (by norm_num), zpow_natCast, zpow_natCast]
  have hhigh : (2 : ℚ) ^ ((num.log2 : Int) - den.log2 + 1) = 2 ^ (num.log2 + 1) / 2 ^ den.log2 := by
    rw [sub_add_eq_add_sub, ← Nat.cast_succ, zpow_sub₀ (by norm_num), zpow_natCast, zpow_natCast]
  rw [hlow, hhigh]
  constructor
  · rw [div_le_div_iff₀ (by positivity) hpos]
    calc (2 : ℚ) ^ num.log2 * den ≤ num * den := by gcongr
      _ ≤ num * 2 ^ (den.log2 + 1) := by gcongr
  · rw [div_lt_div_iff₀ hpos (by positivity)]
    calc (num : ℚ) * 2 ^ den.log2 ≤ num * den := by gcongr
      _ < 2 ^ (num.log2 + 1) * den := by gcongr

lemma floorLog_bracket (hnum : 0 < num) (hden : 0 < den) :
    (2 : ℚ) ^ floorLog num den ≤ num / den ∧ (num : ℚ) / den < 2 ^ (floorLog num den + 1) := by
  obtain ⟨hlow, hhigh⟩ := ratio_bracket hnum hden
  have hpos : (0 : ℚ) < (onScale num den (num.log2 - den.log2)).2 := by
    exact_mod_cast onScale_pos hden
  have hdiv := onScale_div num den (num.log2 - den.log2)
  have hpower : (0 : ℚ) < 2 ^ ((num.log2 : Int) - den.log2) := zpow_pos (by norm_num) _
  unfold floorLog
  dsimp only
  split
  · next h =>
    have hone : (1 : ℚ) ≤ num / den / 2 ^ ((num.log2 : Int) - den.log2) := by
      rw [← hdiv, one_le_div hpos]
      exact_mod_cast h
    rw [one_le_div hpower] at hone
    exact ⟨hone, hhigh⟩
  · next h =>
    have hone : (num : ℚ) / den / 2 ^ ((num.log2 : Int) - den.log2) < 1 := by
      rw [← hdiv, div_lt_one hpos]
      exact_mod_cast Nat.lt_of_not_le h
    rw [div_lt_one hpower] at hone
    rw [sub_add_cancel]
    exact ⟨hlow, hone⟩

/-- On its grid a ratio has at most 53 binary digits. -/
lemma onScale_le {k : Nat} (hden : 0 < den) (h : (num : ℚ) / den ≤ k * 2 ^ scale) :
    (onScale num den scale).1 ≤ (onScale num den scale).2 * k := by
  have hpos : (0 : ℚ) < (onScale num den scale).2 := by exact_mod_cast onScale_pos hden
  have hpower : (0 : ℚ) < 2 ^ scale := zpow_pos (by norm_num) _
  rw [← div_le_iff₀ hpower, ← onScale_div, div_le_iff₀ hpos, mul_comm] at h
  exact_mod_cast h

/-- The mantissa that a ratio has on its grid. -/
def gridMantissa (num den : Nat) : Nat :=
  roundDiv (onScale num den (gridScale num den)).1 (onScale num den (gridScale num den)).2

lemma gridMantissa_le (hnum : 0 < num) (hden : 0 < den) : gridMantissa num den ≤ 2 ^ 53 := by
  have hhigh := (floorLog_bracket hnum hden).2
  have hscale : floorLog num den - 52 ≤ gridScale num den := le_max_left _ _
  refine roundDiv_le (onScale_pos hden) (onScale_le hden (hhigh.le.trans ?_))
  calc (2 : ℚ) ^ (floorLog num den + 1) ≤ 2 ^ (53 + gridScale num den) :=
        zpow_le_zpow_right₀ one_le_two (by omega)
    _ = ((2 ^ 53 : Nat) : ℚ) * 2 ^ gridScale num den := by
        rw [zpow_add₀ two_ne_zero]
        norm_num

/-- The greatest double is the nearest one to all ratios that are not greater. -/
theorem bitsOfRatio_lt (hnum : 0 < num) (hden : 0 < den)
    (h : num ≤ den * ((2 ^ 53 - 1) * 2 ^ 971)) : bitsOfRatio num den < 2047 * 2 ^ 52 := by
  have hlow := (floorLog_bracket hnum hden).1
  have hpos : (0 : ℚ) < den := by exact_mod_cast hden
  have hratio : (num : ℚ) / den ≤ ((2 ^ 53 - 1 : Nat) : ℚ) * 2 ^ (971 : Int) := by
    rw [div_le_iff₀ hpos, mul_comm]
    exact_mod_cast h
  have hfloor : floorLog num den < 1024 := by
    have hlt : (2 : ℚ) ^ floorLog num den < 2 ^ (1024 : Int) := by
      calc (2 : ℚ) ^ floorLog num den ≤ ((2 ^ 53 - 1 : Nat) : ℚ) * 2 ^ (971 : Int) :=
            hlow.trans hratio
        _ < 2 ^ (53 : Int) * 2 ^ (971 : Int) := by
            gcongr
            norm_num
        _ = 2 ^ (1024 : Int) := by
            rw [← zpow_add₀ (by norm_num)]
            norm_num
    exact (zpow_lt_zpow_iff_right₀ (by norm_num)).1 hlt
  have hscale : floorLog num den - 52 ≤ gridScale num den := le_max_left _ _
  have hgrid : gridScale num den ≤ 971 := max_le (by omega) (by decide)
  have hmantissa : roundDiv (onScale num den (gridScale num den)).1
      (onScale num den (gridScale num den)).2 ≤ 2 ^ 53 := gridMantissa_le hnum hden
  -- on the coarsest grid a full mantissa would already be infinite, so there the bound counts
  have htop : gridScale num den = 971 → roundDiv (onScale num den (gridScale num den)).1
      (onScale num den (gridScale num den)).2 ≤ 2 ^ 53 - 1 := by
    intro heq
    rw [heq]
    exact roundDiv_le (onScale_pos hden) (onScale_le hden hratio)
  have hwidth : twoTo 52 = 2 ^ 52 := rfl
  rw [bitsOfRatio_eq, hwidth]
  omega

/-- The double nearest to a ratio is finite if the ratio is not greater than the greatest double. -/
theorem isFinite_ofRatio (negative : Bool) (hden : 0 < den)
    (h : num ≤ den * ((2 ^ 53 - 1) * 2 ^ 971)) : (ofRatio negative num den).isFinite = true := by
  have hbits : (if num = 0 then 0 else bitsOfRatio num den) < 2047 * 2 ^ 52 := by
    split
    · decide
    · next hnum => exact bitsOfRatio_lt (Nat.pos_of_ne_zero hnum) hden h
  unfold ofRatio
  dsimp only
  generalize (if num = 0 then 0 else bitsOfRatio num den) = bits at hbits
  refine isFinite_ofBits ?_
  have hsign : (if negative = true then twoTo 63 else 0) = 0 ∨
      (if negative = true then twoTo 63 else 0) = 2 ^ 63 := by
    cases negative
    · exact .inl rfl
    · exact .inr rfl
  rw [UInt64.toNat_ofNat']
  omega

end Binary64

namespace Decimal

open Binary64
open Numeral (twoTo tenTo)

lemma ratio_pos (m : Nat) (e : Int) : 0 < (ratio m e).2 := by
  cases e with
  | ofNat k => exact Nat.one_pos
  | negSucc k => exact Nat.two_pow_pos _

lemma ratio_le {m k p : Nat} {e : Int} (hm : m ≤ k) (he : e ≤ p) :
    (ratio m e).1 ≤ (ratio m e).2 * (k * 2 ^ p) := by
  cases e with
  | ofNat q =>
    calc m * twoTo q ≤ k * 2 ^ p :=
          Nat.mul_le_mul hm (Nat.pow_le_pow_right (by decide) (Int.ofNat_le.1 he))
      _ = 1 * (k * 2 ^ p) := (Nat.one_mul _).symm
  | negSucc q =>
    calc m ≤ k * 2 ^ p := hm.trans (Nat.le_mul_of_pos_right k (Nat.two_pow_pos p))
      _ ≤ twoTo (q + 1) * (k * 2 ^ p) := Nat.le_mul_of_pos_left _ (Nat.two_pow_pos (q + 1))

lemma ratio_mul_le {m k p : Nat} {e : Int} (t : Nat) (hm : m ≤ k) (he : e ≤ p) :
    (ratio m e).1 * t ≤ (ratio m e).2 * (t * (k * 2 ^ p)) := by
  calc (ratio m e).1 * t ≤ (ratio m e).2 * (k * 2 ^ p) * t :=
        Nat.mul_le_mul_right t (ratio_le hm he)
    _ = (ratio m e).2 * (t * (k * 2 ^ p)) := by rw [Nat.mul_assoc, Nat.mul_comm (k * 2 ^ p)]

/-- A finite double stays finite when it is rounded to decimal places. -/
theorem isFinite_roundPlaces (places : Nat) {x : Float} (h : x.isFinite = true) :
    (roundPlaces places x).isFinite = true := by
  obtain ⟨negative, m, e, hvalue⟩ := value_of_isFinite h
  obtain ⟨hm, he⟩ := bounds_of_value hvalue
  have hten : 0 < tenTo places := Nat.pow_pos (by decide)
  simp only [roundPlaces, hvalue]
  refine isFinite_ofRatio negative hten (roundDiv_le (ratio_pos m e) ?_)
  exact ratio_mul_le (tenTo places) (Nat.le_sub_one_of_lt hm) he

end Decimal

end UmlDrawing
