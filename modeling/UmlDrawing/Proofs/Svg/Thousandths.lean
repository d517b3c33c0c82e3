import UmlDrawing.Proofs.Numeral.SixDigits
import UmlDrawing.Proofs.Svg.Written

/-! What is left of a number in a document. It is rounded to thousandths and then written with six
leading digits, so that it is read back as it was rounded exactly if six digits are enough for it. -/
namespace UmlDrawing

open Binary64
open Numeral (Writes rational?)

/-- A number that six decimal digits before a power of ten are enough for. -/
def SixDigits (r : ℚ) : Prop := ∃ (m : ℕ) (e : ℤ), m < 10 ^ 6 ∧ |r| = m * 10 ^ e

section Rationals

variable {p r : ℚ} {k : ℤ}

@[simp] lemma abs_signed (s : Bool) (r : ℚ) : |signed s r| = |r| := by
  cases s <;> simp [signed]

lemma sixDigits_signed (s : Bool) (r : ℚ) : SixDigits (signed s r) ↔ SixDigits r := by
  simp only [SixDigits, abs_signed]

lemma signed_mul (s : Bool) (c r : ℚ) : signed s (c * r) = c * signed s r := by
  cases s <;> simp [signed]

lemma signed_injective {s : Bool} : Function.Injective (signed s) := by
  cases s
  · exact fun _ _ h => h
  · exact neg_injective

lemma sixDigits_zero : SixDigits 0 := ⟨0, 0, by decide, by simp⟩

lemma sixDigits_of_le {n : ℕ} (hn : n ≤ 10 ^ 6) (k : ℤ) : SixDigits (n * 10 ^ k) := by
  have hpower : (0 : ℚ) < 10 ^ k := zpow_pos (by norm_num) _
  have habs : |(n : ℚ) * 10 ^ k| = n * 10 ^ k := abs_of_nonneg (by positivity)
  obtain hlt | rfl := hn.lt_or_eq
  · exact ⟨n, k, hlt, habs⟩
  · refine ⟨1, k + 6, by decide, habs.trans ?_⟩
    rw [zpow_add₀ (by norm_num)]
    push_cast
    norm_num
    ring

/-- A number with six digits lies on the grid that a number near to it is written on, and it is the
nearest one there. -/
lemma SixDigits.on_grid (hsix : SixDigits r) (hr : 0 < r) (hnear : |r - p| ≤ r * 2 ^ (-53 : ℤ))
    (hlow : (10 : ℚ) ^ k ≤ p) (hhigh : p < 10 ^ (k + 1)) :
    ∃ n : ℕ, r = n * 10 ^ (k - 5) ∧ |p / 10 ^ (k - 5) - n| < 1 / 2 := by
  obtain ⟨m, e, hm, hme⟩ := hsix
  rw [abs_of_pos hr] at hme
  have hgrid : (0 : ℚ) < 10 ^ (k - 5) := zpow_pos (by norm_num) _
  have hfirst : (10 : ℚ) ^ k = 10 ^ 5 * 10 ^ (k - 5) := by
    rw [← zpow_natCast, ← zpow_add₀ (by norm_num)]
    congr 1
    ring
  rw [zpow_add_one₀ (by norm_num), hfirst] at hhigh
  rw [hfirst] at hlow
  have hunit : (2 : ℚ) ^ (-53 : ℤ) = 1 / 9007199254740992 := by norm_num
  rw [hunit, abs_le] at hnear
  -- on a finer grid the digits would not reach the number
  have hexponent : k - 5 ≤ e := by
    by_contra hfine
    have hm' : (m : ℚ) ≤ 10 ^ 6 - 1 := by
      rw [le_sub_iff_add_le]
      exact_mod_cast hm
    have hless : r ≤ (10 ^ 6 - 1) / 10 * 10 ^ (k - 5) := by
      calc r = m * 10 ^ e := hme
        _ ≤ (10 ^ 6 - 1) * 10 ^ (k - 5 - 1) := by
            gcongr
            · norm_num
            · omega
        _ = (10 ^ 6 - 1) / 10 * 10 ^ (k - 5) := by
            rw [zpow_sub_one₀ (by norm_num)]
            ring
    linarith [hnear.1]
  obtain ⟨j, rfl⟩ : ∃ j : ℕ, e = k - 5 + j := ⟨(e - (k - 5)).toNat, by omega⟩
  have heq : r = (m * 10 ^ j : ℕ) * 10 ^ (k - 5) := by
    rw [hme, zpow_add₀ (by norm_num), zpow_natCast]
    push_cast
    ring
  refine ⟨m * 10 ^ j, heq, ?_⟩
  have hdistance : p / 10 ^ (k - 5) - (m * 10 ^ j : ℕ) = (p - r) / 10 ^ (k - 5) := by
    rw [sub_div, heq, mul_div_cancel_right₀ _ hgrid.ne']
  rw [hdistance, abs_lt, lt_div_iff₀ hgrid, div_lt_iff₀ hgrid]
  constructor <;> linarith [hnear.1, hnear.2]

end Rationals

namespace Decimal

variable {s : Bool} {num den : ℕ}

/-- The digits that a number is written with are those of another one near to it exactly if six of them
are enough for that one. -/
lemma gridDigits_mul_eq_iff {r : ℚ} (hden : 0 < den) (hreach : den ≤ num * 10 ^ 400) (hr : 0 < r)
    (hnear : |r - num / den| ≤ r * 2 ^ (-53 : ℤ)) :
    (gridDigits num den (leadingExponent num den - 5) : ℚ) * 10 ^ (leadingExponent num den - 5) = r ↔
      SixDigits r := by
  obtain ⟨hlow, hhigh⟩ := leadingExponent_bracket hden hreach
  constructor
  · rintro rfl
    exact sixDigits_of_le (gridDigits_bounds hden hreach).2 _
  · intro hsix
    obtain ⟨n, hn, hlt⟩ := hsix.on_grid hr hnear hlow hhigh
    have hnearest := isNearest_gridDigits num hden (leadingExponent num den - 5)
    have hsame : (gridDigits num den (leadingExponent num den - 5) : ℤ) = n :=
      hnearest.eq_of_lt (by exact_mod_cast hlt)
    rw [hn, Int.natCast_inj.1 hsame]

/-- The double nearest to a ratio that is no part of a thousandth is read as the ratio if and only if
six digits are enough for it. -/
theorem rational?_general_ofRatio (hden : 0 < den) (hlarge : num = 0 ∨ den ≤ 1000 * num)
    (hfinite : (ofRatio s num den).isFinite = true) :
    rational? (general (ofRatio s num den)) = some (signed s (num / den)) ↔
      SixDigits ((num : ℚ) / den) := by
  obtain rfl | hnum := Nat.eq_zero_or_pos num
  · rw [rational?_general_zero (value_ofRatio_zero s den), Nat.cast_zero, zero_div]
    exact iff_of_true rfl sixDigits_zero
  · have hpos : (0 : ℚ) < num / den := by positivity
    have hnormal : (2 : ℚ) ^ (-1022 : ℤ) ≤ num / den := by
      calc (2 : ℚ) ^ (-1022 : ℤ) ≤ 2 ^ (-10 : ℤ) := zpow_le_zpow_right₀ one_le_two (by decide)
        _ ≤ 1 / 1000 := by norm_num
        _ ≤ num / den := by
            rw [div_le_div_iff₀ (by norm_num) (by exact_mod_cast hden), one_mul, mul_comm]
            exact_mod_cast hlarge.resolve_left hnum.ne'
    obtain ⟨m, e, hvalue, hexact⟩ := value_ofRatio hnum hden hfinite
    have hnear := abs_ofRatio_sub_le hnum hden hnormal
    rw [← hexact] at hnear
    have hm : 0 < m := by
      by_contra hzero
      obtain rfl : m = 0 := by omega
      rw [Nat.cast_zero, zero_mul, sub_zero, abs_of_pos hpos] at hnear
      have hunit : (2 : ℚ) ^ (-53 : ℤ) < 1 := by norm_num
      exact absurd hnear (not_le.2 (mul_lt_of_lt_one_right hpos hunit))
    rw [← ratio_div] at hnear
    rw [rational?_general hvalue hm, Option.some.injEq, signed_injective.eq_iff]
    exact gridDigits_mul_eq_iff (ratio_pos m e)
      (ratio_le_mul hm (canonical_of_value hvalue).least_le) hpos hnear

end Decimal

namespace Svg

variable {a : Scalar} {q : ℚ}

lemma signed_div (s : Bool) (n den : ℕ) :
    signed s (n / den) = ((if s then -(n : ℤ) else n : ℤ) : ℚ) / den := by
  cases s <;> simp [signed, neg_div]

lemma isNearest_signed {n : ℕ} {q : ℚ} (h : IsNearest q n) (s : Bool) :
    IsNearest (signed s q) (if s then -(n : ℤ) else n) := by
  cases s
  · exact h
  · exact h.neg

/-- The double of an integer is the nearest one, and it is finite. -/
lemma exists_ofRatio_of_toFloat {k : ℤ} {x : Float} (h : (Scalar.whole k).toFloat = .ok x) :
    x = ofRatio (decide (k < 0)) k.natAbs 1 ∧ x.isFinite = true := by
  rw [Scalar.toFloat, orFault_eq_ok_iff, ofInt?] at h
  split at h
  · next hfinite =>
    cases h
    exact ⟨rfl, hfinite⟩
  · cases h

/-- What is written for the double nearest to a ratio is read as the ratio if six digits are
enough. -/
lemma reads_ofRatio_iff {s : Bool} {num den : ℕ} (hden : 0 < den)
    (hlarge : num = 0 ∨ den ≤ 1000 * num) (hfinite : (ofRatio s num den).isFinite = true)
    (hnumber : number a = .ok (Decimal.general (ofRatio s num den))) :
    (∃ t, number a = .ok t ∧ rational? t = some (signed s (num / den))) ↔
      SixDigits (signed s (num / den)) := by
  rw [sixDigits_signed, ← Decimal.rational?_general_ofRatio hden hlarge hfinite, hnumber]
  simp

/-- A number is read back from a document as it is once it is rounded to thousandths, a tie going to
the even one, if and only if it can be written at all and six digits are enough for it. -/
theorem number_reads_iff (hq : a.exact = some (q : WithBotTop ℚ)) :
    ∃ n : ℤ, IsNearest (1000 * q) n ∧
      ((∃ t, number a = .ok t ∧ rational? t = some (n / 1000 : ℚ)) ↔
        a.HasDouble ∧ SixDigits (n / 1000)) := by
  cases a with
  | whole k =>
    have hk : (k : ℚ) = q := WithBotTop.coe_injective (Option.some.inj hq)
    have hn : ((1000 * k : ℤ) : ℚ) / 1000 =
        signed (decide (k < 0)) ((k.natAbs : ℕ) / (1 : ℕ)) := by
      have hsign : (if decide (k < 0) = true then -(k.natAbs : ℤ) else k.natAbs) = k := by
        simp only [decide_eq_true_eq]
        split <;> omega
      rw [signed_div, hsign]
      push_cast
      ring
    have hnearest : IsNearest (1000 * q) (1000 * k : ℤ) := by
      rw [← hk]
      exact_mod_cast isNearest_self (1000 * k)
    refine ⟨1000 * k, hnearest, ?_⟩
    rw [hn]
    by_cases hdouble : (Scalar.whole k).HasDouble
    · obtain ⟨x, hx⟩ := hdouble
      obtain ⟨rfl, hfinite⟩ := exists_ofRatio_of_toFloat hx
      have hnumber : number (.whole k) =
          .ok (Decimal.general (ofRatio (decide (k < 0)) k.natAbs 1)) := by
        simp only [number, Scalar.thousandths, hx]
        rfl
      rw [reads_ofRatio_iff Nat.one_pos (by omega) hfinite hnumber, and_iff_right ⟨_, hx⟩]
    · refine iff_of_false ?_ fun h => hdouble h.1
      rintro ⟨t, ht, -⟩
      exact hdouble (hasDouble_of_number ht)
  | real x =>
    obtain ⟨s, m, e, hvalue, rfl⟩ := finite_of_exact hq
    have hround : Decimal.roundPlaces 3 x =
        ofRatio s (roundDiv ((ratio m e).1 * 1000) (ratio m e).2) 1000 := by
      simp only [Decimal.roundPlaces, hvalue]
    have hfinite := Decimal.isFinite_roundPlaces 3 (isFinite_of_value hvalue)
    have hnumber : number (.real x) = .ok (Decimal.general (Decimal.roundPlaces 3 x)) := rfl
    rw [hround] at hfinite hnumber
    have hnearest := isNearest_signed (isNearest_roundDiv ((ratio m e).1 * 1000)
      (Decimal.ratio_pos m e)) s
    have hquotient : signed s (((ratio m e).1 * 1000 : ℕ) / (ratio m e).2) =
        1000 * signed s (m * 2 ^ e) := by
      rw [← signed_mul, ← ratio_div]
      push_cast
      congr 1
      ring
    rw [hquotient] at hnearest
    refine ⟨_, hnearest, ?_⟩
    have hreads := reads_ofRatio_iff (by decide) (by omega) hfinite hnumber
    rw [signed_div] at hreads
    rw [and_iff_right ⟨_, rfl⟩]
    exact hreads

lemma exact_sixteenth : (Scalar.real 0.0625).exact = some ((1 / 16 : ℚ) : WithBotTop ℚ) := by
  have hvalue : value 0.0625 = .finite false (2 ^ 52) (-56) := by rfl
  have hexact : signed false ((2 ^ 52 : ℕ) * 2 ^ (-56 : ℤ)) = 1 / 16 := by
    simp only [signed, Bool.false_eq_true, if_false]
    norm_num
  rw [Scalar.exact, hvalue, Value.exact, hexact]

/-- A sixteenth lies between two thousandths and is written as the even one. -/
theorem number_reads_sixteenth :
    (Scalar.real 0.0625).exact = some ((1 / 16 : ℚ) : WithBotTop ℚ) ∧
      ∃ t, number (.real 0.0625) = .ok t ∧ rational? t = some (62 / 1000) := by
  refine ⟨exact_sixteenth, ?_⟩
  obtain ⟨n, ⟨hnear, heven⟩, hreads⟩ := number_reads_iff exact_sixteenth
  obtain rfl : n = 62 := by
    have hbounds := abs_le.1 hnear
    have hlow : (62 : ℚ) ≤ n := by linarith [hbounds.2]
    have hhigh : (n : ℚ) ≤ 63 := by linarith [hbounds.1]
    have hlow' : 62 ≤ n := by exact_mod_cast hlow
    have hhigh' : n ≤ 63 := by exact_mod_cast hhigh
    obtain h | rfl : n = 62 ∨ n = 63 := by omega
    · exact h
    · exact absurd (heven (by norm_num)) (by decide)
  have hsix : SixDigits ((62 : ℤ) / 1000) := ⟨62, -3, by decide, by norm_num⟩
  have hread := hreads.2 ⟨⟨_, rfl⟩, hsix⟩
  rwa [Int.cast_ofNat] at hread

/-- The last digit of a million and one is lost. -/
theorem number_million_and_one :
    (Scalar.whole 1000001).exact = some ((1000001 : ℚ) : WithBotTop ℚ) ∧
      ∃ t, number (.whole 1000001) = .ok t ∧ rational? t = some 1000000 := by
  have hnumber : number (.whole 1000001) = .ok "1e+06".toList := by rfl
  refine ⟨by simp [Scalar.exact], _, hnumber, ?_⟩
  have hdigit : ∀ c ∈ ['1'], c.isDigit = true := by simp
  have hvalue : Numeral.valueOf (['1'] ++ []) = 1 := by rfl
  have hwrites : Writes "1e+06".toList 1000000 := by
    refine ⟨['1'], [], Decimal.powerMark 6, 6, by rfl, by simp, hdigit, by simp, .scaled 6, ?_⟩
    rw [hvalue]
    norm_num
  exact hwrites.rational?_withSign false

end Svg

end UmlDrawing
