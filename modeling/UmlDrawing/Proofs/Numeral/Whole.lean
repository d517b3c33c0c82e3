import UmlDrawing.Proofs.Numeral.Rounding

/-! Doubles that are positive integers. They are the doubles that these integers are turned into,
rounding them up gives the integers, and doubling them gives the double of twice the integer. -/
namespace UmlDrawing

namespace Binary64

open Float.Model Float.Model.UnpackedFloat
open Numeral (twoTo)

variable {x : Float} {m n : Nat} {e : Int}

lemma least_exponent (hn : 0 < n) (hm : m < 2 ^ 53) (h : (m : ℚ) * 2 ^ e = n) : -53 < e := by
  by_contra hle
  have hone : (1 : ℚ) ≤ n := by exact_mod_cast hn
  have hless : (m : ℚ) * 2 ^ e < 1 := by
    calc (m : ℚ) * 2 ^ e ≤ m * 2 ^ (-53 : Int) := by
          gcongr
          · exact one_le_two
          · omega
      _ < 2 ^ 53 * 2 ^ (-53 : Int) := by
          gcongr
          exact_mod_cast hm
      _ = 1 := by norm_num
  linarith

/-- A double that is a positive integer has all 53 binary digits. -/
lemma value_of_exact (hn : 0 < n) (hx : (value x).exact = some ((n : ℚ) : WithBotTop ℚ)) :
    ∃ m e, value x = .finite false m e ∧ (m : ℚ) * 2 ^ e = n ∧ 2 ^ 52 ≤ m ∧ Canonical m e := by
  obtain ⟨s, m, e, hvalue, hexact⟩ := finite_of_exact hx
  have hcanonical := canonical_of_value hvalue
  have hpos : (0 : ℚ) < n := by exact_mod_cast hn
  have hnonneg : (0 : ℚ) ≤ m * 2 ^ e := by positivity
  cases s with
  | true =>
    simp only [signed, if_true] at hexact
    linarith
  | false =>
    have hleast := least_exponent hn hcanonical.mantissa_lt hexact
    exact ⟨m, e, hvalue, hexact, hcanonical.full_or_least.resolve_right (by omega), hcanonical⟩

lemma floorLog_of_eq (hm : 2 ^ 52 ≤ m) (hlt : m < 2 ^ 53) (h : (m : ℚ) * 2 ^ e = n) :
    floorLog n 1 = e + 52 := by
  have hmlow : (2 : ℚ) ^ 52 ≤ m := by exact_mod_cast hm
  have hmhigh : (m : ℚ) < 2 ^ 53 := by exact_mod_cast hlt
  have hn : 0 < n := by
    have hpos : (0 : ℚ) < n := by
      rw [← h]
      positivity
    exact_mod_cast hpos
  obtain ⟨hlow, hhigh⟩ := floorLog_bracket hn Nat.one_pos
  rw [Nat.cast_one, div_one, ← h] at hlow hhigh
  have hle : floorLog n 1 < e + 53 := by
    refine (zpow_lt_zpow_iff_right₀ (one_lt_two (α := ℚ))).1 (hlow.trans_lt ?_)
    rw [zpow_add₀ two_ne_zero, mul_comm]
    gcongr
    exact_mod_cast hmhigh
  have hge : e + 52 < floorLog n 1 + 1 := by
    refine (zpow_lt_zpow_iff_right₀ (one_lt_two (α := ℚ))).1 (lt_of_le_of_lt ?_ hhigh)
    rw [zpow_add₀ two_ne_zero, mul_comm]
    gcongr
    exact_mod_cast hmlow
  omega

lemma roundDiv_mul_self (m : Nat) {d : Nat} (hd : 0 < d) : roundDiv (m * d) d = m := by
  simp [roundDiv, Nat.mul_div_cancel m hd, hd]

/-- The bits of the double nearest to an integer that is a double. -/
lemma bitsOfRatio_exact (h : Canonical m e) (hm : 2 ^ 52 ≤ m) (hn : (m : ℚ) * 2 ^ e = n) :
    bitsOfRatio n 1 = (e + 1074).toNat * 2 ^ 52 + m := by
  have hscale : gridScale n 1 = e := by
    rw [gridScale, floorLog_of_eq hm h.mantissa_lt hn]
    have := h.least_le
    omega
  have hquotient : (onScale n 1 e).1 = m * (onScale n 1 e).2 := by
    have hpos : (0 : ℚ) < (onScale n 1 e).2 := by exact_mod_cast onScale_pos Nat.one_pos
    have hdiv := onScale_div n 1 e
    rw [← hn, Nat.cast_one, div_one, mul_div_assoc, div_self (zpow_ne_zero e two_ne_zero), mul_one,
      div_eq_iff hpos.ne'] at hdiv
    exact_mod_cast hdiv
  have hwidth : twoTo 52 = 2 ^ 52 := rfl
  have hmlt := h.mantissa_lt
  have hle := h.le_greatest
  rw [bitsOfRatio_eq, hscale, hquotient, roundDiv_mul_self m (onScale_pos Nat.one_pos), hwidth]
  omega

/-- A double that is a positive integer is the one that the integer is turned into. -/
theorem ofInt?_of_exact (hn : 0 < n) (hx : (value x).exact = some ((n : ℚ) : WithBotTop ℚ)) :
    ofInt? n = some x := by
  obtain ⟨m, e, hvalue, hexact, hm, hcanonical⟩ := value_of_exact hn hx
  have hbits : x.toBits.toNat = bitsOfRatio n 1 := by
    rw [bitsOfRatio_exact hcanonical hm hexact, bits_of_valueOfBits x.toBits.toNat_lt hvalue]
    simp
  have hround : value (ofRatio false n 1) = .finite false m e := by
    simp only [ofRatio, hn.ne', if_false, Bool.false_eq_true, Nat.add_zero, value_ofBits, ← hbits,
      UInt64.ofNat_toNat]
    exact hvalue
  have hsame : ofRatio false n 1 = x := eq_of_value (hround.trans hvalue.symm)
  have hfinite : x.isFinite = true := isFinite_of_value hvalue
  have hsign : decide ((n : Int) < 0) = false := decide_eq_false (by omega)
  simp only [ofInt?, hsign, Int.natAbs_natCast, hsame, hfinite, if_true]

lemma unpack_two : (2.0 : Float).toModel.unpack = .finite .positive (2 ^ 52) (-51) (by decide) := by
  rfl

/-- Doubling adds one to the exponent, which may be too large then. -/
lemma mul_two_eq (hvalue : value x = .finite false m e) (hpos : 0 < m) (hm : 2 ^ 52 ≤ m)
    (hlt : m < 2 ^ 53) (he : -53 < e) :
    x * 2.0 = .ofModel (Float.Model.pack (.finite .positive m (e + 1) hpos)) := by
  have hunpacked : x.toModel.unpack = .finite .positive m e hpos := by
    rw [unpack_eq, hvalue]
    exact dif_neg hpos.ne'
  have hround := roundWithAccuracy_exact (k := 52) .positive hm hlt (show -1074 ≤ e + -51 by omega)
  have hexponent : e + -51 + (52 : Nat) = e + 1 := by omega
  simp only [hexponent] at hround
  rw [← hround]
  change Float.ofModel (Float.Model.pack (UnpackedFloat.mul .binary64 x.toModel.unpack
    (2.0 : Float).toModel.unpack)) = _
  rw [hunpacked, unpack_two]
  rfl

/-- Twice a double that is a positive integer is twice the integer, unless it is too large. -/
theorem value_twice (hn : 0 < n) (hx : (value x).exact = some ((n : ℚ) : WithBotTop ℚ)) :
    (value (x * 2.0)).exact = some (((2 * n : Nat) : ℚ) : WithBotTop ℚ) ∨
      value (x * 2.0) = .infinite false ∧ 2 ^ 1000 < n := by
  obtain ⟨m, e, hvalue, hexact, hm, hcanonical⟩ := value_of_exact hn hx
  obtain ⟨hlt, -, hle, -⟩ := hcanonical
  have hleast := least_exponent hn hlt hexact
  rw [mul_two_eq hvalue (by omega) hm hlt hleast]
  -- above the greatest exponent there is no double, and an integer with it is above 2 ^ 1000
  obtain hle | rfl : e ≤ 970 ∨ e = 971 := by omega
  · left
    have hfits : (Value.finite false m (e + 1)).Fits := ⟨hlt, by omega, by omega, .inl hm⟩
    have htwice := value_pack hfits
    rw [Value.unpacked, dif_neg (by omega)] at htwice
    have hdouble : (m : ℚ) * 2 ^ (e + 1) = ((2 * n : Nat) : ℚ) := by
      rw [zpow_add_one₀ two_ne_zero, ← mul_assoc, hexact]
      push_cast
      ring
    refine (congrArg Value.exact htwice).trans ?_
    rw [Value.exact, signed, if_neg Bool.false_ne_true, hdouble]
  · right
    have hinfinite : Float.Model.pack (.finite .positive m (971 + 1) (by omega)) =
        Float.Model.pack (Value.infinite false).unpacked := rfl
    refine ⟨?_, ?_⟩
    · rw [hinfinite]
      exact value_pack (v := .infinite false) trivial
    · have hlow : (2 : ℚ) ^ (1000 : Int) < n := by
        rw [← hexact]
        calc (2 : ℚ) ^ (1000 : Int) < 2 ^ (52 : Int) * 2 ^ (971 : Int) := by
              rw [← zpow_add₀ two_ne_zero]
              exact zpow_lt_zpow_right₀ one_lt_two (by decide)
          _ ≤ (m : ℚ) * 2 ^ (971 : Int) := by
              gcongr
              exact_mod_cast hm
      exact_mod_cast hlow

end Binary64

namespace Scalar

open Binary64

/-- Nothing is rounded up where a number is an integer. -/
theorem ceil_of_exact {a : Scalar} {n : Int} (h : exact a = some ((n : ℚ) : WithBotTop ℚ)) :
    ceil a = .ok n := by
  cases a with
  | whole k =>
    have hk : (k : ℚ) = n := WithBotTop.coe_injective (Option.some.inj h)
    exact congrArg Except.ok (by exact_mod_cast hk)
  | real x =>
    obtain ⟨s, m, e, hvalue, hexact⟩ := finite_of_exact h
    have hden := Decimal.ratio_pos m e
    rw [signed_ratio, div_eq_iff (by exact_mod_cast hden.ne')] at hexact
    simp only [ceil, toInt, hvalue]
    generalize ratio m e = r at hden hexact
    obtain ⟨num, den⟩ := r
    cases s with
    | true =>
      have hnum : (num : Int) = -n * den := by
        have hneg : -(num : ℚ) = n * den := hexact
        have hcast : (num : ℚ) = ((-n * den : Int) : ℚ) := by
          push_cast
          linarith
        exact_mod_cast hcast
      have hquotient : ((num / den : Nat) : Int) = -n := by
        rw [Int.natCast_div, hnum, Int.mul_ediv_cancel _ (by omega)]
      simp only [hquotient, if_true, neg_neg]
    | false =>
      have hnum : (num : Int) = n * den := by exact_mod_cast hexact
      have hquotient : (((num + den - 1) / den : Nat) : Int) = n := by
        rw [Int.natCast_div, Int.natCast_sub (by omega), Int.natCast_add, hnum, Int.add_sub_assoc,
          Int.mul_comm, Int.mul_add_ediv_left, Int.ediv_eq_zero_of_lt (by omega) (by omega), add_zero]
        omega
      simp only [hquotient, Bool.false_eq_true, if_false]

end Scalar

end UmlDrawing
