import UmlDrawing.Proofs.Numeral.Rounding

/-! A tenth of a double. It is a number of the same sign, unless the double is so small that the
nearest one to its tenth is zero. -/
namespace UmlDrawing

namespace Binary64

open Float.Model Float.Model.UnpackedFloat

variable {x : Float} {s : Bool} {m : Nat} {e : Int}

lemma unpack_ten : (10.0 : Float).toModel.unpack = .finite .positive (5 * 2 ^ 50) (-49) (by decide) := by
  rfl

lemma sign_div_positive (s : Sign) : s / .positive = s := by
  cases s <;> rfl

lemma targetExponent_tenth (m : Nat) (e : Int) :
    Format.binary64.targetExponent (totalExponent m e - totalExponent (5 * 2 ^ 50) (-49)) =
      max (m.log2 + e - 56) (-1074) := by
  have hbits : Format.binary64.mantissaBits = 53 := rfl
  have hleast : Format.binary64.minExponent = -1074 := rfl
  have hten : (5 * 2 ^ 50).log2 = 52 := by decide
  rw [Format.targetExponent, totalExponent, totalExponent, hbits, hleast, hten]
  omega

/-- A tenth of a number with 53 binary digits has digits enough before it is rounded. -/
lemma divCore_full (hm : 2 ^ 52 ≤ m) (hlt : m < 2 ^ 53) (hleast : -1074 ≤ e) (hle : e ≤ 971) :
    ∃ q t a, divCore .binary64 m e (5 * 2 ^ 50) (-49) = (q, t, a) ∧ 0 < q ∧ -1074 ≤ t ∧
      (2 ^ 52 ≤ q ∨ t = -1074) ∧ t + (q.log2 - 52 : Nat) ≤ 970 := by
  have hlog : m.log2 = 52 := (Nat.log2_eq_iff (by omega)).2 ⟨hm, hlt⟩
  obtain ⟨t, ht⟩ : ∃ t, t = min (e - -49) (max ((m.log2 : Int) + e - 56) (-1074)) := ⟨_, rfl⟩
  obtain ⟨k, hk⟩ : ∃ k, k = (e - -49 - t).toNat := ⟨_, rfl⟩
  have hlow : m * 2 ^ 49 ≤ m * 2 ^ k :=
    Nat.mul_le_mul_left m (Nat.pow_le_pow_right (by decide) (by omega))
  have hhigh : m * 2 ^ k ≤ m * 2 ^ 53 :=
    Nat.mul_le_mul_left m (Nat.pow_le_pow_right (by decide) (by omega))
  have hquotient : m * 2 ^ k / (5 * 2 ^ 50) < 2 ^ 54 := by omega
  have hdigits := log2_le_of_lt hquotient
  have hcore : divCore .binary64 m e (5 * 2 ^ 50) (-49) = (m * 2 ^ k / (5 * 2 ^ 50), t,
      accuracyOfFraction (m * 2 ^ k % (5 * 2 ^ 50)) (5 * 2 ^ 50)) := by
    rw [divCore, targetExponent_tenth, ← ht, ← hk, Nat.shiftLeft_eq]
  refine ⟨_, _, _, hcore, by omega, by omega, ?_, by omega⟩
  -- above the least exponent the dividend is shifted all the way, and 53 digits are left of it
  by_cases h : t = -1074
  · exact .inr h
  · obtain rfl : k = 53 := by omega
    left
    omega

lemma divCore_small (hm : m < 2 ^ 52) : divCore .binary64 m (-1074) (5 * 2 ^ 50) (-49) =
    (m / 10, -1074, accuracyOfFraction (m * 2 ^ 49 % (5 * 2 ^ 50)) (5 * 2 ^ 50)) := by
  have hlog := log2_le_of_lt (k := 51) hm
  have htarget : min (-1074 - -49 : Int) (max (m.log2 + -1074 - 56) (-1074)) = -1074 := by omega
  have hshift : (-1074 - -49 - -1074 : Int).toNat = 49 := rfl
  have hquotient : m * 2 ^ 49 / (5 * 2 ^ 50) = m / 10 := by omega
  rw [divCore, targetExponent_tenth, htarget, hshift, Nat.shiftLeft_eq, hquotient]

/-- A tenth that is rounded to an integer is zero up to one half. -/
lemma roundToNearestEven_tenth (m : Nat) : (accuracyOfFraction (m * 2 ^ 49 % (5 * 2 ^ 50))
    (5 * 2 ^ 50)).roundToNearestEven (m / 10) = 0 ↔ m ≤ 5 := by
  have hrest : m * 2 ^ 49 % (5 * 2 ^ 50) = m % 10 * 2 ^ 49 := by omega
  rw [hrest, accuracyOfFraction]
  by_cases h0 : m % 10 * 2 ^ 49 = 0
  · rw [if_pos h0]
    change m / 10 = 0 ↔ m ≤ 5
    omega
  · rw [if_neg h0]
    rcases lt_trichotomy (2 * (m % 10 * 2 ^ 49)) (5 * 2 ^ 50) with h | h | h
    · rw [compare_lt_iff_lt.2 h]
      change m / 10 = 0 ↔ m ≤ 5
      omega
    · rw [compare_eq_iff_eq.2 h]
      change m / 10 + m / 10 % 2 = 0 ↔ m ≤ 5
      omega
    · rw [compare_gt_iff_gt.2 h]
      change m / 10 + 1 = 0 ↔ m ≤ 5
      omega

/-- A tenth is a number of the same sign unless the double is one of the few least ones. -/
lemma div_ten (s : Sign) (hm : 0 < m) (h : Canonical m e) :
    (m ≤ 5 ∧ e = -1074 ∧ UnpackedFloat.div .binary64 (.finite s m e hm)
        (.finite .positive (5 * 2 ^ 50) (-49) (by decide)) = .zero s) ∨
      ((5 < m ∨ -1074 < e) ∧ ∃ n f, ∃ hn : 0 < n, UnpackedFloat.div .binary64 (.finite s m e hm)
        (.finite .positive (5 * 2 ^ 50) (-49) (by decide)) = .finite s n f hn ∧ Canonical n f) := by
  obtain ⟨hlt, hleast, hle, hfull⟩ := h
  by_cases hm' : 2 ^ 52 ≤ m
  · obtain ⟨q, t, a, hcore, hq, ht, hdigits, hbound⟩ := divCore_full hm' hlt hleast hle
    refine .inr ⟨.inl (by omega), ?_⟩
    simp only [UnpackedFloat.div, hcore, sign_div_positive]
    exact roundWithAccuracy_of_pos s a hq ht hdigits hbound
  · obtain rfl : e = -1074 := by omega
    have hrounded := roundWithAccuracy_least s
      (accuracyOfFraction (m * 2 ^ 49 % (5 * 2 ^ 50)) (5 * 2 ^ 50)) (by omega : m / 10 < 2 ^ 52)
    have hzero := roundToNearestEven_tenth m
    have hbound := roundToNearestEven_le (m / 10)
      (accuracyOfFraction (m * 2 ^ 49 % (5 * 2 ^ 50)) (5 * 2 ^ 50))
    simp only [UnpackedFloat.div, divCore_small (by omega : m < 2 ^ 52), sign_div_positive, hrounded,
      true_and]
    split
    · next h0 => exact .inl ⟨hzero.1 h0, rfl⟩
    · next h0 =>
      have hm5 : ¬ m ≤ 5 := fun h5 => h0 (hzero.2 h5)
      exact .inr ⟨.inl (by omega), _, _, Nat.pos_of_ne_zero h0, rfl, by omega, by omega, by omega, .inr rfl⟩

lemma unpack_div_ten (x : Float) : (x / 10.0).toModel.unpack = UnpackedFloat.unpack .binary64
    (UnpackedFloat.pack .binary64 (UnpackedFloat.div .binary64 x.toModel.unpack
      (.finite .positive (5 * 2 ^ 50) (-49) (by decide)))) := by
  rw [← unpack_ten]
  rfl

lemma unpack_five_least : (Float.ofBits 5).toModel.unpack =
    .finite .positive 5 (-1074) (by decide) := by
  rfl

/-- A tenth of a double is positive if the double is more than five times the least one. -/
theorem tenth_pos_iff (x : Float) : (0.0 : Float) < x / 10.0 ↔ Float.ofBits 5 < x := by
  rw [lt_iff_compare, lt_iff_compare, unpack_div_ten, Scalar.unpack_zero, unpack_five_least]
  cases h : value x with
  | nan =>
    have hx : x.toModel.unpack = .notANumber := (unpack_eq x).trans (congrArg _ h)
    rw [hx]
    decide
  | infinite s =>
    have hx : x.toModel.unpack = .infinity (signOf s) := (unpack_eq x).trans (congrArg _ h)
    rw [hx]
    cases s <;> decide
  | finite s m e =>
    by_cases hm : m = 0
    · have hx : x.toModel.unpack = .zero (signOf s) := by
        rw [unpack_eq, h]
        exact dif_pos hm
      rw [hx]
      cases s <;> decide
    · have hx : x.toModel.unpack = .finite (signOf s) m e (Nat.pos_of_ne_zero hm) := by
        rw [unpack_eq, h]
        exact dif_neg hm
      have hcanonical := canonical_of_value h
      rw [hx]
      obtain ⟨hm5, rfl, hdiv⟩ | ⟨hmore, n, f, hn, hdiv, hnf⟩ :=
        div_ten (signOf s) (Nat.pos_of_ne_zero hm) hcanonical
      · rw [hdiv]
        have hzero : UnpackedFloat.unpack .binary64 (UnpackedFloat.pack .binary64 (.zero (signOf s))) =
            .zero (signOf s) := by
          cases s <;> rfl
        have hnot : compare 5 m ≠ .lt := fun hlt => by
          have h5 := compare_lt_iff_lt.1 hlt
          omega
        rw [hzero]
        cases s <;> simp [UnpackedFloat.compare, signOf, hnot]
      · have hless : (compare (-1074) e).then (compare 5 m) = .lt := by
          rcases hcanonical.least_le.lt_or_eq with hlt | rfl
          · rw [compare_lt_iff_lt.2 hlt]
            rfl
          · rw [compare_eq_iff_eq.2 rfl, compare_lt_iff_lt.2 (show 5 < m by omega)]
            rfl
        rw [hdiv, unpack_pack hn hnf]
        cases s <;> simp [UnpackedFloat.compare, signOf, hless]

end Binary64

end UmlDrawing
