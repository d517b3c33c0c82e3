import UmlDrawing.Proofs.Numeral.Value

/-! Numbers are compared as the exact numbers that they stand for. A finite double fills its mantissa
up, unless its exponent is the least one, so that of two doubles the one with the greater exponent is
the greater number, and the mantissas only decide between equal exponents. -/
namespace UmlDrawing

namespace Binary64

open Float.Model Float.Model.UnpackedFloat
open Numeral (twoTo)

/-- A rational number with a sign of its own. -/
def signed (negative : Bool) (q : ℚ) : ℚ := if negative then -q else q

namespace Value

/-- The number that a value is, with two infinite ones at the ends. -/
def exact : Value → Option (WithBotTop ℚ)
  | .nan => none
  | .infinite s => some (if s then ⊥ else ⊤)
  | .finite s m e => some (signed s (m * 2 ^ e) : ℚ)

end Value

section Magnitude

variable {m n : Nat} {e f : Int}

/-- Of two numbers with 53 binary digits the one with the greater exponent is greater. -/
lemma mul_zpow_lt (hm : Canonical m e) (hn : Canonical n f) (h : e < f) :
    (m : ℚ) * 2 ^ e < n * 2 ^ f := by
  have hleast := hm.least_le
  have hfull : 2 ^ 52 ≤ n := hn.full_or_least.resolve_right (by omega)
  have hmlt : (m : ℚ) < 2 ^ 53 := by exact_mod_cast hm.mantissa_lt
  have hnle : (2 : ℚ) ^ 52 ≤ n := by exact_mod_cast hfull
  calc (m : ℚ) * 2 ^ e < 2 ^ 53 * 2 ^ e := by gcongr
    _ = 2 ^ 52 * 2 ^ (e + 1) := by
        rw [zpow_add_one₀ (by norm_num)]
        ring
    _ ≤ 2 ^ 52 * 2 ^ f := by
        gcongr
        · norm_num
        · omega
    _ ≤ n * 2 ^ f := by gcongr

lemma compare_exponents (hm : Canonical m e) (hn : Canonical n f) :
    (compare e f).then (compare m n) = cmp ((m : ℚ) * 2 ^ e) (n * 2 ^ f) := by
  rcases lt_trichotomy e f with h | rfl | h
  · rw [compare_lt_iff_lt.2 h, (cmp_eq_lt_iff _ _).2 (mul_zpow_lt hm hn h)]
    rfl
  · have hmono : StrictMono fun k : Nat => (k : ℚ) * 2 ^ e := by
      intro k l hkl
      have hcast : (k : ℚ) < l := by exact_mod_cast hkl
      dsimp only
      gcongr
    rw [compare_eq_iff_eq.2 rfl, hmono.cmp_map_eq, cmp_eq_compare]
    rfl
  · rw [compare_gt_iff_gt.2 h, (cmp_eq_gt_iff _ _).2 (mul_zpow_lt hn hm h)]
    rfl

lemma compare_finite (hm : Canonical m e) (hn : Canonical n f) (s t : Bool) :
    (Value.finite s m e).unpacked.compare (Value.finite t n f).unpacked =
      some (cmp (signed s (m * 2 ^ e)) (signed t (n * 2 ^ f))) := by
  have hneg : StrictAnti fun q : ℚ => -q := fun p q h => neg_lt_neg h
  have hpower (k : Int) : (0 : ℚ) < 2 ^ k := zpow_pos (by norm_num) k
  have hpos {k : Nat} (hk : k ≠ 0) (l : Int) : 0 < (k : ℚ) * 2 ^ l :=
    mul_pos (by exact_mod_cast Nat.pos_of_ne_zero hk) (hpower l)
  simp only [Value.unpacked, signed]
  by_cases hm0 : m = 0 <;> by_cases hn0 : n = 0
  · subst hm0 hn0
    simp [UnpackedFloat.compare]
  · subst hm0
    have hlt := hpos hn0 f
    cases t
    · simp [UnpackedFloat.compare, hn0, signOf, (cmp_eq_lt_iff _ _).2 hlt]
    · simp [UnpackedFloat.compare, hn0, signOf, (cmp_eq_gt_iff _ _).2 (neg_neg_of_pos hlt)]
  · subst hn0
    have hlt := hpos hm0 e
    cases s
    · simp [UnpackedFloat.compare, hm0, signOf, (cmp_eq_gt_iff _ _).2 hlt]
    · simp [UnpackedFloat.compare, hm0, signOf, (cmp_eq_lt_iff _ _).2 (neg_neg_of_pos hlt)]
  · have hcompare := compare_exponents hm hn
    have hlt : -((m : ℚ) * 2 ^ e) < n * 2 ^ f := by linarith [hpos hm0 e, hpos hn0 f]
    have hgt : -((n : ℚ) * 2 ^ f) < m * 2 ^ e := by linarith [hpos hm0 e, hpos hn0 f]
    cases s <;> cases t
    · simp [UnpackedFloat.compare, hm0, hn0, signOf, hcompare]
    · simp [UnpackedFloat.compare, hm0, hn0, signOf, (cmp_eq_gt_iff _ _).2 hgt]
    · simp [UnpackedFloat.compare, hm0, hn0, signOf, (cmp_eq_lt_iff _ _).2 hlt]
    · simp [UnpackedFloat.compare, hm0, hn0, signOf, hcompare, hneg.cmp_map_eq, cmp_swap]

end Magnitude

namespace Value

/-- Doubles are compared as the numbers that they stand for. -/
theorem compare_unpacked {v w : Value} (hv : v.Fits) (hw : w.Fits) :
    v.unpacked.compare w.unpacked = v.exact.bind fun p => w.exact.map (cmp p) := by
  have hbot (q : ℚ) : (⊥ : WithBotTop ℚ) < q := bot_lt_iff_ne_bot.2 (WithBotTop.coe_ne_bot q)
  have htop (q : ℚ) : (q : WithBotTop ℚ) < ⊤ := lt_top_iff_ne_top.2 (WithBotTop.coe_ne_top q)
  cases v with
  | nan => cases w <;> rfl
  | infinite s =>
    cases w with
    | nan => cases s <;> rfl
    | infinite t => cases s <;> cases t <;> rfl
    | finite t n f =>
      by_cases hn : n = 0 <;> cases s <;>
        simp [unpacked, exact, UnpackedFloat.compare, signOf, hn, (cmp_eq_gt_iff _ _).2 (htop _),
          (cmp_eq_lt_iff _ _).2 (hbot _)]
  | finite s m e =>
    cases w with
    | nan => by_cases hm : m = 0 <;> simp [unpacked, exact, UnpackedFloat.compare, hm]
    | infinite t =>
      by_cases hm : m = 0 <;> cases s <;> cases t <;>
        simp [unpacked, exact, UnpackedFloat.compare, signOf, hm, (cmp_eq_lt_iff _ _).2 (htop _),
          (cmp_eq_gt_iff _ _).2 (hbot _)]
    | finite t n f =>
      rw [compare_finite hv hw]
      exact congrArg some (WithBotTop.coe_strictMono.cmp_map_eq _ _).symm

end Value

lemma finite_of_exact {v : Value} {q : ℚ} (h : v.exact = some (q : WithBotTop ℚ)) :
    ∃ s m e, v = .finite s m e ∧ signed s (m * 2 ^ e) = q := by
  cases v with
  | nan => cases h
  | infinite s =>
    cases s
    · exact absurd (Option.some.inj h).symm (WithBotTop.coe_ne_top q)
    · exact absurd (Option.some.inj h).symm (WithBotTop.coe_ne_bot q)
  | finite s m e => exact ⟨s, m, e, rfl, WithBotTop.coe_injective (Option.some.inj h)⟩

lemma canonical_unique {m n : Nat} {e f : Int} (hm : Canonical m e) (hn : Canonical n f)
    (h : (m : ℚ) * 2 ^ e = n * 2 ^ f) : m = n ∧ e = f := by
  rcases lt_trichotomy e f with hlt | rfl | hlt
  · exact absurd h (mul_zpow_lt hm hn hlt).ne
  · have hpower : (2 : ℚ) ^ e ≠ 0 := (zpow_pos (by norm_num) e).ne'
    exact ⟨by exact_mod_cast mul_right_cancel₀ hpower h, rfl⟩
  · exact absurd h (mul_zpow_lt hn hm hlt).ne'

lemma exact_eq_bot {v : Value} : v.exact = some ⊥ ↔ v = .infinite true := by
  rcases v with _ | s | ⟨s, m, e⟩
  · simp [Value.exact]
  · cases s <;> simp [Value.exact]
  · simp [Value.exact]

lemma exact_eq_top {v : Value} : v.exact = some ⊤ ↔ v = .infinite false := by
  rcases v with _ | s | ⟨s, m, e⟩
  · simp [Value.exact]
  · cases s <;> simp [Value.exact, eq_comm]
  · simp [Value.exact]

/-- The sign and the magnitude of a number that is not zero. -/
lemma eq_of_signed {s : Bool} {p q : ℚ} (hq : q ≠ 0) (hp : 0 ≤ p) (h : signed s p = q) :
    s = decide (q < 0) ∧ p = |q| := by
  subst h
  have hpos : 0 < p := hp.lt_of_ne' fun h0 => hq (by cases s <;> simp [signed, h0])
  cases s <;> simp [signed, hp, hpos, abs_of_nonneg]

/-- Every number but zero has at most one double. -/
theorem eq_of_exact {x y : Float} {p : WithBotTop ℚ} (hp : p ≠ ((0 : ℚ) : WithBotTop ℚ))
    (hx : (value x).exact = some p) (hy : (value y).exact = some p) : x = y := by
  refine eq_of_value ?_
  induction p using WithBotTop.rec with
  | bot => rw [exact_eq_bot.1 hx, exact_eq_bot.1 hy]
  | top => rw [exact_eq_top.1 hx, exact_eq_top.1 hy]
  | coe q =>
    have hq : q ≠ 0 := by
      rintro rfl
      exact hp rfl
    obtain ⟨s, m, e, hvx, hs⟩ := finite_of_exact hx
    obtain ⟨t, n, f, hvy, ht⟩ := finite_of_exact hy
    obtain ⟨rfl, hmq⟩ := eq_of_signed hq (by positivity) hs
    obtain ⟨rfl, hnq⟩ := eq_of_signed hq (by positivity) ht
    obtain ⟨rfl, rfl⟩ := canonical_unique (canonical_of_value hvx) (canonical_of_value hvy)
      (hmq.trans hnq.symm)
    rw [hvx, hvy]

lemma ratio_div (m : Nat) (e : Int) : ((ratio m e).1 : ℚ) / (ratio m e).2 = m * 2 ^ e := by
  cases e with
  | ofNat k => simp [ratio]
  | negSucc k => simp [ratio, zpow_negSucc, div_eq_mul_inv]

/-- The exact number of a finite double as a fraction of integers. -/
lemma signed_ratio (s : Bool) (m : Nat) (e : Int) :
    signed s (m * 2 ^ e) = ((if s then -((ratio m e).1 : Int) else (ratio m e).1 : Int) : ℚ) /
      (ratio m e).2 := by
  rw [← ratio_div, signed]
  cases s <;> simp [neg_div]

section Fractions

variable {n k : Int} {d : Nat}

lemma mul_lt_iff_lt_div (hd : 0 < d) : n * d < k ↔ (n : ℚ) < k / d := by
  rw [lt_div_iff₀ (by exact_mod_cast hd)]
  exact_mod_cast Iff.rfl

lemma lt_mul_iff_div_lt (hd : 0 < d) : k < n * d ↔ (k : ℚ) / d < n := by
  rw [div_lt_iff₀ (by exact_mod_cast hd)]
  exact_mod_cast Iff.rfl

lemma mul_eq_iff_eq_div (hd : 0 < d) : n * d = k ↔ (n : ℚ) = k / d := by
  rw [eq_div_iff (by exact_mod_cast hd.ne')]
  exact_mod_cast Iff.rfl

end Fractions

lemma compare_eq (x y : Float) : x.toModel.unpack.compare y.toModel.unpack =
    (value x).exact.bind fun p => (value y).exact.map (cmp p) := by
  rw [unpack_eq, unpack_eq, Value.compare_unpacked (fits_value x) (fits_value y)]

lemma lt_iff_compare (x y : Float) :
    x < y ↔ x.toModel.unpack.compare y.toModel.unpack = some .lt :=
  Iff.trans ⟨fun h => of_decide_eq_true h, fun h => decide_eq_true h⟩ beq_iff_eq

lemma le_iff_compare (x y : Float) :
    x ≤ y ↔ (x.toModel.unpack.compare y.toModel.unpack).any (·.isLE) = true :=
  ⟨fun h => of_decide_eq_true h, fun h => decide_eq_true h⟩

/-- A double is less than another one if it is so exactly. -/
theorem lt_iff_exact (x y : Float) :
    x < y ↔ ∃ p q, (value x).exact = some p ∧ (value y).exact = some q ∧ p < q := by
  rw [lt_iff_compare, compare_eq]
  simp [Option.bind_eq_some_iff, cmp_eq_lt_iff]

/-- A double is not greater than another one if it is so exactly. -/
theorem le_iff_exact (x y : Float) :
    x ≤ y ↔ ∃ p q, (value x).exact = some p ∧ (value y).exact = some q ∧ p ≤ q := by
  have hle (p q : WithBotTop ℚ) : (cmp p q).isLE = true ↔ p ≤ q := by
    rcases lt_trichotomy p q with h | rfl | h
    · simp [(cmp_eq_lt_iff p q).2 h, h.le]
    · simp
    · simp [(cmp_eq_gt_iff p q).2 h, h.not_ge]
  rw [le_iff_compare, compare_eq]
  simp [Option.any_eq_true, Option.bind_eq_some_iff, hle]

lemma exact_eq_none {v : Value} : v.exact = none ↔ v = .nan := by
  cases v <;> simp [Value.exact]

/-- Doubles that are numbers are ordered. -/
theorem not_le_iff_lt {x y : Float} (hx : value x ≠ .nan) (hy : value y ≠ .nan) :
    ¬ x ≤ y ↔ y < x := by
  obtain ⟨p, hp⟩ := Option.ne_none_iff_exists'.1 (mt exact_eq_none.1 hx)
  obtain ⟨q, hq⟩ := Option.ne_none_iff_exists'.1 (mt exact_eq_none.1 hy)
  simp [le_iff_exact, lt_iff_exact, hp, hq]

end Binary64

namespace Scalar

open Binary64

/-- The number that a number stands for, if it is one. -/
def exact : Scalar → Option (WithBotTop ℚ)
  | whole n => some ((n : ℚ) : WithBotTop ℚ)
  | real x => (value x).exact

variable {a b : Scalar}

lemma same_real (x y : Float) : same (real x) (real y) = true ↔
    x.toModel.unpack.compare y.toModel.unpack = some .eq := by
  change (x.toModel.unpack.compare y.toModel.unpack == some .eq) = true ↔ _
  exact beq_iff_eq

/-- A number is less than another one if it is so exactly. -/
theorem lt_iff : lt a b = true ↔ ∃ p q, exact a = some p ∧ exact b = some q ∧ p < q := by
  cases a with
  | whole m =>
    cases b with
    | whole n => simp [exact]
    | real y =>
      simp only [lt, intLtFloat, exact]
      cases h : value y with
      | nan => simp [Value.exact]
      | infinite s => cases s <;> simp [Value.exact, lt_top_iff_ne_top]
      | finite s k e => simp [Value.exact, mul_lt_iff_lt_div (Decimal.ratio_pos k e), signed_ratio]
  | real x =>
    cases b with
    | whole n =>
      simp only [lt, floatLtInt, exact]
      cases h : value x with
      | nan => simp [Value.exact]
      | infinite s => cases s <;> simp [Value.exact, bot_lt_iff_ne_bot]
      | finite s k e => simp [Value.exact, lt_mul_iff_div_lt (Decimal.ratio_pos k e), signed_ratio]
    | real y => exact decide_eq_true_iff.trans (lt_iff_exact x y)

/-- Two numbers are the same if they are so exactly. -/
theorem same_iff : same a b = true ↔ ∃ p, exact a = some p ∧ exact b = some p := by
  cases a with
  | whole m =>
    cases b with
    | whole n => simp [exact, eq_comm, WithBotTop.coe_injective.eq_iff]
    | real y =>
      simp only [same, intEqFloat, exact]
      cases h : value y with
      | nan => simp [Value.exact]
      | infinite s => cases s <;> simp [Value.exact, (WithBotTop.coe_ne_bot _).symm,
          (WithBotTop.coe_ne_top _).symm]
      | finite s k e =>
        simp [Value.exact, mul_eq_iff_eq_div (Decimal.ratio_pos k e), signed_ratio,
          WithBotTop.coe_injective.eq_iff, eq_comm]
  | real x =>
    cases b with
    | whole n =>
      simp only [same, intEqFloat, exact]
      cases h : value x with
      | nan => simp [Value.exact]
      | infinite s => cases s <;> simp [Value.exact]
      | finite s k e =>
        simp [Value.exact, mul_eq_iff_eq_div (Decimal.ratio_pos k e), signed_ratio,
          WithBotTop.coe_injective.eq_iff, eq_comm]
    | real y =>
      rw [same_real, compare_eq]
      simp [exact, Option.bind_eq_some_iff, cmp_eq_eq_iff]

/-- A number is not greater than another one if it is so exactly. -/
theorem le_iff : le a b = true ↔ ∃ p q, exact a = some p ∧ exact b = some q ∧ p ≤ q := by
  rw [le, Bool.or_eq_true, lt_iff, same_iff]
  constructor
  · rintro (⟨p, q, hp, hq, h⟩ | ⟨p, hp, hq⟩)
    · exact ⟨p, q, hp, hq, h.le⟩
    · exact ⟨p, p, hp, hq, le_rfl⟩
  · rintro ⟨p, q, hp, hq, h⟩
    obtain h | rfl := h.lt_or_eq
    · exact .inl ⟨p, q, hp, hq, h⟩
    · exact .inr ⟨p, hp, hq⟩

end Scalar

end UmlDrawing
