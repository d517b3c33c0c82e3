import UmlDrawing.Proofs.Numeral.Exact

/-! The results of operations on doubles are rounded by two shifts: one to 53 binary digits, and
another one if the rounding has added a digit. -/
namespace UmlDrawing

namespace Binary64

open Float.Model Float.Model.UnpackedFloat

variable {m k : Nat} {e : Int} {a : Accuracy} {s : Sign}

lemma mantissa_shiftRight (em : ExtendedMantissa) (n : Nat) :
    (em >>> n).mantissa = em.mantissa / 2 ^ n := by
  change (n.repeat ExtendedMantissa.shiftRightOne em).mantissa = em.mantissa / 2 ^ n
  induction n with
  | zero => exact (Nat.div_one _).symm
  | succ n ih =>
    rw [Nat.repeat, Nat.pow_succ, ← Nat.div_div_eq_div_mul, ← ih]
    rfl

/-- Nothing is lost by shifting zeros out. -/
lemma exact_shiftRight (m n : Nat) :
    (⟨m * 2 ^ n, false, false⟩ : ExtendedMantissa) >>> n = ⟨m, false, false⟩ := by
  change n.repeat ExtendedMantissa.shiftRightOne ⟨m * 2 ^ n, false, false⟩ = ⟨m, false, false⟩
  induction n generalizing m with
  | zero => rw [Nat.pow_zero, Nat.mul_one]; rfl
  | succ n ih =>
    have hhalf := ih (m * 2)
    rw [Nat.mul_assoc, ← Nat.pow_succ'] at hhalf
    rw [Nat.repeat, hhalf, ExtendedMantissa.shiftRightOne]
    simp

lemma le_roundToNearestEven (m : Nat) (a : Accuracy) : m ≤ a.roundToNearestEven m := by
  unfold Accuracy.roundToNearestEven
  split <;> omega

/-- A mantissa is shifted by the digits that it has beyond 53. -/
lemma shiftToTargetExponent_eq (m : Nat) (a : Accuracy) (he : -1074 ≤ e) :
    shiftToTargetExponent .binary64 m e a =
      (ExtendedMantissa.ofMantissaAndAccuracy m a >>> (m.log2 - 52), e + (m.log2 - 52 : Nat)) := by
  have htarget : (Format.binary64.targetExponent (totalExponent m e) - e).toNat = m.log2 - 52 := by
    have hbits : Format.binary64.mantissaBits = 53 := rfl
    have hleast : Format.binary64.minExponent = -1074 := rfl
    rw [Format.targetExponent, totalExponent, hbits, hleast]
    omega
  rw [shiftToTargetExponent, shiftToExponent, htarget]

lemma div_log2_lt (m : Nat) : m / 2 ^ (m.log2 - 52) < 2 ^ 53 := by
  rw [Nat.div_lt_iff_lt_mul (Nat.two_pow_pos _), ← Nat.pow_add]
  exact Nat.lt_log2_self.trans_le (Nat.pow_le_pow_right (by decide) (by omega))

lemma le_div_log2 (h : 2 ^ 52 ≤ m) : 2 ^ 52 ≤ m / 2 ^ (m.log2 - 52) := by
  have hlog : 52 ≤ m.log2 := (Nat.le_log2 (by omega)).2 h
  rw [Nat.le_div_iff_mul_le (Nat.two_pow_pos _), ← Nat.pow_add, Nat.add_sub_cancel' hlog]
  exact Nat.log2_self_le (by omega)

lemma log2_le_of_lt (hm : m < 2 ^ (k + 1)) : m.log2 ≤ k := by
  rcases Nat.eq_zero_or_pos m with rfl | hpos
  · exact Nat.zero_le k
  · exact Nat.le_of_lt_succ ((Nat.log2_lt (by omega)).2 hm)

/-- The second shift, which takes back a digit that the rounding has added. -/
def settled (s : Sign) (r : Nat) (f : Int) : UnpackedFloat :=
  if h : r / 2 ^ (r.log2 - 52) = 0 then .zero s
  else .finite s (r / 2 ^ (r.log2 - 52)) (f + (r.log2 - 52 : Nat)) (Nat.pos_of_ne_zero h)

lemma settled_of_lt {r : Nat} (s : Sign) (f : Int) (hr : r < 2 ^ 53) :
    settled s r f = if h : r = 0 then .zero s else .finite s r f (Nat.pos_of_ne_zero h) := by
  have hlog := log2_le_of_lt (k := 52) hr
  simp only [settled, Nat.sub_eq_zero_of_le hlog, Nat.pow_zero, Nat.div_one, Int.natCast_zero,
    Int.add_zero]

lemma settled_top (s : Sign) (f : Int) :
    settled s (2 ^ 53) f = .finite s (2 ^ 52) (f + 1) (by decide) := by
  simp only [settled, Nat.log2_two_pow]
  rfl

/-- Rounding as one shift, one step of rounding, and what the second shift makes of it. -/
lemma roundWithAccuracy_eq (s : Sign) (m : Nat) (a : Accuracy) (he : -1074 ≤ e) :
    roundWithAccuracy .binary64 s m e a =
      settled s (ExtendedMantissa.ofMantissaAndAccuracy m a >>> (m.log2 - 52)).roundedMantissa
        (e + (m.log2 - 52 : Nat)) := by
  rw [roundWithAccuracy, shiftToTargetExponent_eq m a he]
  dsimp only
  generalize (ExtendedMantissa.ofMantissaAndAccuracy m a >>> (m.log2 - 52)).roundedMantissa = r
  simp only [shiftToTargetExponent_eq r .exact (show -1074 ≤ e + (m.log2 - 52 : Nat) by omega),
    mantissa_shiftRight, mantissa_ofMantissaAndAccuracy]
  rfl

/-- A number with digits enough that is not too large is rounded to a number. -/
theorem roundWithAccuracy_of_pos (s : Sign) (a : Accuracy) (hm : 0 < m) (hleast : -1074 ≤ e)
    (hfull : 2 ^ 52 ≤ m ∨ e = -1074) (hle : e + (m.log2 - 52 : Nat) ≤ 970) :
    ∃ n f, ∃ hn : 0 < n, roundWithAccuracy .binary64 s m e a = .finite s n f hn ∧ Canonical n f := by
  rw [roundWithAccuracy_eq s m a hleast]
  have hmantissa : (ExtendedMantissa.ofMantissaAndAccuracy m a >>> (m.log2 - 52)).mantissa =
      m / 2 ^ (m.log2 - 52) := by
    rw [mantissa_shiftRight, mantissa_ofMantissaAndAccuracy]
  generalize ExtendedMantissa.ofMantissaAndAccuracy m a >>> (m.log2 - 52) = em at hmantissa
  have hlt := div_log2_lt m
  have hpos : 0 < m / 2 ^ (m.log2 - 52) ∧
      (2 ^ 52 ≤ m / 2 ^ (m.log2 - 52) ∨ e + (m.log2 - 52 : Nat) = -1074) := by
    by_cases hm' : 2 ^ 52 ≤ m
    · have hge := le_div_log2 hm'
      exact ⟨by omega, .inl hge⟩
    · have hlog := log2_le_of_lt (k := 51) (by omega : m < 2 ^ 52)
      rw [Nat.sub_eq_zero_of_le (by omega), Nat.pow_zero, Nat.div_one]
      exact ⟨hm, .inr (by omega)⟩
  have hrle : em.roundedMantissa ≤ em.mantissa + 1 := roundToNearestEven_le _ _
  have hler : em.mantissa ≤ em.roundedMantissa := le_roundToNearestEven _ _
  generalize em.roundedMantissa = r at hrle hler
  rw [hmantissa] at hrle hler
  -- only a mantissa of ones gets one more digit
  rcases Nat.lt_or_ge r (2 ^ 53) with hr | hr
  · rw [settled_of_lt s _ hr, dif_neg (by omega)]
    exact ⟨_, _, _, rfl, by omega, by omega, by omega, by omega⟩
  · obtain rfl : r = 2 ^ 53 := by omega
    rw [settled_top]
    exact ⟨_, _, _, rfl, by decide, by omega, by omega, .inl (by decide)⟩

/-- A number that a double stands for is not changed by rounding. -/
theorem roundWithAccuracy_exact (s : Sign) (hm : 2 ^ 52 ≤ m) (hlt : m < 2 ^ 53) (he : -1074 ≤ e) :
    roundWithAccuracy .binary64 s (m * 2 ^ k) e .exact = .finite s m (e + k) (by omega) := by
  have hlog : (m * 2 ^ k).log2 = 52 + k := by
    refine (Nat.log2_eq_iff (Nat.mul_pos (by omega) (Nat.two_pow_pos k)).ne').2 ?_
    rw [Nat.add_right_comm, Nat.pow_add, Nat.pow_add _ _ k]
    exact ⟨Nat.mul_le_mul_right _ hm, Nat.mul_lt_mul_of_pos_right hlt (Nat.two_pow_pos k)⟩
  rw [roundWithAccuracy_eq _ _ _ he, hlog, Nat.add_sub_cancel_left]
  change settled s (ExtendedMantissa.mk (m * 2 ^ k) false false >>> k).roundedMantissa _ = _
  rw [exact_shiftRight]
  change settled s m _ = _
  rw [settled_of_lt s _ hlt, dif_neg (by omega)]

/-- With the least exponent nothing is shifted. -/
theorem roundWithAccuracy_least (s : Sign) (a : Accuracy) (hm : m < 2 ^ 52) :
    roundWithAccuracy .binary64 s m (-1074) a =
      if h : a.roundToNearestEven m = 0 then .zero s
      else .finite s (a.roundToNearestEven m) (-1074) (Nat.pos_of_ne_zero h) := by
  have hlog := log2_le_of_lt (k := 51) hm
  have hrounded : (ExtendedMantissa.ofMantissaAndAccuracy m a >>> 0).roundedMantissa =
      a.roundToNearestEven m := by
    obtain _ | o := a
    · rfl
    · cases o <;> rfl
  have hle := roundToNearestEven_le m a
  rw [roundWithAccuracy_eq _ _ _ (by decide), Nat.sub_eq_zero_of_le (by omega), hrounded,
    settled_of_lt _ _ (by omega)]
  rfl

end Binary64

end UmlDrawing
