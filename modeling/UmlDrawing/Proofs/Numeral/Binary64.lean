import Mathlib
import UmlDrawing.Scalar.Basic

/-! When doubles are finite. The product of two doubles is their exact product, shifted to 53 binary
digits and rounded; it can only be infinite if the exponents of the factors add up to a large
number. -/
namespace UmlDrawing

namespace Binary64

open Float.Model Float.Model.UnpackedFloat
open Numeral (twoTo)

/-- The exponent field of a double as a number. -/
lemma toNat_unpackExponent (b : BitVec 64) :
    (@unpackExponent .binary64 b).toNat = b.toNat / 2 ^ 52 % 2 ^ 11 := by
  simp [unpackExponent, Nat.shiftRight_eq_div_pow]

/-- A finite double is a number. -/
theorem value_of_isFinite {x : Float} (h : x.isFinite = true) :
    ∃ negative mantissa exponent, value x = .finite negative mantissa exponent := by
  have hfield : x.toBits.toNat / twoTo 52 % twoTo 11 ≠ 2047 := by
    intro hfield
    have hexponent : @unpackExponent .binary64 x.toBits.toBitVec = -1#_ :=
      BitVec.eq_of_toNat_eq ((toNat_unpackExponent _).trans hfield)
    change (UnpackedFloat.unpack .binary64 x.toBits.toBitVec).isFinite = true at h
    rw [UnpackedFloat.unpack, if_pos hexponent] at h
    split at h <;> cases h
  simp only [value, valueOfBits]
  rw [if_neg hfield]
  split
  · exact ⟨_, _, _, rfl⟩
  · exact ⟨_, _, _, rfl⟩

/-- The mantissa and the exponent of a number have their bounds. -/
lemma bounds_of_value {x : Float} {negative : Bool} {m : Nat} {e : Int}
    (h : value x = .finite negative m e) : m < 2 ^ 53 ∧ e ≤ 971 := by
  have hwidth : twoTo 52 = 2 ^ 52 := rfl
  have hfraction : x.toBits.toNat % twoTo 52 < twoTo 52 := Nat.mod_lt _ (by decide)
  have hfield : x.toBits.toNat / twoTo 52 % twoTo 11 < 2 ^ 11 := Nat.mod_lt _ (by decide)
  simp only [value, valueOfBits] at h
  split at h
  · split at h <;> cases h
  · split at h
    · cases h
      exact ⟨by omega, by decide⟩
    · cases h
      exact ⟨by omega, by omega⟩

lemma mantissa_shiftRight_le (em : ExtendedMantissa) (n : Nat) :
    (em >>> n).mantissa ≤ em.mantissa := by
  change (n.repeat ExtendedMantissa.shiftRightOne em).mantissa ≤ em.mantissa
  induction n with
  | zero => exact Nat.le_refl _
  | succ n ih =>
    rw [Nat.repeat]
    have hhalf := Nat.div_le_self (n.repeat ExtendedMantissa.shiftRightOne em).mantissa 2
    exact Nat.le_trans hhalf ih

lemma roundToNearestEven_le (mantissa : Nat) (a : Accuracy) :
    a.roundToNearestEven mantissa ≤ mantissa + 1 := by
  unfold Accuracy.roundToNearestEven
  split <;> omega

lemma mantissa_ofMantissaAndAccuracy (mantissa : Nat) (a : Accuracy) :
    (ExtendedMantissa.ofMantissaAndAccuracy mantissa a).mantissa = mantissa := by
  unfold ExtendedMantissa.ofMantissaAndAccuracy
  split <;> rfl

/-- A shift does not add to the mantissa. -/
lemma mantissa_shiftToTargetExponent_le (spec : Format) (m : Nat) (e : Int) (a : Accuracy) :
    (shiftToTargetExponent spec m e a).1.mantissa ≤ m := by
  simp only [shiftToTargetExponent, shiftToExponent]
  have hle := mantissa_shiftRight_le (ExtendedMantissa.ofMantissaAndAccuracy m a)
    (spec.targetExponent (totalExponent m e) - e).toNat
  rwa [mantissa_ofMantissaAndAccuracy] at hle

/-- A shift goes to the exponent it aims at, unless it starts above. -/
lemma exponent_shiftToTargetExponent (spec : Format) (m : Nat) (e : Int) (a : Accuracy) :
    (shiftToTargetExponent spec m e a).2 = max e (spec.targetExponent (totalExponent m e)) := by
  simp only [shiftToTargetExponent, shiftToExponent]
  omega

/-- The exponent that a shift ends at, for mantissas with a known number of digits. -/
lemma exponent_shiftToTargetExponent_le {m k : Nat} {e bound : Int} (a : Accuracy)
    (hm : m < 2 ^ k) (hk : 0 < k) (he : e ≤ bound) (hbound : k + e - 53 ≤ bound)
    (hleast : -1074 ≤ bound) : (shiftToTargetExponent .binary64 m e a).2 ≤ bound := by
  have hlog : m.log2 < k := by
    rcases Nat.eq_zero_or_pos m with rfl | hpos
    · simpa using hk
    · exact (Nat.log2_lt (by omega)).2 hm
  have hbits : Format.binary64.mantissaBits = 53 := rfl
  have hmin : Format.binary64.minExponent = -1074 := rfl
  rw [exponent_shiftToTargetExponent, Format.targetExponent, totalExponent, hbits, hmin]
  omega

/-- The exponent field of a finite number with a small exponent does not mark it as infinite. -/
lemma unpackExponent_pack_ne {s : Sign} {m : Nat} {e : Int} (hm : 0 < m) (he : e ≤ 971) :
    unpackExponent (UnpackedFloat.pack .binary64 (.finite s m e hm)) ≠ -1#_ := by
  have hbias : Format.binary64.exponentBias = 1023 := rfl
  simp only [UnpackedFloat.pack, hbias]
  split
  · next h => omega
  · split
    · intro h
      rw [unpackExponent_packComponents] at h
      have hfield := congrArg BitVec.toNat h
      simp only [BitVec.toNat_ofNat, BitVec.toNat_neg] at hfield
      omega
    · rw [unpackExponent_packComponents]
      decide

lemma isFinite_unpack_pack_zero (s : Sign) :
    (Float.Model.pack (.zero s)).unpack.isFinite = true := by
  cases s <;> rfl

/-- What a finite number with a small exponent is packed into is finite. -/
lemma isFinite_unpack_pack {s : Sign} {m : Nat} {e : Int} (hm : 0 < m) (he : e ≤ 971) :
    (Float.Model.pack (.finite s m e hm)).unpack.isFinite = true := by
  have hexponent := unpackExponent_pack_ne (s := s) hm he
  change (UnpackedFloat.unpack .binary64 (UnpackedFloat.pack .binary64 _)).isFinite = true
  rw [UnpackedFloat.unpack, if_neg hexponent]
  split
  · split <;> rfl
  · rfl

/-- A double is finite unless its exponent field is all ones. -/
theorem isFinite_ofBits {b : UInt64} (h : b.toNat / 2 ^ 52 % 2 ^ 11 ≠ 2047) :
    (Float.ofBits b).isFinite = true := by
  have hexponent : @unpackExponent .binary64 b.toBitVec ≠ -1#_ := by
    intro heq
    have hfield := congrArg BitVec.toNat heq
    rw [toNat_unpackExponent] at hfield
    exact h hfield
  have hlt : b.toNat / 2 ^ 52 % 2 ^ 11 < 2 ^ 11 := Nat.mod_lt _ (by decide)
  have hbias : Format.binary64.exponentBias = 1023 := rfl
  have hwidth : Format.binary64.mantissaBitsWithoutImplicit = 52 := rfl
  change (Float.Model.pack (UnpackedFloat.unpack .binary64 b.toBitVec)).unpack.isFinite = true
  rw [UnpackedFloat.unpack, if_neg hexponent]
  split
  · split
    · exact isFinite_unpack_pack_zero _
    · next hzero _ =>
      refine isFinite_unpack_pack _ ?_
      rw [hzero, hbias, hwidth]
      decide
  · refine isFinite_unpack_pack _ ?_
    rw [hbias, hwidth, toNat_unpackExponent, UInt64.toNat_toBitVec]
    omega

/-- A number with a small exponent is rounded to a finite double. -/
lemma isFinite_roundWithAccuracy {s : Sign} {m : Nat} {e : Int} {a : Accuracy} (hm : m < 2 ^ 106)
    (he : e ≤ 700) :
    (Float.Model.pack (roundWithAccuracy .binary64 s m e a)).unpack.isFinite = true := by
  have hmantissa := mantissa_shiftToTargetExponent_le .binary64 m e a
  have hexponent : (shiftToTargetExponent .binary64 m e a).2 ≤ 800 :=
    exponent_shiftToTargetExponent_le a hm (by omega) (by omega) (by omega) (by omega)
  rw [roundWithAccuracy]
  generalize shiftToTargetExponent .binary64 m e a = first at hmantissa hexponent ⊢
  obtain ⟨em, e'⟩ := first
  simp only at hmantissa hexponent ⊢
  have hrounded : em.roundedMantissa ≤ em.mantissa + 1 := roundToNearestEven_le _ _
  have hexponent' : (shiftToTargetExponent .binary64 em.roundedMantissa e' .exact).2 ≤ 900 :=
    exponent_shiftToTargetExponent_le (k := 107) .exact (by omega) (by omega) (by omega)
      (by omega) (by omega)
  split
  · exact isFinite_unpack_pack_zero s
  · exact isFinite_unpack_pack _ (hexponent'.trans (by decide))

/-- The mantissa of an unpacked double has at most 53 binary digits. -/
lemma mantissa_unpack_lt {b : BitVec 64} {s : Sign} {m : Nat} {e : Int} {hm : 0 < m}
    (h : UnpackedFloat.unpack .binary64 b = .finite s m e hm) : m < 2 ^ 53 := by
  rw [UnpackedFloat.unpack] at h
  split at h
  · split at h <;> cases h
  · split at h
    · split at h
      · cases h
      · cases h
        have hlt := (@unpackMantissa .binary64 b).isLt
        change _ < 2 ^ 52 at hlt
        omega
    · cases h
      exact (1#1 ++ @unpackMantissa .binary64 b).isLt

/-- The product of a finite double and one that is zero or finite is finite, unless the exponents
add up to a large number. -/
lemma isFinite_mul {x y : Float} {s s' : Sign} {m n : Nat} {e f : Int} {hm : 0 < m} {hn : 0 < n}
    (hx : x.toModel.unpack = .zero s ∨ x.toModel.unpack = .finite s m e hm)
    (hy : y.toModel.unpack = .finite s' n f hn) (hexponent : e + f ≤ 700) :
    (x * y).isFinite = true := by
  change (Float.Model.pack (UnpackedFloat.mul .binary64 x.toModel.unpack
    y.toModel.unpack)).unpack.isFinite = true
  obtain hx | hx := hx
  · rw [hx, hy]
    exact isFinite_unpack_pack_zero _
  · have hmlt : m < 2 ^ 53 := mantissa_unpack_lt hx
    have hnlt : n < 2 ^ 53 := mantissa_unpack_lt hy
    have hproduct : m * n < 2 ^ 106 := by
      calc m * n < 2 ^ 53 * 2 ^ 53 := Nat.mul_lt_mul'' hmlt hnlt
        _ = 2 ^ 106 := by decide
    rw [hx, hy]
    exact isFinite_roundWithAccuracy hproduct hexponent

/-- Zero has a double. -/
lemma ofInt?_zero : ofInt? 0 = some 0.0 := by
  rfl

end Binary64

namespace Scalar

open Float.Model Float.Model.UnpackedFloat

lemma compare_of_le {x y : Float} (h : le (real x) (real y) = true) :
    x.toModel.unpack.compare y.toModel.unpack = some .lt ∨
      x.toModel.unpack.compare y.toModel.unpack = some .eq := by
  rw [le, Bool.or_eq_true] at h
  obtain h | h := h
  · left
    exact eq_of_beq (of_decide_eq_true (of_decide_eq_true h))
  · right
    exact eq_of_beq h

lemma unpack_one : (1.0 : Float).toModel.unpack = .finite .positive (2 ^ 52) (-52) (by decide) := by
  rfl

lemma unpack_zero : (0.0 : Float).toModel.unpack = .zero .positive := by
  rfl

/-- A double from zero to one is zero or has a small exponent. -/
lemma unpack_of_mem_unit {x : Float} (hnonneg : le (real 0.0) (real x) = true)
    (hle : le (real x) (real 1.0) = true) :
    ∃ s m e, ∃ hm : 0 < m, (x.toModel.unpack = .zero s ∨ x.toModel.unpack = .finite s m e hm) ∧
      e ≤ -52 := by
  have hzero := compare_of_le hnonneg
  have hone := compare_of_le hle
  rw [unpack_zero] at hzero
  rw [unpack_one] at hone
  cases h : x.toModel.unpack with
  | notANumber => simp [h, UnpackedFloat.compare] at hone
  | infinity s => cases s <;> simp [h, UnpackedFloat.compare] at hone hzero
  | zero s => exact ⟨s, 1, -52, by decide, .inl rfl, by decide⟩
  | finite s m e hm =>
    refine ⟨s, m, e, hm, .inr rfl, ?_⟩
    rw [h] at hzero hone
    cases s with
    | negative => simp [UnpackedFloat.compare] at hzero
    | positive =>
      simp only [UnpackedFloat.compare, Option.some.injEq] at hone
      refine Int.not_lt.1 fun hlt => ?_
      have hgt : compare e (-52) = .gt := Int.compare_eq_gt.2 hlt
      simp [hgt, Ordering.then] at hone

lemma unpack_byte :
    (255.0 : Float).toModel.unpack = .finite .positive (255 * 2 ^ 45) (-45) (by decide) := by
  rfl

lemma toFloat_byte : toFloat (whole 255) = .ok 255.0 := by
  have h : Binary64.ofInt? 255 = some 255.0 := by rfl
  rw [toFloat, h]
  rfl

lemma truncate_of_isFinite {x : Float} (h : x.isFinite = true) :
    ∃ n, truncate (real x) = .ok n := by
  obtain ⟨negative, m, e, hvalue⟩ := Binary64.value_of_isFinite h
  simp only [truncate, toInt, hvalue]
  exact ⟨_, rfl⟩

/-- A part of one, as a part of the greatest byte, is near an integer. -/
theorem truncate_mul_of_mem_unit {a : Scalar} (hnonneg : le (real 0.0) a = true)
    (hle : le a (real 1.0) = true) :
    ∃ scaled n, mul a (whole 255) = .ok scaled ∧ truncate scaled = .ok n := by
  cases a with
  | whole k => exact ⟨whole (k * 255), k * 255, rfl, rfl⟩
  | real x =>
    obtain ⟨s, m, e, hm, hx, he⟩ := unpack_of_mem_unit hnonneg hle
    have hfinite : (x * 255.0).isFinite = true :=
      Binary64.isFinite_mul hx unpack_byte (by omega)
    obtain ⟨n, hn⟩ := truncate_of_isFinite hfinite
    have hmul : mul (real x) (whole 255) = .ok (real (x * 255.0)) := by
      simp only [mul, lift, toFloat_byte]
      rfl
    exact ⟨_, n, hmul, hn⟩

end Scalar

end UmlDrawing
