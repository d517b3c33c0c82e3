import UmlDrawing.Proofs.Numeral.Rounded

/-! The bits of a double, its parts, and the number that it stands for. A finite double fills its
mantissa up, unless its exponent is the least one, so that the three determine each other. -/
namespace UmlDrawing

namespace Binary64

open Float.Model Float.Model.UnpackedFloat
open Numeral (twoTo)

/-- The mantissa has 53 binary digits, or fewer and the exponent is the least one. -/
structure Canonical (m : Nat) (e : Int) : Prop where
  mantissa_lt : m < 2 ^ 53
  least_le : -1074 ≤ e
  le_greatest : e ≤ 971
  full_or_least : 2 ^ 52 ≤ m ∨ e = -1074

def signOf (negative : Bool) : Sign := if negative then .negative else .positive

lemma signOf_injective : Function.Injective signOf := by
  intro s t h
  cases s <;> cases t <;> first | rfl | cases h

namespace Value

/-- The parts of a double that stands for the value. -/
def unpacked : Value → UnpackedFloat
  | .nan => .notANumber
  | .infinite s => .infinity (signOf s)
  | .finite s m e =>
    if h : m = 0 then .zero (signOf s) else .finite (signOf s) m e (Nat.pos_of_ne_zero h)

/-- Whether a double can stand for the value. -/
def Fits : Value → Prop
  | .finite _ m e => Canonical m e
  | _ => True

lemma unpacked_injective {v w : Value} (hv : v.Fits) (hw : w.Fits) (h : v.unpacked = w.unpacked) :
    v = w := by
  cases v with
  | nan =>
    cases w with
    | nan => rfl
    | infinite t => cases h
    | finite t n f => by_cases hn : n = 0 <;> simp [unpacked, hn] at h
  | infinite s =>
    cases w with
    | nan => cases h
    | infinite t => simpa [unpacked, signOf_injective.eq_iff] using h
    | finite t n f => by_cases hn : n = 0 <;> simp [unpacked, hn] at h
  | finite s m e =>
    have hm := hv.full_or_least
    cases w with
    | nan => by_cases hm : m = 0 <;> simp [unpacked, hm] at h
    | infinite t => by_cases hm : m = 0 <;> simp [unpacked, hm] at h
    | finite t n f =>
      have hn := hw.full_or_least
      by_cases hm0 : m = 0 <;> by_cases hn0 : n = 0 <;>
        simp [unpacked, hm0, hn0, signOf_injective.eq_iff] at h ⊢
      -- both zeros have the least exponent
      · exact ⟨h, by omega⟩
      · exact h

end Value

section Fields

variable {s : Sign} {k : Nat} {m : BitVec 52}

lemma toNat_unpackMantissa (b : BitVec 64) :
    (@unpackMantissa .binary64 b).toNat = b.toNat % 2 ^ 52 := by
  simp [unpackMantissa]

lemma ofBitVec_unpackSign (b : BitVec 64) :
    Sign.ofBitVec (@unpackSign .binary64 b) = signOf (b.toNat / 2 ^ 63 % 2 == 1) := by
  have hsign : (@unpackSign .binary64 b).toNat = b.toNat / 2 ^ 63 % 2 := by
    simp [unpackSign, Nat.shiftRight_eq_div_pow]
  have hiff : @unpackSign .binary64 b = 0#1 ↔ b.toNat / 2 ^ 63 % 2 = 0 := by
    rw [← BitVec.toNat_inj, hsign]
    rfl
  unfold Sign.ofBitVec signOf
  obtain h | h := Nat.mod_two_eq_zero_or_one (b.toNat / 2 ^ 63)
  · rw [if_pos (hiff.2 h), h]
    rfl
  · rw [if_neg (fun h0 => by rw [hiff.1 h0] at h; cases h), h]
    rfl

/-- A mantissa with its leading one. -/
lemma toNat_one_append (m : BitVec 52) : (1#1 ++ m).toNat = 2 ^ 52 + m.toNat := by
  have hor := Nat.two_pow_add_eq_or_of_lt m.isLt 1
  rw [Nat.mul_one] at hor
  rw [BitVec.toNat_append, hor]
  rfl

lemma unpack_packComponents (hpos : 0 < k) (hlt : k < 2047) :
    UnpackedFloat.unpack .binary64 (packComponents .binary64 s (BitVec.ofNat 11 k) m) =
      .finite s (2 ^ 52 + m.toNat) ((k : Int) - 1075) (Nat.add_pos_left (by decide) _) := by
  have hexponent : (BitVec.ofNat 11 k).toNat = k := by
    rw [BitVec.toNat_ofNat]
    omega
  have hones : BitVec.ofNat 11 k ≠ -1#_ := by
    rw [← BitVec.toNat_inj.ne, hexponent]
    exact Nat.ne_of_lt hlt
  have hzero : BitVec.ofNat 11 k ≠ 0#_ := by
    rw [← BitVec.toNat_inj.ne, hexponent]
    exact Nat.ne_of_gt hpos
  simp only [UnpackedFloat.unpack, unpackExponent_packComponents, unpackMantissa_packComponents,
    unpackSign_packComponents, Sign.ofBitVec_toBitVec, toNat_one_append, hexponent]
  rw [if_neg hones, if_neg hzero]
  rfl

lemma unpack_packComponents_zero (hm : 0 < m.toNat) :
    UnpackedFloat.unpack .binary64 (packComponents .binary64 s 0#11 m) =
      .finite s m.toNat (-1074) hm := by
  have hzero : ¬ m = 0#_ := by
    rintro rfl
    exact Nat.lt_irrefl _ hm
  simp only [UnpackedFloat.unpack, unpackExponent_packComponents, unpackMantissa_packComponents,
    unpackSign_packComponents, Sign.ofBitVec_toBitVec]
  rw [if_neg (by decide), if_pos trivial, dif_neg hzero]
  rfl

end Fields

/-- A double that is put together from a mantissa and an exponent has these as its parts. -/
theorem unpack_pack {s : Sign} {m : Nat} {e : Int} (hm : 0 < m) (h : Canonical m e) :
    UnpackedFloat.unpack .binary64 (UnpackedFloat.pack .binary64 (.finite s m e hm)) =
      .finite s m e hm := by
  obtain ⟨hlt, hleast, hgreatest, hfull⟩ := h
  obtain ⟨k, rfl⟩ : ∃ k : Nat, e = (k : Int) - 1075 := ⟨(e + 1075).toNat, by omega⟩
  have hfield : (((k : Int) - 1075) + (Format.binary64.exponentBias : Int) +
      (Format.binary64.mantissaBitsWithoutImplicit : Int)).toNat = k := by
    change ((k : Int) - 1075 + 1023 + 52).toNat = k
    omega
  have hfits : ¬ 2 ^ Format.binary64.exponentBits ≤ k + 1 := by
    change ¬ 2048 ≤ k + 1
    omega
  have hbits : Format.binary64.mantissaBits = 53 := rfl
  simp only [UnpackedFloat.pack, hfield, hbits]
  rw [if_neg hfits]
  by_cases hm' : 2 ^ 52 ≤ m
  · have hlog : m.log2 = 52 := (Nat.log2_eq_iff (by omega)).2 ⟨hm', hlt⟩
    rw [if_pos (by rw [hlog])]
    refine (unpack_packComponents (by omega) (by omega)).trans ?_
    congr 1
    rw [BitVec.toNat_ofNat]
    omega
  · have hlog : m.log2 < 52 := (Nat.log2_lt (by omega)).2 (by omega)
    have hfraction : (BitVec.ofNat 52 m).toNat = m := by
      rw [BitVec.toNat_ofNat]
      omega
    rw [if_neg (by omega)]
    refine (unpack_packComponents_zero (by omega)).trans ?_
    congr 1
    omega

lemma unpack_pack_unpacked {v : Value} (h : v.Fits) :
    UnpackedFloat.unpack .binary64 (UnpackedFloat.pack .binary64 v.unpacked) = v.unpacked := by
  cases v with
  | nan => rfl
  | infinite s => cases s <;> rfl
  | finite s m e =>
    by_cases hm : m = 0
    · have hzero : (Value.finite s m e).unpacked = .zero (signOf s) := dif_pos hm
      rw [hzero]
      cases s <;> rfl
    · simp only [Value.unpacked, hm]
      exact unpack_pack _ h

lemma fits_valueOfBits (b : Nat) : (valueOfBits b).Fits := by
  have hwidth : twoTo 52 = 2 ^ 52 := rfl
  have hfraction : b % twoTo 52 < twoTo 52 := Nat.mod_lt _ (by decide)
  have hfield : b / twoTo 52 % twoTo 11 < 2 ^ 11 := Nat.mod_lt _ (by decide)
  unfold valueOfBits
  dsimp only
  split
  · split <;> trivial
  · split
    · exact ⟨by omega, by omega, by decide, .inr rfl⟩
    · exact ⟨by omega, by omega, by omega, .inl (by omega)⟩

/-- Bits have the parts of the number that they stand for. -/
theorem unpack_bits (b : UInt64) :
    UnpackedFloat.unpack .binary64 b.toBitVec = (valueOfBits b.toNat).unpacked := by
  have hexponent := toNat_unpackExponent b.toBitVec
  have hmantissa := toNat_unpackMantissa b.toBitVec
  have hsign := ofBitVec_unpackSign b.toBitVec
  rw [UInt64.toNat_toBitVec] at hexponent hmantissa hsign
  have hinfinite : @unpackExponent .binary64 b.toBitVec = -1#_ ↔
      b.toNat / twoTo 52 % twoTo 11 = 2047 := by
    rw [← BitVec.toNat_inj, hexponent]
    rfl
  have hsmall : @unpackExponent .binary64 b.toBitVec = 0#_ ↔
      b.toNat / twoTo 52 % twoTo 11 = 0 := by
    rw [← BitVec.toNat_inj, hexponent]
    rfl
  have hzero : @unpackMantissa .binary64 b.toBitVec = 0#_ ↔ b.toNat % twoTo 52 = 0 := by
    rw [← BitVec.toNat_inj, hmantissa]
    rfl
  simp only [UnpackedFloat.unpack, valueOfBits, hinfinite, hsmall, hzero, hsign, toNat_one_append,
    hmantissa, hexponent]
  split
  · split <;> rfl
  · split
    · simp only [Value.unpacked]
      split
      · rfl
      · congr 1
        change ((b.toNat / twoTo 52 % twoTo 11 : Nat) : Int) - (1023 + 52) + 1 = -1074
        omega
    · simp only [Value.unpacked]
      rw [dif_neg (Nat.ne_of_gt (Nat.add_pos_left (by decide) _))]
      congr 1

section Doubles

variable {x y : Float} {v : Value}

lemma fits_value (x : Float) : (value x).Fits := fits_valueOfBits _

lemma canonical_of_value {s : Bool} {m : Nat} {e : Int} (h : value x = .finite s m e) :
    Canonical m e := by
  have hfits := fits_value x
  rwa [h] at hfits

/-- The parts of a double are those of the number it stands for. -/
theorem unpack_eq (x : Float) : x.toModel.unpack = (value x).unpacked := unpack_bits x.toBits

lemma value_eq (hv : v.Fits) (h : x.toModel.unpack = v.unpacked) : value x = v :=
  Value.unpacked_injective (fits_value x) hv ((unpack_eq x).symm.trans h)

/-- A double that is made from parts stands for the number with these parts. -/
theorem value_pack (hv : v.Fits) : value (.ofModel (Float.Model.pack v.unpacked)) = v :=
  value_eq hv (unpack_pack_unpacked hv)

/-- A double that is made from bits stands for the number that the bits stand for. -/
theorem value_ofBits (b : UInt64) : value (Float.ofBits b) = valueOfBits b.toNat := by
  have h := value_pack (fits_valueOfBits b.toNat)
  rwa [← unpack_bits] at h

lemma isFinite_of_value {s : Bool} {m : Nat} {e : Int} (h : value x = .finite s m e) :
    x.isFinite = true := by
  change x.toModel.unpack.isFinite = true
  rw [unpack_eq, h, Value.unpacked]
  split <;> rfl

/-- The double nearest to a ratio is a number, or infinite. -/
theorem value_ofRatio_ne_nan (negative : Bool) (num den : Nat) :
    value (ofRatio negative num den) ≠ .nan := by
  have hwidth : twoTo 52 = 2 ^ 52 ∧ twoTo 11 = 2 ^ 11 ∧ twoTo 63 = 2 ^ 63 := ⟨rfl, rfl, rfl⟩
  have hbits : (if num = 0 then 0 else bitsOfRatio num den) ≤ 2047 * 2 ^ 52 := by
    split
    · exact Nat.zero_le _
    · rw [bitsOfRatio_eq]
      exact Nat.min_le_right _ _
  have hsign : (if negative = true then twoTo 63 else 0) = 0 ∨
      (if negative = true then twoTo 63 else 0) = 2 ^ 63 := by
    cases negative
    · exact .inl rfl
    · exact .inr rfl
  unfold ofRatio
  dsimp only
  generalize (if num = 0 then 0 else bitsOfRatio num den) = bits at hbits
  generalize (if negative = true then twoTo 63 else 0) = sign at hsign
  rw [value_ofBits, UInt64.toNat_ofNat', valueOfBits]
  simp only [hwidth]
  split
  · rw [if_pos (by omega)]
    exact Value.noConfusion
  · split <;> exact Value.noConfusion

lemma bits_of_valueOfBits {b m : Nat} {s : Bool} {e : Int} (hb : b < 2 ^ 64)
    (h : valueOfBits b = .finite s m e) :
    b = (if s then 2 ^ 63 else 0) + (e + 1074).toNat * 2 ^ 52 + m := by
  have hwidth : twoTo 52 = 2 ^ 52 ∧ twoTo 11 = 2 ^ 11 ∧ twoTo 63 = 2 ^ 63 := ⟨rfl, rfl, rfl⟩
  simp only [valueOfBits, hwidth] at h
  obtain hsign | hsign := Nat.mod_two_eq_zero_or_one (b / 2 ^ 63)
  all_goals
    rw [hsign] at h
    split at h
    · split at h <;> cases h
    · split at h <;> cases h <;> simp <;> omega

/-- No two doubles have the same value. -/
theorem eq_of_value (h : value x = value y) : x = y := by
  have hunpacked : x.toModel.unpack = y.toModel.unpack := by rw [unpack_eq, unpack_eq, h]
  have hbits := (unpack_inj_of_valid x.toModel.valid y.toModel.valid).1 hunpacked
  obtain ⟨⟨⟨b⟩, hb⟩⟩ := x
  obtain ⟨⟨⟨c⟩, hc⟩⟩ := y
  obtain rfl : b = c := hbits
  rfl

end Doubles

end Binary64

end UmlDrawing
