import UmlDrawing.Proofs.Numeral.Integer
import UmlDrawing.Proofs.Numeral.Nearest
import UmlDrawing.Proofs.Numeral.Reading

/-! Six leading digits. A positive ratio is written as the nearest multiple of the power of ten on which
it has six digits, whether the digits stand around a point or before a power of ten, and the zeros that
are left out at their end do not change what is read. -/
namespace UmlDrawing

namespace Decimal

open Binary64
open Numeral hiding signed
open Text (digitValue?)

section Leading

variable {num den fuel : ℕ}

lemma valueOf_lt {t : Text} (ht : ∀ c ∈ t, c.isDigit = true) : valueOf t < 10 ^ t.length := by
  have hvalues : ∀ d ∈ t.filterMap digitValue?, d < 10 := by
    intro d hd
    obtain ⟨c, hc, hcd⟩ := List.mem_filterMap.1 hd
    have hrange : 48 ≤ c.toNat ∧ c.toNat ≤ 57 := by
      simpa [Char.isDigit, UInt32.le_iff_toNat_le] using ht c hc
    rw [Text.digitValue?_of_isDigit (ht c hc), Option.some.injEq] at hcd
    omega
  have hlt := ofDigits_lt hvalues
  rwa [length_filterMap_digits ht] at hlt

lemma length_ofNat_pos (n : ℕ) : 0 < (Text.ofNat n).length :=
  List.length_pos_iff.2 (ofNat_ne_nil n)

/-- How many digits a number has. -/
lemma ofNat_bracket {n : ℕ} (hn : 0 < n) :
    10 ^ ((Text.ofNat n).length - 1) ≤ n ∧ n < 10 ^ (Text.ofNat n).length := by
  have hlt := valueOf_lt fun c hc => isDigit_of_mem_ofNat (n := n) hc
  rw [valueOf_ofNat] at hlt
  refine ⟨?_, hlt⟩
  by_contra hless
  have hpos : 0 < (Text.ofNat n).length - 1 := by
    by_contra hzero
    obtain hzero : (Text.ofNat n).length - 1 = 0 := by omega
    rw [hzero] at hless
    omega
  have hshort := Nat.toDigits_length 10 n _ hpos (Nat.lt_of_not_le hless)
  change (Text.ofNat n).length ≤ _ at hshort
  omega

lemma length_ofNat_of_lt {n k : ℕ} (hlow : 10 ^ k ≤ n) (hhigh : n < 10 ^ (k + 1)) :
    (Text.ofNat n).length = k + 1 := by
  have hpos : 0 < n := (Nat.pow_pos (by decide)).trans_le hlow
  obtain ⟨hle, hlt⟩ := ofNat_bracket hpos
  have hfirst := (Nat.pow_lt_pow_iff_right (a := 10) (by decide)).1 (hle.trans_lt hhigh)
  have hlast := (Nat.pow_lt_pow_iff_right (a := 10) (by decide)).1 (hlow.trans_lt hlt)
  omega

/-- Multiplied by ten as often as it takes, a ratio reaches one, and not before. -/
lemma shortfall_spec (h : den ≤ num * 10 ^ fuel) :
    den ≤ num * 10 ^ shortfall den fuel num ∧ ∀ j < shortfall den fuel num, num * 10 ^ j < den := by
  induction fuel generalizing num with
  | zero => exact ⟨h, by simp [shortfall]⟩
  | succ fuel ih =>
    rw [shortfall]
    split
    · next hle => exact ⟨by simpa using hle, by simp⟩
    · next hgt =>
      have hmul (j : ℕ) : num * 10 * 10 ^ j = num * 10 ^ (j + 1) := by ring
      rw [← hmul] at h
      obtain ⟨hreach, hbefore⟩ := ih h
      refine ⟨by rwa [hmul] at hreach, fun j hj => ?_⟩
      cases j with
      | zero => simpa using hgt
      | succ j =>
        rw [← hmul]
        exact hbefore j (by omega)

/-- The power of ten of the first digit. -/
lemma leadingExponent_bracket (hden : 0 < den) (h : den ≤ num * 10 ^ 400) :
    (10 : ℚ) ^ leadingExponent num den ≤ num / den ∧
      (num : ℚ) / den < 10 ^ (leadingExponent num den + 1) := by
  have hpos : (0 : ℚ) < den := by exact_mod_cast hden
  unfold leadingExponent
  split
  · next hle =>
    have hone : 0 < num / den := Nat.div_pos hle hden
    obtain ⟨hlow, hhigh⟩ := ofNat_bracket hone
    have hlength := length_ofNat_pos (num / den)
    obtain ⟨l, hl⟩ : ∃ l, (Text.ofNat (num / den)).length = l + 1 :=
      ⟨_, (Nat.succ_pred hlength.ne').symm⟩
    have hdigits : (Nat.toDigits 10 (num / den)).length = l + 1 := hl
    rw [hl, Nat.add_sub_cancel, Nat.le_div_iff_mul_le hden] at hlow
    rw [hl, Nat.div_lt_iff_lt_mul hden] at hhigh
    rw [hdigits, Nat.cast_succ, add_sub_cancel_right, zpow_natCast, ← Nat.cast_succ, zpow_natCast,
      le_div_iff₀ hpos, div_lt_iff₀ hpos]
    exact ⟨by exact_mod_cast hlow, by exact_mod_cast hhigh⟩
  · next hgt =>
    obtain ⟨hreach, hbefore⟩ := shortfall_spec h
    obtain ⟨j, hj⟩ : ∃ j, shortfall den 400 num = j + 1 := by
      refine ⟨shortfall den 400 num - 1, (Nat.succ_pred fun hzero => ?_).symm⟩
      rw [hzero] at hreach
      omega
    have hlast := hbefore j (by omega)
    rw [hj] at hreach ⊢
    have hnext : -((j + 1 : ℕ) : ℤ) + 1 = -j := by
      push_cast
      ring
    rw [hnext, zpow_neg, zpow_neg, zpow_natCast,
      zpow_natCast, inv_eq_one_div, inv_eq_one_div, div_le_div_iff₀ (by positivity) hpos,
      div_lt_div_iff₀ hpos (by positivity), one_mul]
    exact ⟨by exact_mod_cast hreach, by exact_mod_cast hlast⟩

lemma onGrid_eq (num den : ℕ) (k : ℤ) : onGrid num den k = inUnits 10 num den k := by
  cases k <;> rfl

lemma onGrid_pos (hden : 0 < den) : 0 < (onGrid num den k).2 := by
  rw [onGrid_eq]
  exact inUnits_pos (by decide) hden k

lemma onGrid_div (num den : ℕ) (k : ℤ) :
    ((onGrid num den k).1 : ℚ) / (onGrid num den k).2 = num / den / 10 ^ k := by
  rw [onGrid_eq, inUnits_div, Nat.cast_ofNat]

/-- The multiple of a power of ten that a ratio is rounded to. -/
def gridDigits (num den : ℕ) (k : ℤ) : ℕ := roundDiv (onGrid num den k).1 (onGrid num den k).2

lemma isNearest_gridDigits (num : ℕ) (hden : 0 < den) (k : ℤ) :
    IsNearest (num / den / 10 ^ k) (gridDigits num den k) := by
  rw [← onGrid_div]
  exact isNearest_roundDiv _ (onGrid_pos hden)

/-- On the grid five places behind the first digit there are six digits, or the least number with
seven. -/
lemma gridDigits_bounds (hden : 0 < den) (h : den ≤ num * 10 ^ 400) :
    10 ^ 5 ≤ gridDigits num den (leadingExponent num den - 5) ∧
      gridDigits num den (leadingExponent num den - 5) ≤ 10 ^ 6 := by
  obtain ⟨hlow, hhigh⟩ := leadingExponent_bracket hden h
  have hdiv := onGrid_div num den (leadingExponent num den - 5)
  have hgrid : (0 : ℚ) < (onGrid num den (leadingExponent num den - 5)).2 := by
    exact_mod_cast onGrid_pos hden
  have hpower : (0 : ℚ) < 10 ^ (leadingExponent num den - 5) := zpow_pos (by norm_num) _
  have hfive : (10 : ℚ) ^ leadingExponent num den = 10 ^ 5 * 10 ^ (leadingExponent num den - 5) := by
    rw [← zpow_natCast, ← zpow_add₀ (by norm_num)]
    congr 1
    ring
  rw [zpow_add_one₀ (by norm_num), hfive] at hhigh
  rw [hfive, ← le_div_iff₀ hpower, ← hdiv, le_div_iff₀ hgrid] at hlow
  have hsix : ((onGrid num den (leadingExponent num den - 5)).1 : ℚ) ≤
      10 ^ 6 * (onGrid num den (leadingExponent num den - 5)).2 := by
    rw [← div_le_iff₀ hgrid, hdiv, div_le_iff₀ hpower]
    linarith
  constructor
  · refine le_roundDiv (onGrid_pos hden) ?_
    rw [mul_comm]
    exact_mod_cast hlow
  · refine roundDiv_le (onGrid_pos hden) ?_
    rw [mul_comm]
    exact_mod_cast hsix

end Leading

section Layout

variable {t : Text} {n places : ℕ}

lemma valueOf_append_zeros (t : Text) (j : ℕ) :
    valueOf (t ++ List.replicate j '0') = valueOf t * 10 ^ j := by
  rw [valueOf_append _ fun c hc => isDigit_of_mem_zeros hc, valueOf_zeros, List.length_replicate,
    add_zero]

lemma cast_mul_zpow {v j : ℕ} (h : v * 10 ^ j = n) (k : ℤ) : (n : ℚ) * 10 ^ k = v * 10 ^ (j + k) := by
  rw [zpow_add₀ (by norm_num), zpow_natCast, ← mul_assoc, ← h]
  push_cast
  rfl

/-- Zeros at the end, and the digits before them. -/
lemma exists_dropTrailingZeros (t : Text) :
    ∃ j, t = dropTrailingZeros t ++ List.replicate j '0' := by
  refine ⟨(t.reverse.takeWhile (· = '0')).length, ?_⟩
  have hzeros : t.reverse.takeWhile (· = '0') =
      List.replicate (t.reverse.takeWhile (· = '0')).length '0' := by
    refine List.eq_replicate_of_mem fun c hc => ?_
    simpa using List.mem_takeWhile_imp hc
  rw [dropTrailingZeros, ← List.reverse_replicate, ← hzeros, ← List.reverse_append,
    List.takeWhile_append_dropWhile, List.reverse_reverse]

lemma isDigit_of_mem_dropTrailingZeros (ht : ∀ c ∈ t, c.isDigit = true) :
    ∀ c ∈ dropTrailingZeros t, c.isDigit = true := by
  obtain ⟨j, hj⟩ := exists_dropTrailingZeros t
  intro c hc
  refine ht c ?_
  rw [hj]
  exact List.mem_append_left _ hc

/-- Zeros are dropped behind a point, and not before it. -/
lemma dropTrailingZeros_append (s t : Text) :
    dropTrailingZeros (s ++ '.' :: t) = s ++ '.' :: dropTrailingZeros t := by
  have hpoint : ('.' :: s.reverse).dropWhile (· = '0') = '.' :: s.reverse :=
    List.dropWhile_cons_of_neg (by decide)
  have hdrop : (t.reverse ++ '.' :: s.reverse).dropWhile (· = '0') =
      t.reverse.dropWhile (· = '0') ++ '.' :: s.reverse := by
    rw [List.dropWhile_append, hpoint]
    split
    · next hempty => rw [List.isEmpty_iff.1 hempty, List.nil_append]
    · rfl
  simp [dropTrailingZeros, hdrop]

lemma dropFractionZeros_append (s : Text) (ht : ∀ c ∈ t, c.isDigit = true) :
    dropFractionZeros (s ++ '.' :: t) = s ++ dotted (dropTrailingZeros t) := by
  have hdigits := isDigit_of_mem_dropTrailingZeros ht
  have hmem : '.' ∈ s ++ '.' :: t := by simp
  rw [dropFractionZeros, if_pos hmem, dropTrailingZeros_append]
  generalize dropTrailingZeros t = kept at hdigits
  by_cases hkept : kept = []
  · subst hkept
    simp [dotted]
  · have hlast : (s ++ '.' :: kept).getLast? ≠ some '.' := by
      rw [List.append_cons, List.getLast?_append_of_ne_nil _ hkept]
      intro h
      exact absurd (hdigits '.' (List.mem_of_getLast? h)) (by decide)
    simp only [dotted, if_neg hkept, if_neg hlast]

lemma dropFractionZeros_of_forall (ht : ∀ c ∈ t, c.isDigit = true) : dropFractionZeros t = t := by
  refine if_neg fun hpoint => ?_
  exact absurd (ht '.' hpoint) (by decide)

/-- Around the point stand the digits of the number, with as many behind it as asked for. -/
lemma exists_point_eq (n : ℕ) (hplaces : 0 < places) :
    ∃ fraction, point places n = Text.ofNat (n / tenTo places) ++ '.' :: fraction ∧
      (∀ c ∈ fraction, c.isDigit = true) ∧ fraction.length = places ∧
      valueOf (Text.ofNat (n / tenTo places) ++ fraction) = n := by
  have hrest : ∀ c ∈ Text.ofNat (n % tenTo places), c.isDigit = true :=
    fun c hc => isDigit_of_mem_ofNat hc
  obtain ⟨zeros, hzeros⟩ : ∃ zeros, zeros = places - (Text.ofNat (n % tenTo places)).length :=
    ⟨_, rfl⟩
  have hall : ∀ c ∈ List.replicate zeros '0' ++ Text.ofNat (n % tenTo places),
      c.isDigit = true :=
    fun c hc => (List.mem_append.1 hc).elim isDigit_of_mem_zeros (hrest c)
  have hlength : (List.replicate zeros '0' ++ Text.ofNat (n % tenTo places)).length = places := by
    have hshort := Nat.toDigits_length 10 (n % tenTo places) places hplaces
      (Nat.mod_lt _ (Nat.pow_pos (by decide)))
    change (Text.ofNat _).length ≤ _ at hshort
    rw [List.length_append, List.length_replicate]
    omega
  refine ⟨_, ?_, hall, hlength, ?_⟩
  · simp [point, hplaces.ne', hzeros, Text.ofNat]
  · rw [valueOf_append _ hall, hlength, valueOf_append _ hrest, valueOf_zeros, valueOf_ofNat,
      valueOf_ofNat, zero_mul, zero_add]
    exact Nat.div_add_mod' n (tenTo places)

/-- A number with a point is read as it is without the zeros at its end. -/
lemma writes_point (places n : ℕ) :
    Writes (dropFractionZeros (point places n)) (n * 10 ^ (-places : ℤ)) := by
  have hdigits (m : ℕ) : ∀ c ∈ Text.ofNat m, c.isDigit = true := fun c hc => isDigit_of_mem_ofNat hc
  obtain rfl | hplaces := Nat.eq_zero_or_pos places
  · have hpoint : point 0 n = Text.ofNat n := rfl
    rw [hpoint, dropFractionZeros_of_forall (hdigits n)]
    exact ⟨Text.ofNat n, [], [], 0, by simp [dotted], ofNat_ne_nil n, hdigits n, by simp, .plain,
      by simp [valueOf_ofNat]⟩
  · obtain ⟨fraction, hpoint, hall, hlength, hvalue⟩ := exists_point_eq n hplaces
    rw [hpoint, dropFractionZeros_append _ hall]
    have hkept := isDigit_of_mem_dropTrailingZeros hall
    obtain ⟨j, hj⟩ := exists_dropTrailingZeros fraction
    generalize dropTrailingZeros fraction = kept at hj hkept
    refine ⟨Text.ofNat (n / tenTo places), kept, [], 0, by rw [List.append_nil], ofNat_ne_nil _,
      hdigits _, hkept, .plain, ?_⟩
    rw [hj, ← List.append_assoc, valueOf_append_zeros] at hvalue
    rw [hj, List.length_append, List.length_replicate] at hlength
    rw [cast_mul_zpow hvalue, ← hlength]
    congr 2
    push_cast
    ring

/-- A number before a power of ten is read as it is without the zeros at its end. -/
lemma writes_scientific (hn : 0 < n) (k : ℤ) :
    Writes (scientific (dropTrailingZeros (Text.ofNat n)) k)
      (n * 10 ^ (k - ((Text.ofNat n).length - 1 : ℤ))) := by
  have hdigits : ∀ c ∈ Text.ofNat n, c.isDigit = true := fun c hc => isDigit_of_mem_ofNat hc
  have hkept := isDigit_of_mem_dropTrailingZeros hdigits
  have hvalue := valueOf_ofNat n
  obtain ⟨j, hj⟩ := exists_dropTrailingZeros (Text.ofNat n)
  generalize dropTrailingZeros (Text.ofNat n) = kept at hj hkept
  rw [hj, valueOf_append_zeros] at hvalue
  cases kept with
  | nil =>
    have hzero : 0 = n := by simpa [valueOf] using hvalue
    omega
  | cons d r =>
    have hscientific : scientific (d :: r) k = [d] ++ (dotted r ++ powerMark k) := by
      cases r <;> rfl
    obtain ⟨hd, hr⟩ := List.forall_mem_cons.1 hkept
    refine ⟨[d], r, powerMark k, k, hscientific, by simp, by simpa using hd, hr, .scaled k, ?_⟩
    rw [cast_mul_zpow hvalue, List.singleton_append, hj, List.length_append,
      List.length_cons, List.length_replicate]
    congr 2
    push_cast
    ring

/-- Six digits laid out around a point, or before a power of ten. -/
def layout (n : ℕ) (k : ℤ) : Text :=
  if -4 ≤ k ∧ k < 6 then dropFractionZeros (point (5 - k).toNat n)
  else scientific (dropTrailingZeros (Text.ofNat n)) k

lemma sixDigits_eq (num den : ℕ) :
    sixDigits num den =
      if gridDigits num den (leadingExponent num den - 5) = 10 ^ 6 then
        layout (10 ^ 5) (leadingExponent num den + 1)
      else
        layout (gridDigits num den (leadingExponent num den - 5)) (leadingExponent num den) := by
  have hpair : sixDigits num den = (fun r : ℕ × ℤ => layout r.1 r.2)
      (if gridDigits num den (leadingExponent num den - 5) = tenTo 6 then
        (tenTo 5, leadingExponent num den + 1)
      else (gridDigits num den (leadingExponent num den - 5), leadingExponent num den)) := rfl
  exact hpair.trans (apply_ite (fun r : ℕ × ℤ => layout r.1 r.2) _ _ _)

lemma writes_layout (hlow : 10 ^ 5 ≤ n) (hhigh : n < 10 ^ 6) (k : ℤ) :
    Writes (layout n k) (n * 10 ^ (k - 5)) := by
  unfold layout
  split
  · have hplaces : -(((5 - k).toNat : ℕ) : ℤ) = k - 5 := by omega
    rw [← hplaces]
    exact writes_point _ n
  · have hwrites := writes_scientific (show 0 < n by omega) k
    rw [length_ofNat_of_lt hlow hhigh] at hwrites
    exact hwrites

/-- A positive ratio is written as the nearest multiple of the power of ten five places behind its
first digit. -/
theorem writes_sixDigits {num den : ℕ} (hden : 0 < den) (h : den ≤ num * 10 ^ 400) :
    Writes (sixDigits num den) (gridDigits num den (leadingExponent num den - 5) *
      10 ^ (leadingExponent num den - 5)) := by
  obtain ⟨hlow, hhigh⟩ := gridDigits_bounds hden h
  rw [sixDigits_eq]
  split
  · next hfull =>
    have hcarry : ((10 ^ 6 : ℕ) : ℚ) * 10 ^ (leadingExponent num den - 5) =
        (10 ^ 5 : ℕ) * 10 ^ (leadingExponent num den + 1 - 5) := by
      rw [add_sub_right_comm, zpow_add_one₀ (by norm_num)]
      push_cast
      ring
    rw [hfull, hcarry]
    exact writes_layout le_rfl (by decide) _
  · next hfull => exact writes_layout hlow (lt_of_le_of_ne hhigh hfull) _

lemma writes_zero : Writes ['0'] 0 := by
  have hpoint := writes_point 0 0
  rw [Nat.cast_zero, zero_mul] at hpoint
  exact hpoint

end Layout

section Doubles

variable {s : Bool} {m : ℕ} {e : ℤ} {x : Float}

lemma two_pow_le_ten_pow (j : ℕ) : 2 ^ (3 * j) ≤ 10 ^ j := by
  rw [pow_mul]
  exact Nat.pow_le_pow_left (by decide) j

/-- No double but zero is so small that four hundred powers of ten do not reach its first digit. -/
lemma ratio_le_mul (hm : 0 < m) (he : -1074 ≤ e) : (ratio m e).2 ≤ (ratio m e).1 * 10 ^ 400 := by
  cases e with
  | ofNat k =>
    have hpos : 0 < m * 2 ^ k := Nat.mul_pos hm (Nat.two_pow_pos k)
    exact hpos.trans_le (Nat.le_mul_of_pos_right _ (by positivity))
  | negSucc k =>
    calc 2 ^ (k + 1) ≤ 2 ^ (3 * 400) := Nat.pow_le_pow_right (by decide) (by omega)
      _ ≤ 10 ^ 400 := two_pow_le_ten_pow 400
      _ ≤ m * 10 ^ 400 := Nat.le_mul_of_pos_left _ hm

/-- A double is read as the multiple of a power of ten that it is rounded to. -/
theorem rational?_general (hvalue : value x = .finite s m e) (hm : 0 < m) :
    rational? (general x) = some (signed s
      (gridDigits (ratio m e).1 (ratio m e).2 (leadingExponent (ratio m e).1 (ratio m e).2 - 5) *
        10 ^ (leadingExponent (ratio m e).1 (ratio m e).2 - 5))) := by
  have hwrites := writes_sixDigits (ratio_pos m e)
    (ratio_le_mul hm (canonical_of_value hvalue).least_le)
  simp only [general, hvalue, if_neg hm.ne']
  exact hwrites.rational?_withSign s

/-- Zero is read as zero, whatever its sign. -/
lemma rational?_general_zero (hvalue : value x = .finite s 0 e) :
    rational? (general x) = some (signed s 0) := by
  have hzero : general x = withSign s ['0'] := by
    simp [general, hvalue]
  rw [hzero]
  exact writes_zero.rational?_withSign s

end Doubles

end Decimal

end UmlDrawing
