import Mathlib.Algebra.Group.Nat.Defs
import Mathlib.Data.List.Induction
import Mathlib.Tactic.Lemma
import UmlDrawing.Numeral.Integer
import UmlDrawing.Proofs.Fault

/-! The range of the integers that short numerals denote. -/
namespace UmlDrawing.Numeral

/-- Digits below the base make a number below the power of the base with their count. -/
lemma ofDigits_lt {base : Nat} {digits : List Nat} (h : ∀ d ∈ digits, d < base) :
    ofDigits base digits < base ^ digits.length := by
  induction digits using List.reverseRecOn with
  | nil => simp
  | append_singleton digits d ih =>
    have hd : d < base := h d (by simp)
    have hrest : ofDigits base digits + 1 ≤ base ^ digits.length :=
      ih fun d hd => h d (by simp [hd])
    have hproduct := Nat.mul_le_mul_left base hrest
    rw [ofDigits_append_singleton, List.length_append, List.length_singleton, Nat.pow_succ']
    rw [Nat.mul_add] at hproduct
    omega

lemma digitInBase?_lt {base d : Nat} {c : Char} (h : digitInBase? base c = some d) : d < base := by
  have hfilter := Option.filter_eq_some_iff.1 h
  simpa using hfilter.2

/-- The digits of a numeral are below the base, and no more than its characters. -/
lemma groupedDigits?_spec {base : Nat} {t : Text} {digits : List Nat}
    (h : groupedDigits? base t = some digits) :
    (∀ d ∈ digits, d < base) ∧ digits.length ≤ t.length := by
  induction t using groupedDigits?.induct generalizing digits with
  | case1 => cases h
  | case2 c =>
    obtain ⟨d, hd, rfl⟩ := Option.map_eq_some_iff.1 h
    have hlt := digitInBase?_lt hd
    simpa using hlt
  | case3 c r ih =>
    simp only [groupedDigits?, Option.bind_eq_bind, Option.bind_eq_some_iff] at h
    obtain ⟨d, hd, rest, hrest, heq⟩ := h
    cases heq
    have hlt := digitInBase?_lt hd
    have hspec := ih hrest
    simp only [List.mem_cons, List.length_cons]
    refine ⟨?_, by omega⟩
    rintro e (rfl | he)
    · exact hlt
    · exact hspec.1 e he
  | case4 c r hnil hmark ih =>
    rw [groupedDigits?] at h
    · simp only [Option.bind_eq_bind, Option.bind_eq_some_iff] at h
      obtain ⟨d, hd, rest, hrest, heq⟩ := h
      cases heq
      have hlt := digitInBase?_lt hd
      have hspec := ih hrest
      simp only [List.mem_cons, List.length_cons]
      refine ⟨?_, by omega⟩
      rintro e (rfl | he)
      · exact hlt
      · exact hspec.1 e he
    · exact hnil
    · exact hmark

lemma length_dropWhile_le {α : Type} (p : α → Bool) (l : List α) :
    (l.dropWhile p).length ≤ l.length :=
  (List.dropWhile_sublist p).length_le

lemma length_trimPadding_le (t : Text) : (trimPadding t).length ≤ t.length := by
  have hend := length_dropWhile_le isPadding (t.dropWhile isPadding).reverse
  have hstart := length_dropWhile_le isPadding t
  simp only [trimPadding, List.length_reverse] at hend ⊢
  omega

lemma length_dropHexMark_le (t : Text) : (dropHexMark t).length ≤ t.length := by
  unfold dropHexMark
  split <;> simp only [List.length_cons, Nat.le_refl] <;> omega

/-- A minus sign takes a character of the text. -/
lemma length_cutSign_le (t : Text) :
    (cutSign t).2.length + (cutSign t).1.toNat ≤ t.length := by
  unfold cutSign
  split <;> simp

/-- The magnitude of a hexadecimal numeral is below the power of 16 with its length; a minus sign
takes the place of a digit. -/
theorem parseHex_spec {t : Text} {n : Int} (h : parseHex t = .ok n) :
    ∃ negative k, n = signed negative k ∧ k < 16 ^ (t.length - negative.toNat) := by
  have hlength := length_cutSign_le (trimPadding t)
  have htrim := length_trimPadding_le t
  rw [parseHex] at h
  generalize cutSign (trimPadding t) = cut at h hlength
  obtain ⟨negative, r⟩ := cut
  have hmark := length_dropHexMark_le r
  cases hdigits : groupedDigits? 16 (dropHexMark r) with
  | none => simp only [hdigits] at h; cases h
  | some digits =>
    simp only [hdigits] at h
    cases h
    obtain ⟨hall, hcount⟩ := groupedDigits?_spec hdigits
    have hlt := ofDigits_lt hall
    refine ⟨negative, _, rfl, Nat.lt_of_lt_of_le hlt ?_⟩
    simp only at hlength
    exact Nat.pow_le_pow_right (by decide) (by omega)

lemma parseHex_one_bounds {c : Char} {n : Int} (h : parseHex [c] = .ok n) : 0 ≤ n ∧ n ≤ 15 := by
  obtain ⟨negative, k, rfl, hk⟩ := parseHex_spec h
  cases negative with
  | false =>
    change k < 16 at hk
    simp only [signed, Bool.false_eq_true, if_false]
    omega
  | true =>
    change k < 1 at hk
    simp only [signed, if_true]
    omega

/-- Two characters make a byte, or a negative number with one digit. -/
lemma parseHex_two_bounds {c d : Char} {n : Int} (h : parseHex [c, d] = .ok n) :
    -15 ≤ n ∧ n ≤ 255 := by
  obtain ⟨negative, k, rfl, hk⟩ := parseHex_spec h
  cases negative with
  | false =>
    change k < 256 at hk
    simp only [signed, Bool.false_eq_true, if_false]
    omega
  | true =>
    change k < 16 at hk
    simp only [signed, if_true]
    omega

/-- A digit written twice is a byte, since a sign is no digit. -/
lemma parseHex_doubled_bounds {c : Char} {n : Int} (h : parseHex [c, c] = .ok n) :
    0 ≤ n ∧ n ≤ 255 := by
  have hle := parseHex_two_bounds h
  refine ⟨?_, hle.2⟩
  by_cases hsign : c = '-'
  · subst hsign
    cases h
  · have hcut : (cutSign (trimPadding [c, c])).1 = false := by
      by_cases hpad : isPadding c = true
      · simp [trimPadding, List.dropWhile, hpad, cutSign]
      · simp only [trimPadding, List.dropWhile, hpad]
        unfold cutSign
        split
        · next hmatch => simp_all
        · rfl
        · rfl
    rw [parseHex] at h
    generalize cutSign (trimPadding [c, c]) = cut at h hcut
    obtain ⟨negative, r⟩ := cut
    cases hcut
    simp only at h
    obtain ⟨digits, -, heq⟩ := bind_eq_ok_iff.1 h
    cases heq
    simp [signed]

end UmlDrawing.Numeral
