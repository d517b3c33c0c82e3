import UmlDrawing.Proofs.Numeral.Leading

/-! The hexadecimal numerals of one and of two characters. One character has to be a digit; of two, the
first one may also be a sign, and one of them a blank. The digits of all scripts count. -/
namespace UmlDrawing.Numeral

/-- Whether a character is taken for a hexadecimal digit: a digit of any script, or one of six letters
in either case. -/
def isLooseDigit (c : Char) : Bool :=
  Text.isDigit c || (decide ('a' ≤ c.toLower) && decide (c.toLower ≤ 'f'))

/-- Whether two characters are taken for a hexadecimal numeral. -/
def isLoosePair (c d : Char) : Bool :=
  (isLooseDigit c && isLooseDigit d) || ((c == '+' || c == '-' || isPadding c) && isLooseDigit d) ||
    (isLooseDigit c && isPadding d)

variable {c d : Char}

lemma digitValue?_lt {n : Nat} (h : Text.digitValue? c = some n) : n < 10 := by
  unfold Text.digitValue? at h
  dsimp only at h
  split at h
  · split at h
    · cases h
      omega
    · cases h
  · obtain ⟨z, hz, rfl⟩ := Option.map_eq_some_iff.1 h
    have := List.find?_some hz
    simp only [Bool.and_eq_true, decide_eq_true_eq] at this
    omega

lemma isSome_digitInBase? (c : Char) : (digitInBase? 16 c).isSome = isLooseDigit c := by
  unfold digitInBase? isLooseDigit Text.isDigit
  cases hc : Text.digitValue? c with
  | some n =>
    have hlt : n < 16 := by
      have := digitValue?_lt hc
      omega
    simp [hlt]
  | none =>
    have hle {a b : Char} : a ≤ b ↔ a.toNat ≤ b.toNat := UInt32.le_iff_toNat_le
    have ha : 'a'.toNat = 97 := rfl
    have hf : 'f'.toNat = 102 := rfl
    have hz : 'z'.toNat = 122 := rfl
    generalize c.toLower = l
    simp only [hle, ha, hf, hz, Option.isSome_none, Bool.false_or]
    split
    · next h =>
      simp only [Option.filter_some, h.1, decide_true, Bool.true_and]
      split
      · next hlt =>
        rw [decide_eq_true_eq] at hlt
        exact (decide_eq_true (by omega)).symm
      · next hlt =>
        rw [decide_eq_true_eq] at hlt
        exact (decide_eq_false (by omega)).symm
    · next h =>
      simp only [Option.filter_none, Option.isSome_none]
      rw [Eq.comm, Bool.and_eq_false_iff, decide_eq_false_iff_not, decide_eq_false_iff_not]
      omega

lemma isBlank_of_isPadding (h : isPadding c = true) : Text.isBlank c = true := by
  unfold isPadding at h
  split at h
  · rw [Bool.or_eq_true, beq_iff_eq, Bool.and_eq_true, decide_eq_true_eq, decide_eq_true_eq] at h
    obtain rfl | h := h
    · decide
    · exact List.any_eq_true.2 ⟨(0x09, 0x0D), by decide, by simpa using h⟩
  · exact h

/-- Blanks are no digits. -/
lemma isLooseDigit_of_isPadding (h : isPadding c = true) : isLooseDigit c = false := by
  have hblank := isBlank_of_isPadding h
  have hapart : ∀ r ∈ Text.blankRanges, r.2 < 65 ∨ 102 < r.1 := by decide
  obtain ⟨r, hr, hc⟩ := List.any_eq_true.1 hblank
  simp only [Bool.and_eq_true, decide_eq_true_eq] at hc
  have hout : c.toNat < 65 ∨ 102 < c.toNat := by
    have := hapart r hr
    omega
  have hlower : c.toLower = c := by
    unfold Char.toLower
    split
    · next hupper =>
      have hupper : 65 ≤ c.toNat ∧ c.toNat ≤ 90 := by
        simpa [UInt32.le_iff_toNat_le] using hupper
      omega
    · rfl
  rw [isLooseDigit, Text.isDigit_of_isBlank hblank, hlower, Bool.false_or, Bool.and_eq_false_iff,
    decide_eq_false_iff_not, decide_eq_false_iff_not]
  have hle {a b : Char} : a ≤ b ↔ a.toNat ≤ b.toNat := UInt32.le_iff_toNat_le
  have ha : 'a'.toNat = 97 := rfl
  have hf : 'f'.toNat = 102 := rfl
  rw [hle, hle, ha, hf]
  omega

lemma isLooseDigit_iff : isLooseDigit c = true ↔ ∃ x, digitInBase? 16 c = some x := by
  rw [← isSome_digitInBase?, Option.isSome_iff_exists]

lemma isLooseDigit_eq_false_iff : isLooseDigit c = false ↔ digitInBase? 16 c = none := by
  rw [← isSome_digitInBase?, Option.isSome_eq_false_iff, Option.isNone_iff_eq_none]

/-- The integer of a text without blanks around it. -/
def parseTrimmed (t : Text) : Except Fault Int := do
  let (negative, r) := cutSign t
  let digits ← orFault .malformedInteger (groupedDigits? 16 (dropHexMark r))
  pure (signed negative (ofDigits 16 digits))

lemma parseHex_eq (t : Text) : parseHex t = parseTrimmed (trimPadding t) := rfl

lemma parseTrimmed_nil : parseTrimmed [] = .error .malformedInteger := rfl

lemma cutSign_of_ne {r : Text} (hminus : c ≠ '-') (hplus : c ≠ '+') :
    cutSign (c :: r) = (false, c :: r) := by
  simp [cutSign, hminus, hplus]

lemma dropHexMark_one (c : Char) : dropHexMark [c] = [c] := by
  unfold dropHexMark
  split <;> simp_all

/-- A sign is no digit. -/
lemma parseTrimmed_one (c : Char) : parseTrimmed [c] =
    orFault .malformedInteger ((digitInBase? 16 c).map fun x : Nat => (x : Int)) := by
  by_cases hminus : c = '-'
  · subst hminus
    rfl
  · by_cases hplus : c = '+'
    · subst hplus
      rfl
    · rw [parseTrimmed, cutSign_of_ne hminus hplus]
      simp only [dropHexMark_one, groupedDigits?]
      cases digitInBase? 16 c with
      | none => rfl
      | some x => simp [orFault, ofDigits, signed]

/-- The mark of hexadecimal numerals and the one between groups of digits are no digits either. -/
lemma groupedDigits?_pair (c d : Char) : groupedDigits? 16 (dropHexMark [c, d]) =
    (digitInBase? 16 c).bind fun x => (digitInBase? 16 d).map fun y => [x, y] := by
  by_cases hmark : c = '0' ∧ (d = 'x' ∨ d = 'X')
  · obtain ⟨rfl, rfl | rfl⟩ := hmark <;> rfl
  · have hdrop : dropHexMark [c, d] = [c, d] := by
      unfold dropHexMark
      split <;> simp_all
    rw [hdrop]
    by_cases hunder : d = '_'
    · subst hunder
      have hnone : digitInBase? 16 '_' = none := rfl
      cases hc : digitInBase? 16 c <;> simp [groupedDigits?, hnone, hc]
    · rw [groupedDigits?]
      · cases hc : digitInBase? 16 c <;> cases hd : digitInBase? 16 d <;> simp [groupedDigits?, hd]
      · simp
      · exact fun r hr => hunder (List.cons.inj hr).1

lemma parseTrimmed_two (hminus : c ≠ '-') (hplus : c ≠ '+') : parseTrimmed [c, d] =
    orFault .malformedInteger
      ((digitInBase? 16 c).bind fun x => (digitInBase? 16 d).map fun y => (16 * x + y : Int)) := by
  rw [parseTrimmed, cutSign_of_ne hminus hplus]
  simp only [groupedDigits?_pair]
  cases digitInBase? 16 c with
  | none => rfl
  | some x =>
    cases digitInBase? 16 d with
    | none => rfl
    | some y => simp [orFault, ofDigits, signed]

lemma trimPadding_one (c : Char) : trimPadding [c] = if isPadding c then [] else [c] := by
  cases hc : isPadding c <;> simp [trimPadding, hc]

lemma trimPadding_two (c d : Char) : trimPadding [c, d] =
    if isPadding c then if isPadding d then [] else [d]
    else if isPadding d then [c] else [c, d] := by
  cases hc : isPadding c <;> cases hd : isPadding d <;> simp [trimPadding, hc, hd]

/-- A numeral of one character is a digit. -/
lemma parseHex_one (c : Char) : parseHex [c] =
    orFault .malformedInteger ((digitInBase? 16 c).map fun x : Nat => (x : Int)) := by
  rw [parseHex_eq, trimPadding_one]
  split
  · next hpad =>
    rw [isLooseDigit_eq_false_iff.1 (isLooseDigit_of_isPadding hpad)]
    rfl
  · exact parseTrimmed_one c

lemma not_sign_of_digit {x : Nat} (h : digitInBase? 16 c = some x) : c ≠ '-' ∧ c ≠ '+' := by
  constructor <;> rintro rfl <;> cases h

lemma isPadding_of_digit {x : Nat} (h : digitInBase? 16 c = some x) : isPadding c = false := by
  cases hpad : isPadding c with
  | false => rfl
  | true =>
    have hnone := isLooseDigit_eq_false_iff.1 (isLooseDigit_of_isPadding hpad)
    rw [h] at hnone
    cases hnone

/-- The value of two digits. -/
lemma parseHex_of_digits {x y : Nat} (hc : digitInBase? 16 c = some x)
    (hd : digitInBase? 16 d = some y) : parseHex [c, d] = .ok (16 * x + y) := by
  obtain ⟨hminus, hplus⟩ := not_sign_of_digit hc
  rw [parseHex_eq, trimPadding_two, isPadding_of_digit hc, isPadding_of_digit hd]
  simp only [Bool.false_eq_true, if_false, parseTrimmed_two hminus hplus, hc, hd]
  rfl

/-- A character written twice is a numeral if and only if it is one by itself. -/
lemma parseHex_doubled (c : Char) : parseHex [c, c] =
    orFault .malformedInteger ((digitInBase? 16 c).map fun x : Nat => (17 * x : Int)) := by
  cases hc : digitInBase? 16 c with
  | some x =>
    rw [parseHex_of_digits hc hc, Option.map_some, orFault]
    congr 1
    omega
  | none =>
    rw [parseHex_eq, trimPadding_two]
    cases hpad : isPadding c with
    | true => rfl
    | false =>
      by_cases hminus : c = '-'
      · subst hminus
        rfl
      · by_cases hplus : c = '+'
        · subst hplus
          rfl
        · simp only [Bool.false_eq_true, if_false, parseTrimmed_two hminus hplus, hc]
          rfl

lemma exists_parseHex_one : (∃ n, parseHex [c] = .ok n) ↔ isLooseDigit c = true := by
  rw [parseHex_one, exists_orFault_iff, isLooseDigit_iff]

lemma exists_parseHex_doubled : (∃ n, parseHex [c, c] = .ok n) ↔ isLooseDigit c = true := by
  rw [parseHex_doubled, exists_orFault_iff, isLooseDigit_iff]

lemma exists_parseTrimmed_signed (hsign : c = '+' ∨ c = '-') :
    (∃ n, parseTrimmed [c, d] = .ok n) ↔ isLooseDigit d = true := by
  have hcut : ∃ negative, cutSign [c, d] = (negative, [d]) := by
    obtain rfl | rfl := hsign
    · exact ⟨false, rfl⟩
    · exact ⟨true, rfl⟩
  obtain ⟨negative, hcut⟩ := hcut
  rw [isLooseDigit_iff, parseTrimmed, hcut]
  simp only [dropHexMark_one, groupedDigits?]
  cases digitInBase? 16 d with
  | none => exact iff_of_false not_ok_of_fault (by simp)
  | some x => exact iff_of_true ⟨_, rfl⟩ ⟨x, rfl⟩

lemma exists_parseTrimmed_two (hsign : ¬ (c = '+' ∨ c = '-')) :
    (∃ n, parseTrimmed [c, d] = .ok n) ↔ isLooseDigit c = true ∧ isLooseDigit d = true := by
  rw [not_or] at hsign
  rw [isLooseDigit_iff, isLooseDigit_iff, parseTrimmed_two hsign.2 hsign.1]
  cases digitInBase? 16 c with
  | none => exact iff_of_false not_ok_of_fault (by simp)
  | some x =>
    cases digitInBase? 16 d with
    | none => exact iff_of_false not_ok_of_fault (by simp)
    | some y => exact iff_of_true ⟨_, rfl⟩ ⟨⟨x, rfl⟩, y, rfl⟩

/-- Two characters are a numeral if and only if they are a pair of the kind that is taken for one. -/
theorem exists_parseHex_two : (∃ n, parseHex [c, d] = .ok n) ↔ isLoosePair c d = true := by
  have hone (c : Char) : (∃ n, parseTrimmed [c] = .ok n) ↔ isLooseDigit c = true := by
    rw [parseTrimmed_one, exists_orFault_iff, isLooseDigit_iff]
  rw [parseHex_eq, trimPadding_two, isLoosePair]
  cases hc : isPadding c with
  | false =>
    cases hd : isPadding d with
    | false =>
      by_cases hsign : c = '+' ∨ c = '-'
      · have hnone : isLooseDigit c = false := by
          obtain rfl | rfl := hsign <;> rfl
        simp [exists_parseTrimmed_signed hsign, hsign, hnone]
      · simp [exists_parseTrimmed_two hsign, hsign]
    | true => simp [hone, isLooseDigit_of_isPadding hd]
  | true =>
    cases hd : isPadding d with
    | false => simp [hone, isLooseDigit_of_isPadding hc]
    | true => simp [parseTrimmed_nil, isLooseDigit_of_isPadding hc, isLooseDigit_of_isPadding hd]

example : isLoosePair '+' '1' = true := by rfl

example : isLoosePair '0' 'x' = false := by rfl

end UmlDrawing.Numeral
