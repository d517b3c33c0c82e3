import UmlDrawing.Proofs.Color.Range
import UmlDrawing.Proofs.Numeral.Hexadecimal
import UmlDrawing.Proofs.Text.Split

/-! Which texts are read as hexadecimal colours. All that consist of 3, 4, 6 or 8 hexadecimal digits
are, with the components that the digits give. Others are as well: the digits of all scripts count, and
in a pair a sign or a blank may take the place of a digit. -/
namespace UmlDrawing.Color

open Numeral

/-- The text after the mark of hexadecimal colours, which is optional. -/
def unmarked : Text → Text
  | '#' :: t => t
  | t => t

/-- Whether a character is a hexadecimal digit. -/
def isHexDigit (c : Char) : Bool := "0123456789abcdefABCDEF".toList.elem c

/-- The value of a hexadecimal digit. -/
def hexValue (c : Char) : Nat := "0123456789abcdef".toList.idxOf c.toLower

/-- Whether a text is of the form of hexadecimal colours. -/
def IsHexForm (digits : Text) : Prop :=
  digits.length ∈ [3, 4, 6, 8] ∧ ∀ c ∈ digits, isHexDigit c = true

/-- Whether the characters of a text, two by two, are taken for hexadecimal numerals. -/
def hasLoosePairs : Text → Bool
  | [] => true
  | [_] => false
  | c :: d :: t => isLoosePair c d && hasLoosePairs t

/-- Whether a text is taken for a hexadecimal colour. -/
def IsTakenForHex (digits : Text) : Prop :=
  (digits.length = 3 ∨ digits.length = 4) ∧ digits.all isLooseDigit = true ∨
    (digits.length = 6 ∨ digits.length = 8) ∧ hasLoosePairs digits = true

/-- The value of two hexadecimal digits. -/
def pairValue (c d : Char) : Nat := 16 * hexValue c + hexValue d

/-- The components that six or eight hexadecimal digits give. -/
def ofPairs : Text → Except Fault Color
  | [a, b, c, d, e, f] => .ok { r := pairValue a b, g := pairValue c d, b := pairValue e f }
  | [a, b, c, d, e, f, g, h] => do
    let alpha ← Scalar.div (.whole (pairValue g h)) (.whole 255)
    pure { r := pairValue a b, g := pairValue c d, b := pairValue e f, a := alpha }
  | _ => .error .hexLength

/-- Three or four digits with each of them written twice; other texts as they are. -/
def lengthened (digits : Text) : Text :=
  if digits.length ≤ 4 then digits.flatMap fun c => [c, c] else digits

lemma unmarked_eq (source : Text) :
    (Text.dropStart? ['#'] source).getD source = unmarked source := by
  cases source with
  | nil => rfl
  | cons c t =>
    by_cases hc : c = '#'
    · subst hc
      rfl
    · have hnone : Text.dropStart? ['#'] (c :: t) = none := by
        simp [Text.dropStart?, Ne.symm hc]
      rw [hnone, Option.getD_none]
      unfold unmarked
      split
      · next h => exact absurd (List.cons.inj h).1 hc
      · rfl

lemma digitInBase?_of_isHexDigit {c : Char} (h : isHexDigit c = true) :
    digitInBase? 16 c = some (hexValue c) := by
  have hmem : c ∈ ['0', '1', '2', '3', '4', '5', '6', '7', '8', '9', 'a', 'b', 'c', 'd', 'e', 'f',
      'A', 'B', 'C', 'D', 'E', 'F'] := List.elem_iff.1 h
  simp only [List.mem_cons, List.not_mem_nil, or_false] at hmem
  obtain rfl | rfl | rfl | rfl | rfl | rfl | rfl | rfl | rfl | rfl | rfl | rfl | rfl | rfl | rfl |
    rfl | rfl | rfl | rfl | rfl | rfl | rfl := hmem <;> rfl

lemma isLooseDigit_of_isHexDigit {c : Char} (h : isHexDigit c = true) : isLooseDigit c = true :=
  isLooseDigit_iff.2 ⟨_, digitInBase?_of_isHexDigit h⟩

lemma isLoosePair_of_isHexDigit {c d : Char} (hc : isHexDigit c = true) (hd : isHexDigit d = true) :
    isLoosePair c d = true := by
  simp [isLoosePair, isLooseDigit_of_isHexDigit hc, isLooseDigit_of_isHexDigit hd]

/-! What is taken for a colour. -/

lemma exists_ofHexParts {p q s : Text} {alpha : Scalar} :
    (∃ c, ofHexParts [p, q, s] alpha = .ok c) ↔
      (∃ n, parseHex p = .ok n) ∧ (∃ n, parseHex q = .ok n) ∧ ∃ n, parseHex s = .ok n := by
  simp only [ofHexParts_eq_ok_iff]
  constructor
  · rintro ⟨-, r, g, b, hr, hg, hb, -⟩
    exact ⟨⟨r, hr⟩, ⟨g, hg⟩, b, hb⟩
  · rintro ⟨⟨r, hr⟩, ⟨g, hg⟩, b, hb⟩
    exact ⟨_, r, g, b, hr, hg, hb, rfl⟩

lemma exists_hexAlpha_one {c : Char} : (∃ a, hexAlpha [c] 15 = .ok a) ↔ isLooseDigit c = true := by
  rw [← exists_parseHex_one]
  constructor
  · rintro ⟨a, ha⟩
    obtain ⟨n, hn, -⟩ := bind_eq_ok_iff.1 ha
    exact ⟨n, hn⟩
  · rintro ⟨n, hn⟩
    obtain ⟨hlow, hhigh⟩ := parseHex_one_bounds hn
    obtain ⟨k, rfl⟩ := Int.eq_ofNat_of_zero_le hlow
    obtain ⟨a, ha, -⟩ := exists_of_dividesToPart (dividesToPart_digit ⟨k, by omega⟩)
    exact ⟨a, by rw [hexAlpha, hn]; exact ha⟩

lemma exists_hexAlpha_two {c d : Char} :
    (∃ a, hexAlpha [c, d] 255 = .ok a) ↔ isLoosePair c d = true := by
  rw [← exists_parseHex_two]
  constructor
  · rintro ⟨a, ha⟩
    obtain ⟨n, hn, -⟩ := bind_eq_ok_iff.1 ha
    exact ⟨n, hn⟩
  · rintro ⟨n, hn⟩
    obtain ⟨a, ha, -⟩ := hexAlpha_pair hn
    exact ⟨a, ha⟩

/-- A text is read as a hexadecimal colour if and only if it is taken for one. -/
theorem exists_ofHex_iff (source : Text) :
    (∃ c, ofHex source = .ok c) ↔ IsTakenForHex (unmarked source) := by
  have hshort (a b c : Char) (alpha : Scalar) :
      (∃ color, ofHexParts (doubled [a, b, c]) alpha = .ok color) ↔
        isLooseDigit a = true ∧ isLooseDigit b = true ∧ isLooseDigit c = true := by
    simp only [doubled, List.map_cons, List.map_nil, exists_ofHexParts, exists_parseHex_doubled]
  have hlong (a b c d e f : Char) (alpha : Scalar) :
      (∃ color, ofHexParts (paired [a, b, c, d, e, f]) alpha = .ok color) ↔
        isLoosePair a b = true ∧ isLoosePair c d = true ∧ isLoosePair e f = true := by
    have hpairs : paired [a, b, c, d, e, f] = [[a, b], [c, d], [e, f]] := rfl
    rw [hpairs, exists_ofHexParts, exists_parseHex_two, exists_parseHex_two, exists_parseHex_two]
  unfold ofHex IsTakenForHex
  rw [unmarked_eq]
  generalize unmarked source = digits
  match digits with
  | [a, b, c] => simpa using hshort a b c _
  | [a, b, c, d] =>
    refine (exists_ok_bind_iff fun alpha => hshort a b c alpha).trans ?_
    have hdrop : [a, b, c, d].drop 3 = [d] := rfl
    rw [hdrop, exists_hexAlpha_one, and_comm]
    simp [and_assoc]
  | [a, b, c, d, e, f] => simpa [hasLoosePairs] using hlong a b c d e f _
  | [a, b, c, d, e, f, g, h] =>
    refine (exists_ok_bind_iff fun alpha => hlong a b c d e f alpha).trans ?_
    have hdrop : [a, b, c, d, e, f, g, h].drop 6 = [g, h] := rfl
    rw [hdrop, exists_hexAlpha_two, and_comm]
    simp [hasLoosePairs, and_assoc]
  | [] => simp
  | [a] => simp
  | [a, b] => simp
  | [a, b, c, d, e] => simp
  | [a, b, c, d, e, f, g] => simp
  | a :: b :: c :: d :: e :: f :: g :: h :: i :: rest => simp

/-! What a colour of the right form means. -/

lemma hexValue_lt {c : Char} (h : isHexDigit c = true) : hexValue c < 16 := by
  have hone : parseHex [c] = .ok (hexValue c) := by
    rw [parseHex_one, digitInBase?_of_isHexDigit h]
    rfl
  have hbounds := (parseHex_one_bounds hone).2
  omega

lemma parseHex_pair {c d : Char} (hc : isHexDigit c = true) (hd : isHexDigit d = true) :
    parseHex [c, d] = .ok (pairValue c d) := by
  rw [parseHex_of_digits (digitInBase?_of_isHexDigit hc) (digitInBase?_of_isHexDigit hd),
    pairValue, Nat.cast_add, Nat.cast_mul]
  rfl

lemma ofHexParts_pairs {a b c d e f : Char} {alpha : Scalar}
    (h : ∀ x ∈ [a, b, c, d, e, f], isHexDigit x = true) :
    ofHexParts [[a, b], [c, d], [e, f]] alpha =
      .ok { r := pairValue a b, g := pairValue c d, b := pairValue e f, a := alpha } := by
  refine ofHexParts_eq_ok_iff.2 ⟨_, _, _, ?_, ?_, ?_, rfl⟩ <;>
    exact parseHex_pair (h _ (by simp)) (h _ (by simp))

-- A digit as a part of 15 is the digit written twice as a part of 255, also after rounding.
lemma div_digit : ∀ n : Fin 16,
    Scalar.div (.whole (n : Int)) (.whole 15) = Scalar.div (.whole (17 * n : Int)) (.whole 255) := by
  intro n
  fin_cases n <;> rfl

lemma hexAlpha_digit {c : Char} (h : isHexDigit c = true) :
    hexAlpha [c] 15 = Scalar.div (.whole (pairValue c c)) (.whole 255) := by
  have hpair : ((pairValue c c : Nat) : Int) = 17 * (hexValue c : Int) := by
    rw [pairValue]
    omega
  rw [hexAlpha, parseHex_one, digitInBase?_of_isHexDigit h, hpair]
  exact div_digit ⟨hexValue c, hexValue_lt h⟩

/-- A text of the right form has the components of its six or eight digits, three or four digits
being written twice. -/
theorem ofHex_of_isHexForm (source : Text) (h : IsHexForm (unmarked source)) :
    ofHex source = ofPairs (lengthened (unmarked source)) := by
  unfold ofHex
  rw [unmarked_eq]
  generalize unmarked source = digits at h
  obtain ⟨hlength, hdigits⟩ := h
  match digits with
  | [a, b, c] => exact ofHexParts_pairs (by simpa using hdigits)
  | [a, b, c, d] =>
    have hparts (alpha : Scalar) : ofHexParts [[a, a], [b, b], [c, c]] alpha = _ :=
      ofHexParts_pairs fun x hx => hdigits x (by
        simp only [List.mem_cons, List.not_mem_nil, or_false] at hx ⊢
        tauto)
    show (hexAlpha [d] 15 >>= fun alpha => ofHexParts [[a, a], [b, b], [c, c]] alpha) = _
    simp only [hparts, hexAlpha_digit (hdigits d (by simp))]
    rfl
  | [a, b, c, d, e, f] => exact ofHexParts_pairs hdigits
  | [a, b, c, d, e, f, g, h] =>
    have hparts (alpha : Scalar) : ofHexParts [[a, b], [c, d], [e, f]] alpha = _ :=
      ofHexParts_pairs fun x hx => hdigits x (by
        simp only [List.mem_cons, List.not_mem_nil, or_false] at hx ⊢
        tauto)
    have halpha : parseHex [g, h] = .ok (pairValue g h) :=
      parseHex_pair (hdigits g (by simp)) (hdigits h (by simp))
    show (hexAlpha [g, h] 255 >>= fun alpha => ofHexParts [[a, b], [c, d], [e, f]] alpha) = _
    simp only [hparts, hexAlpha, halpha]
    rfl
  | [] => simp at hlength
  | [a] => simp at hlength
  | [a, b] => simp at hlength
  | [a, b, c, d, e] => simp at hlength
  | [a, b, c, d, e, f, g] => simp at hlength
  | a :: b :: c :: d :: e :: f :: g :: h :: i :: rest => simp at hlength

lemma hasLoosePairs_of_even {digits : Text} (heven : digits.length % 2 = 0)
    (h : ∀ c ∈ digits, isHexDigit c = true) : hasLoosePairs digits = true := by
  induction digits using hasLoosePairs.induct with
  | case1 => rfl
  | case2 c => simp at heven
  | case3 c d t ih =>
    have hpair : isLoosePair c d = true :=
      isLoosePair_of_isHexDigit (h c (by simp)) (h d (by simp))
    rw [hasLoosePairs, hpair, Bool.true_and]
    refine ih ?_ fun x hx => h x (by simp [hx])
    simp only [List.length_cons] at heven
    omega

lemma IsHexForm.isTakenForHex {digits : Text} (h : IsHexForm digits) : IsTakenForHex digits := by
  obtain ⟨hlength, hdigits⟩ := h
  simp only [List.mem_cons, List.not_mem_nil, or_false] at hlength
  obtain h3 | h4 | h6 | h8 := hlength
  · exact .inl ⟨.inl h3, List.all_eq_true.2 fun c hc => isLooseDigit_of_isHexDigit (hdigits c hc)⟩
  · exact .inl ⟨.inr h4, List.all_eq_true.2 fun c hc => isLooseDigit_of_isHexDigit (hdigits c hc)⟩
  · exact .inr ⟨.inl h6, hasLoosePairs_of_even (by omega) hdigits⟩
  · exact .inr ⟨.inr h8, hasLoosePairs_of_even (by omega) hdigits⟩

/-- What is taken for a colour has the length of one. -/
lemma IsTakenForHex.length_mem {digits : Text} (h : IsTakenForHex digits) :
    digits.length ∈ [3, 4, 6, 8] := by
  obtain ⟨h3 | h4, -⟩ | ⟨h6 | h8, -⟩ := h <;> simp [*]

lemma length_flatMap_twice (t : Text) : (t.flatMap fun c => [c, c]).length = 2 * t.length := by
  simp [List.length_flatMap, Nat.mul_comm]

lemma IsHexForm.lengthened {digits : Text} (h : IsHexForm digits) :
    IsHexForm (lengthened digits) ∧ 4 < (lengthened digits).length := by
  obtain ⟨hlength, hdigits⟩ := h
  have htwice := length_flatMap_twice digits
  simp only [List.mem_cons, List.not_mem_nil, or_false] at hlength
  unfold Color.lengthened
  split
  · refine ⟨⟨?_, ?_⟩, by omega⟩
    · simp only [List.mem_cons, List.not_mem_nil, or_false]
      omega
    · intro c hc
      obtain ⟨d, hd, hcd⟩ := List.mem_flatMap.1 hc
      simp only [List.mem_cons, List.not_mem_nil, or_false, or_self] at hcd
      exact hcd ▸ hdigits d hd
  · exact ⟨⟨by simpa using hlength, hdigits⟩, by omega⟩

lemma IsHexForm.unmarked {digits : Text} (h : IsHexForm digits) : unmarked digits = digits := by
  unfold Color.unmarked
  split
  · have hmark := h.2 '#' (by simp)
    cases hmark
  · rfl

/-- **The texts that are read as hexadecimal colours.** They are those taken for one, which differ
from the texts of the right form exactly by those in which some character is no hexadecimal digit.
Texts of the right form give the components of their six or eight digits, and the same colour as with
three or four digits written twice. -/
theorem ofHex_grammar (source : Text) :
    ((∃ c, ofHex source = .ok c) ↔ IsTakenForHex (unmarked source)) ∧
    (((∃ c, ofHex source = .ok c) ↔ IsHexForm (unmarked source)) ↔
      ¬ (IsTakenForHex (unmarked source) ∧ ∃ c ∈ unmarked source, isHexDigit c = false)) ∧
    (IsHexForm (unmarked source) →
      (∃ c, ofHex source = .ok c) ∧ ofHex source = ofPairs (lengthened (unmarked source)) ∧
        ofHex source = ofHex (lengthened (unmarked source))) := by
  refine ⟨exists_ofHex_iff source, ?_, fun hform => ⟨?_, ofHex_of_isHexForm source hform, ?_⟩⟩
  · rw [exists_ofHex_iff]
    constructor
    · rintro hiff ⟨htaken, c, hc, hno⟩
      exact absurd ((hiff.1 htaken).2 c hc) (by simp [hno])
    · refine fun hno => ⟨fun htaken => ⟨htaken.length_mem, fun c hc => ?_⟩, IsHexForm.isTakenForHex⟩
      by_contra hdigit
      exact hno ⟨htaken, c, hc, eq_false_of_ne_true hdigit⟩
  · exact (exists_ofHex_iff source).2 hform.isTakenForHex
  · have hlong := hform.lengthened.1
    have hstays : lengthened (lengthened (unmarked source)) = lengthened (unmarked source) := by
      rw [lengthened, if_neg (Nat.not_le.2 hform.lengthened.2)]
    have hagain := hlong.unmarked
    rw [ofHex_of_isHexForm source hform,
      ofHex_of_isHexForm (lengthened (unmarked source)) (hagain.symm ▸ hlong), hagain, hstays]

/-- Three digits, in either case, mean what they mean when written twice. -/
theorem ofHex_grammar_three_digits :
    IsHexForm (unmarked "#1aF".toList) ∧ ofHex "#1aF".toList = .ok { r := 17, g := 170, b := 255 } ∧
      ofHex "#1aF".toList = ofHex "11aaFF".toList := by
  have hform : IsHexForm (unmarked "#1aF".toList) := by
    refine ⟨by decide, fun c hc => ?_⟩
    have hmem : c ∈ ['1', 'a', 'F'] := hc
    simp only [List.mem_cons, List.not_mem_nil, or_false] at hmem
    obtain rfl | rfl | rfl := hmem <;> rfl
  obtain ⟨-, hpairs, htwice⟩ := (ofHex_grammar "#1aF".toList).2.2 hform
  exact ⟨hform, hpairs, htwice⟩

/-- Three digits with signs are read as a colour. -/
theorem ofHex_signed_digits :
    (∃ c, ofHex "+1+2+3".toList = .ok c) ∧ ¬ IsHexForm (unmarked "+1+2+3".toList) := by
  refine ⟨⟨{ r := 1, g := 2, b := 3 }, rfl⟩, fun h => ?_⟩
  have hsign := h.2 '+' (by decide)
  cases hsign

example : IsTakenForHex (unmarked "#1 2 3 ".toList) := .inr ⟨.inl rfl, rfl⟩

end UmlDrawing.Color
