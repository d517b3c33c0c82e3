import UmlDrawing.Numeral.Decimal
import UmlDrawing.Numeral.Real
import UmlDrawing.Proofs.Numeral.Exact
import UmlDrawing.Proofs.Numeral.Leading

/-! Numerals read exactly. A numeral is made of digits, of more digits after a point, and of a power
of ten; the number that it is written for needs no rounding to a double. -/
namespace UmlDrawing

namespace Numeral

open Text (digitValue?)

/-- The digits after a point that the text begins with, and the rest of the text. -/
def cutFraction : Text → List ℕ × Text
  | '.' :: r => cutDigits r
  | r => ([], r)

/-- The digits of an unsigned numeral as one number, and the power of ten of the last of them. -/
def parts? (t : Text) : Option (ℕ × ℤ) :=
  let (whole, r) := cutDigits t
  let (fraction, r) := cutFraction r
  if whole = [] ∧ fraction = [] then none
  else
    (parsePower? r).map fun power =>
      (ofDigits 10 (whole ++ fraction), power - fraction.length)

/-- The number that a text is written for. -/
def rational? (t : Text) : Option ℚ :=
  let (negative, r) := cutSign (trimPadding t)
  (parts? r).map fun p => Binary64.signed negative (p.1 * 10 ^ p.2)

/-- The number that is written with some digits. -/
def valueOf (digits : Text) : ℕ := ofDigits 10 (digits.filterMap digitValue?)

/-- Digits after a point, and no point if there are none. -/
def dotted (fraction : Text) : Text := if fraction = [] then [] else '.' :: fraction

section Digits

variable {s t rest : Text} {c : Char} {r : Text} {d : ℕ}

lemma ofDigits_append (base : ℕ) (a b : List ℕ) :
    ofDigits base (a ++ b) = ofDigits base a * base ^ b.length + ofDigits base b := by
  induction b using List.reverseRecOn with
  | nil => simp
  | append_singleton b d ih =>
    rw [← List.append_assoc, ofDigits_append_singleton, ih, ofDigits_append_singleton,
      List.length_append, List.length_singleton, pow_succ]
    ring

lemma length_filterMap_digits (ht : ∀ c ∈ t, c.isDigit = true) :
    (t.filterMap digitValue?).length = t.length := by
  induction t with
  | nil => rfl
  | cons c t ih =>
    obtain ⟨hc, ht⟩ := List.forall_mem_cons.1 ht
    rw [List.filterMap_cons_some (Text.digitValue?_of_isDigit hc), List.length_cons, ih ht,
      List.length_cons]

lemma valueOf_append (s : Text) (ht : ∀ c ∈ t, c.isDigit = true) :
    valueOf (s ++ t) = valueOf s * 10 ^ t.length + valueOf t := by
  rw [valueOf, List.filterMap_append, ofDigits_append, length_filterMap_digits ht]
  rfl

lemma valueOf_ofNat (n : ℕ) : valueOf (Text.ofNat n) = n := ofDigits_ofNat n

lemma valueOf_zeros (k : ℕ) : valueOf (List.replicate k '0') = 0 := by
  induction k with
  | zero => rfl
  | succ k ih =>
    rw [List.replicate_succ', valueOf_append _ (by simp), ih]
    rfl

lemma cutDigits_of_eq_none (hc : digitValue? c = none) : cutDigits (c :: r) = ([], c :: r) := by
  rw [cutDigits.eq_def]
  split <;> simp_all

lemma cutDigits_cons (hc : digitValue? c = some d) (hr : r.head? ≠ some '_') :
    cutDigits (c :: r) = (d :: (cutDigits r).1, (cutDigits r).2) := by
  rw [cutDigits.eq_def]
  split <;> simp_all

/-- Digits are cut off up to what is no digit and does not keep digits together. -/
lemma cutDigits_append (ht : ∀ c ∈ t, c.isDigit = true)
    (hrest : ∀ c, rest.head? = some c → c ≠ '_' ∧ digitValue? c = none) :
    cutDigits (t ++ rest) = (t.filterMap digitValue?, rest) := by
  induction t with
  | nil =>
    cases rest with
    | nil => simp [cutDigits]
    | cons c rest => exact cutDigits_of_eq_none (hrest c rfl).2
  | cons c t ih =>
    obtain ⟨hc, ht⟩ := List.forall_mem_cons.1 ht
    have hhead : (t ++ rest).head? ≠ some '_' := by
      cases t with
      | nil => exact fun h => (hrest '_' h).1 rfl
      | cons d t =>
        intro h
        obtain rfl : d = '_' := Option.some.inj h
        exact absurd (ht '_' (by simp)) (by decide)
    rw [List.cons_append, cutDigits_cons (Text.digitValue?_of_isDigit hc) hhead, ih ht,
      List.filterMap_cons_some (Text.digitValue?_of_isDigit hc)]

lemma cutDigits_of_forall (ht : ∀ c ∈ t, c.isDigit = true) :
    cutDigits t = (t.filterMap digitValue?, []) := by
  have hcut := cutDigits_append ht (show ∀ c, ([] : Text).head? = some c → _ by simp)
  rwa [List.append_nil] at hcut

lemma filterMap_digits_ne_nil (ht : ∀ c ∈ t, c.isDigit = true) (hne : t ≠ []) :
    t.filterMap digitValue? ≠ [] := by
  intro h
  have hlength := length_filterMap_digits ht
  rw [h] at hlength
  exact hne (List.length_eq_zero_iff.1 hlength.symm)

end Digits

/-- The end of a numeral that has a power of ten, and of one that has none. -/
inductive IsMark : Text → ℤ → Prop where
  | plain : IsMark [] 0
  | scaled (k : ℤ) : IsMark (Decimal.powerMark k) k

/-- A text that is a numeral for a number: digits, more of them after a point if there are any, and a
power of ten if there is a mark for it. -/
def Writes (t : Text) (q : ℚ) : Prop :=
  ∃ whole fraction mark power, t = whole ++ (dotted fraction ++ mark) ∧ whole ≠ [] ∧
    (∀ c ∈ whole, c.isDigit = true) ∧ (∀ c ∈ fraction, c.isDigit = true) ∧ IsMark mark power ∧
    q = valueOf (whole ++ fraction) * 10 ^ (power - fraction.length)

section Numerals

variable {t whole fraction mark : Text} {power : ℤ} {q : ℚ}

lemma isDigit_of_mem_zeros {k : ℕ} {c : Char} (h : c ∈ List.replicate k '0') : c.isDigit = true := by
  rw [List.eq_of_mem_replicate h]
  rfl

lemma parsePower?_powerMark (k : ℤ) : parsePower? (Decimal.powerMark k) = some k := by
  obtain ⟨digits, hdigits⟩ : ∃ digits, digits = List.replicate
      (2 - (Nat.toDigits 10 k.natAbs).length) '0' ++ Text.ofNat k.natAbs := ⟨_, rfl⟩
  have hall : ∀ c ∈ digits, c.isDigit = true := by
    rw [hdigits]
    exact fun c hc => (List.mem_append.1 hc).elim isDigit_of_mem_zeros isDigit_of_mem_ofNat
  have hne : digits ≠ [] := by simp [hdigits, ofNat_ne_nil]
  have hvalue : valueOf digits = k.natAbs := by
    rw [hdigits, valueOf_append _ fun c hc => isDigit_of_mem_ofNat hc, valueOf_zeros, valueOf_ofNat,
      zero_mul, zero_add]
  have hmark : Decimal.powerMark k = 'e' :: (if k < 0 then '-' else '+') :: digits := by
    rw [hdigits]
    rfl
  have hsign : cutSign ((if k < 0 then '-' else '+') :: digits) = (decide (k < 0), digits) := by
    split <;> simp_all [cutSign]
  rw [hmark, parsePower?, if_pos (.inl rfl), hsign]
  dsimp only
  rw [cutDigits_of_forall hall]
  rw [valueOf] at hvalue
  cases hvalues : digits.filterMap digitValue? with
  | nil => exact absurd hvalues (filterMap_digits_ne_nil hall hne)
  | cons d values =>
    rw [hvalues] at hvalue
    simp only [hvalue, signed, decide_eq_true_eq]
    congr 1
    split <;> omega

lemma IsMark.parsePower? (h : IsMark mark power) : Numeral.parsePower? mark = some power := by
  cases h with
  | plain => rfl
  | scaled => exact parsePower?_powerMark _

/-- No mark goes on with a digit or with a point. -/
lemma IsMark.head (h : IsMark mark power) : ∀ c, mark.head? = some c → c = 'e' := by
  cases h with
  | plain => simp
  | scaled => exact fun c hc => (Option.some.inj hc).symm

lemma IsMark.ends (h : IsMark mark power) :
    ∀ c, mark.head? = some c → c ≠ '_' ∧ digitValue? c = none := by
  intro c hc
  rw [h.head c hc]
  decide

/-- Digits after a point are cut off, and so are none if there is no point. -/
lemma cutFraction_dotted (hfraction : ∀ c ∈ fraction, c.isDigit = true) (hmark : IsMark mark power) :
    cutFraction (dotted fraction ++ mark) = (fraction.filterMap digitValue?, mark) := by
  by_cases hdot : fraction = []
  · subst hdot
    cases hmark <;> rfl
  · rw [dotted, if_neg hdot]
    exact cutDigits_append hfraction hmark.ends

lemma dotted_ends (hmark : IsMark mark power) :
    ∀ c, (dotted fraction ++ mark).head? = some c → c ≠ '_' ∧ digitValue? c = none := by
  by_cases hdot : fraction = []
  · subst hdot
    exact hmark.ends
  · intro c hc
    rw [dotted, if_neg hdot] at hc
    rw [← Option.some.inj hc]
    decide

/-- The digits and the power of a numeral are read. -/
lemma parts?_append (hne : whole ≠ []) (hwhole : ∀ c ∈ whole, c.isDigit = true)
    (hfraction : ∀ c ∈ fraction, c.isDigit = true) (hmark : IsMark mark power) :
    parts? (whole ++ (dotted fraction ++ mark)) =
      some (valueOf (whole ++ fraction), power - fraction.length) := by
  have hdigits := filterMap_digits_ne_nil hwhole hne
  rw [parts?, cutDigits_append hwhole (dotted_ends hmark)]
  dsimp only
  rw [cutFraction_dotted hfraction hmark]
  dsimp only
  rw [if_neg (fun h => hdigits h.1), hmark.parsePower?, Option.map_some,
    length_filterMap_digits hfraction, valueOf, List.filterMap_append]

lemma isPadding_of_isDigit {c : Char} (h : c.isDigit = true) : isPadding c = false := by
  have hrange : 48 ≤ c.toNat ∧ c.toNat ≤ 57 := by
    simpa [Char.isDigit, UInt32.le_iff_toNat_le] using h
  have hblank : (c == ' ') = false := by
    rw [beq_eq_false_iff_ne]
    rintro rfl
    exact absurd h (by decide)
  simp only [isPadding, hblank, Bool.false_or]
  rw [if_pos (by omega)]
  simp only [Bool.and_eq_false_iff, decide_eq_false_iff_not]
  omega

lemma trimPadding_of_forall (h : ∀ c ∈ t, isPadding c = false) : trimPadding t = t := by
  have hkeep {u : Text} (hu : ∀ c ∈ u, isPadding c = false) : u.dropWhile isPadding = u := by
    cases u with
    | nil => rfl
    | cons c u => exact List.dropWhile_cons_of_neg (by simp [hu c (by simp)])
  rw [trimPadding, hkeep h, hkeep (by simpa using h), List.reverse_reverse]

lemma IsMark.isPadding (h : IsMark mark power) : ∀ c ∈ mark, isPadding c = false := by
  cases h with
  | plain => simp
  | scaled =>
    intro c hc
    simp only [Decimal.powerMark, List.cons_append, List.mem_cons, List.mem_append] at hc
    obtain rfl | rfl | hc | hc := hc
    · decide
    · split <;> decide
    · exact isPadding_of_isDigit (isDigit_of_mem_zeros hc)
    · exact isPadding_of_isDigit (isDigit_of_mem_ofNat hc)

/-- There is nothing around a numeral that is not part of it. -/
lemma Writes.isPadding (h : Writes t q) : ∀ c ∈ t, isPadding c = false := by
  obtain ⟨whole, fraction, mark, power, rfl, -, hwhole, hfraction, hmark, -⟩ := h
  intro c hc
  simp only [List.mem_append] at hc
  obtain hc | hc | hc := hc
  · exact isPadding_of_isDigit (hwhole c hc)
  · unfold dotted at hc
    split at hc
    · simp at hc
    · obtain rfl | hc := List.mem_cons.1 hc
      · decide
      · exact isPadding_of_isDigit (hfraction c hc)
  · exact hmark.isPadding c hc

/-- The sign before a numeral is read apart from it. -/
lemma Writes.cutSign_withSign (h : Writes t q) (s : Bool) :
    cutSign (Decimal.withSign s t) = (s, t) := by
  cases s with
  | true => rfl
  | false =>
    obtain ⟨whole, fraction, mark, power, rfl, hne, hwhole, -⟩ := h
    obtain ⟨c, whole, rfl⟩ := List.exists_cons_of_ne_nil hne
    have hc : Text.isDigit c = true := by
      rw [Text.isDigit, Text.digitValue?_of_isDigit (hwhole c (by simp))]
      rfl
    exact cutSign_append (.inl rfl) fun d hd => Option.some.inj hd ▸ hc

/-- A numeral is read as the number that it is written for. -/
theorem Writes.rational?_withSign (h : Writes t q) (s : Bool) :
    rational? (Decimal.withSign s t) = some (Binary64.signed s q) := by
  have hpadding : ∀ c ∈ Decimal.withSign s t, Numeral.isPadding c = false := by
    cases s with
    | false => exact h.isPadding
    | true => exact List.forall_mem_cons.2 ⟨by decide, h.isPadding⟩
  rw [rational?, trimPadding_of_forall hpadding, h.cutSign_withSign]
  obtain ⟨whole, fraction, mark, power, rfl, hne, hwhole, hfraction, hmark, rfl⟩ := h
  dsimp only
  rw [parts?_append hne hwhole hfraction hmark, Option.map_some]

end Numerals

end Numeral

end UmlDrawing
