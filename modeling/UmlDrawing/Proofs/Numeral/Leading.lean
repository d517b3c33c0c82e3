import UmlDrawing.Numeral.Integer
import UmlDrawing.Proofs.Fault
import UmlDrawing.Proofs.Text.Trim

/-! The integer that a text begins with. A reader of single characters finds it exactly where the
text can be cut into blanks, a sign, digits, and a rest that goes on with no digit. -/
namespace UmlDrawing

namespace Text

/-- The blank characters keep apart from the digits of all scripts. -/
lemma isDigit_of_isBlank {c : Char} (h : isBlank c = true) : isDigit c = false := by
  have hapart : ∀ r ∈ blankRanges, ∀ z ∈ zeros, r.2 < z ∨ z + 10 ≤ r.1 := by decide
  obtain ⟨r, hr, hc⟩ := List.any_eq_true.1 h
  simp only [Bool.and_eq_true, decide_eq_true_eq] at hc
  have hnone : ∀ z ∈ zeros, ¬ (z ≤ c.toNat ∧ c.toNat < z + 10) := by
    intro z hz
    have := hapart r hr z hz
    omega
  have hfind : (zeros.find? fun z => z ≤ c.toNat && c.toNat < z + 10) = none := by
    simpa using hnone
  have hascii := hnone 48 (by decide)
  simp only [isDigit, digitValue?, hfind]
  split
  · rw [if_neg (by omega)]
    rfl
  · rfl

lemma digitValue?_of_isDigit {c : Char} (h : c.isDigit = true) :
    digitValue? c = some (c.toNat - 48) := by
  have hrange : 48 ≤ c.toNat ∧ c.toNat ≤ 57 := by
    simpa [Char.isDigit, UInt32.le_iff_toNat_le] using h
  have hbasic : c.toNat < 128 := by omega
  simp only [digitValue?, hbasic, hrange, and_self, if_true]

end Text

namespace Numeral

open Text (isBlank isDigit digitValue?)

/-- Whether a text begins with an integer: after blanks and at most one sign come its digits, as
many as there are. -/
def BeginsWith (t : Text) (n : Int) : Prop :=
  ∃ blanks sign digits rest : Text, t = blanks ++ (sign ++ (digits ++ rest)) ∧
    (∀ c ∈ blanks, isBlank c = true) ∧ (sign = [] ∨ sign = ['+'] ∨ sign = ['-']) ∧
    digits ≠ [] ∧ (∀ c ∈ digits, isDigit c = true) ∧
    (∀ c, rest.head? = some c → isDigit c = false) ∧
    n = signed (decide (sign = ['-'])) (ofDigits 10 (digits.filterMap digitValue?))

lemma leadingDigits_append {digits rest : Text} (hdigits : ∀ c ∈ digits, isDigit c = true)
    (hrest : ∀ c, rest.head? = some c → isDigit c = false) :
    leadingDigits (digits ++ rest) = digits.filterMap digitValue? := by
  induction digits with
  | nil =>
    cases rest with
    | nil => rfl
    | cons c r =>
      have hc : digitValue? c = none := by simpa [isDigit] using hrest c rfl
      simp [leadingDigits, hc]
  | cons c digits ih =>
    obtain ⟨hc, hdigits⟩ := List.forall_mem_cons.1 hdigits
    obtain ⟨d, hd⟩ := Option.isSome_iff_exists.1 hc
    simp [leadingDigits, hd, ih hdigits]

lemma leadingDigits_eq_filterMap (t : Text) :
    leadingDigits t = (t.takeWhile isDigit).filterMap digitValue? := by
  induction t with
  | nil => rfl
  | cons c t ih =>
    cases hc : digitValue? c with
    | none => simp [leadingDigits, isDigit, hc]
    | some d => simp [leadingDigits, isDigit, hc, ih]

lemma cutSign_append {sign r : Text} (hsign : sign = [] ∨ sign = ['+'] ∨ sign = ['-'])
    (hr : ∀ c, r.head? = some c → isDigit c = true) :
    cutSign (sign ++ r) = (decide (sign = ['-']), r) := by
  obtain rfl | rfl | rfl := hsign
  · cases r with
    | nil => rfl
    | cons c r =>
      have hc := hr c rfl
      have hminus : c ≠ '-' := by
        rintro rfl
        exact absurd hc (by decide)
      have hplus : c ≠ '+' := by
        rintro rfl
        exact absurd hc (by decide)
      simp [cutSign, hminus, hplus]
  · rfl
  · rfl

/-- What is left of a text without its sign, and the sign that was taken. -/
lemma exists_cutSign (t : Text) :
    ∃ sign r, t = sign ++ r ∧ (sign = [] ∨ sign = ['+'] ∨ sign = ['-']) ∧
      cutSign t = (decide (sign = ['-']), r) := by
  unfold cutSign
  split
  · next r => exact ⟨['-'], r, rfl, by simp, rfl⟩
  · next r => exact ⟨['+'], r, rfl, by simp, rfl⟩
  · exact ⟨[], t, rfl, by simp, rfl⟩

lemma leading?_of_cut {blanks sign digits rest : Text} (hblanks : ∀ c ∈ blanks, isBlank c = true)
    (hsign : sign = [] ∨ sign = ['+'] ∨ sign = ['-']) (hne : digits ≠ [])
    (hdigits : ∀ c ∈ digits, isDigit c = true)
    (hrest : ∀ c, rest.head? = some c → isDigit c = false) :
    leading? (blanks ++ (sign ++ (digits ++ rest))) =
      some (decide (sign = ['-']), digits.filterMap digitValue?) := by
  obtain ⟨d, more, rfl⟩ := List.exists_cons_of_ne_nil hne
  have hd := hdigits d (by simp)
  have htrim : Text.trimStart (blanks ++ (sign ++ (d :: more ++ rest))) =
      sign ++ (d :: more ++ rest) := by
    have hnotBlank : isBlank d = false := by
      cases hblank : isBlank d with
      | false => rfl
      | true =>
        rw [Text.isDigit_of_isBlank hblank] at hd
        cases hd
    rw [Text.trimStart, List.dropWhile_append_of_pos hblanks]
    obtain rfl | rfl | rfl := hsign
    · simp [hnotBlank]
    · rfl
    · rfl
  have hcut := cutSign_append (r := d :: more ++ rest) hsign (by simpa using hd)
  obtain ⟨v, hv⟩ := Option.isSome_iff_exists.1 hd
  rw [leading?, htrim, hcut]
  dsimp only
  rw [leadingDigits_append hdigits hrest]
  simp [hv]

/-- A text begins with an integer if and only if its sign and digits are found. -/
theorem beginsWith_iff {t : Text} {n : Int} :
    BeginsWith t n ↔
      ∃ negative digits, leading? t = some (negative, digits) ∧
        n = signed negative (ofDigits 10 digits) := by
  constructor
  · rintro ⟨blanks, sign, digits, rest, rfl, hblanks, hsign, hne, hdigits, hrest, rfl⟩
    exact ⟨_, _, leading?_of_cut hblanks hsign hne hdigits hrest, rfl⟩
  · rintro ⟨negative, digits, hleading, rfl⟩
    obtain ⟨sign, r, hr, hsign, hcut⟩ := exists_cutSign (Text.trimStart t)
    rw [leading?, hcut] at hleading
    dsimp only at hleading
    rw [leadingDigits_eq_filterMap] at hleading
    have hne : r.takeWhile isDigit ≠ [] := by
      intro hnil
      simp [hnil] at hleading
    have hfound : (decide (sign = ['-']), (r.takeWhile isDigit).filterMap digitValue?) =
        (negative, digits) := by
      split at hleading
      · cases hleading
      · exact Option.some.inj hleading
    obtain ⟨rfl, rfl⟩ := Prod.mk.inj hfound
    refine ⟨t.takeWhile isBlank, sign, r.takeWhile isDigit, r.dropWhile isDigit, ?_, ?_, hsign, hne,
      ?_, ?_, rfl⟩
    · rw [List.takeWhile_append_dropWhile, ← hr, Text.trimStart, List.takeWhile_append_dropWhile]
    · exact fun c hc => List.mem_takeWhile_imp hc
    · exact fun c hc => List.mem_takeWhile_imp hc
    · intro c hc
      have := List.head?_dropWhile_not isDigit r
      rw [hc] at this
      simpa using this

/-- A text begins with one integer only. -/
lemma BeginsWith.unique {t : Text} {n m : Int} (h : BeginsWith t n) (h' : BeginsWith t m) : n = m := by
  obtain ⟨negative, digits, hn, rfl⟩ := beginsWith_iff.1 h
  obtain ⟨negative', digits', hm, rfl⟩ := beginsWith_iff.1 h'
  rw [hn] at hm
  cases hm
  rfl

/-- A leading integer is read where there is one, and the default is taken where there is none. -/
theorem of_parseLeading {t : Text} {default n : Int} (h : parseLeading t default = .ok n) :
    BeginsWith t n ∨ (∀ m, ¬ BeginsWith t m) ∧ n = default := by
  simp only [beginsWith_iff]
  unfold parseLeading at h
  split at h
  · next hnone =>
    cases h
    simp [hnone]
  · next negative digits hsome =>
    refine .inl ⟨negative, digits, hsome, ?_⟩
    unfold decimal at h
    split at h
    · cases h
    · cases h
      rfl

/-- A leading integer is read unless it has too many digits. -/
theorem exists_parseLeading_iff {t : Text} {default : Int} :
    (∃ n, parseLeading t default = .ok n) ↔
      ∀ negative digits, leading? t = some (negative, digits) → digits.length ≤ maxDigits := by
  unfold parseLeading
  cases h : leading? t with
  | none => simp
  | some found =>
    obtain ⟨negative, digits⟩ := found
    simp only [decimal]
    split
    · next hlong =>
      refine iff_of_false not_ok_of_fault fun hall => ?_
      exact absurd (hall negative digits rfl) (Nat.not_le_of_lt hlong)
    · next hshort =>
      refine ⟨fun _ negative' digits' hfound => ?_, fun _ => ⟨_, rfl⟩⟩
      cases hfound
      exact Nat.not_lt.1 hshort

/-! Blanks at the ends of a text. -/

lemma leadingDigits_append_of_blank {t u : Text} (hu : ∀ c ∈ u, isBlank c = true) :
    leadingDigits (t ++ u) = leadingDigits t := by
  induction t with
  | nil =>
    cases u with
    | nil => rfl
    | cons c u =>
      have hc := Text.isDigit_of_isBlank (hu c (List.mem_cons_self ..))
      have hnone : digitValue? c = none := by simpa [isDigit] using hc
      simp [leadingDigits, hnone]
  | cons c t ih => simp only [List.cons_append, leadingDigits, ih]

lemma cutSign_append_of_blank {t u : Text} (hu : ∀ c ∈ u, isBlank c = true) :
    cutSign (t ++ u) = ((cutSign t).1, (cutSign t).2 ++ u) := by
  have hother {c : Char} {r : Text} (hminus : c ≠ '-') (hplus : c ≠ '+') :
      cutSign (c :: r) = (false, c :: r) := by
    simp [cutSign, hminus, hplus]
  cases t with
  | nil =>
    cases u with
    | nil => rfl
    | cons c u =>
      have hc := hu c (List.mem_cons_self ..)
      refine hother ?_ ?_ <;> rintro rfl <;> exact absurd hc (by decide)
  | cons c t =>
    by_cases hminus : c = '-'
    · subst hminus
      rfl
    · by_cases hplus : c = '+'
      · subst hplus
        rfl
      · rw [List.cons_append, hother hminus hplus, hother hminus hplus]
        rfl

lemma leading?_append_of_blank_right {t u : Text} (hu : ∀ c ∈ u, isBlank c = true) :
    leading? (t ++ u) = leading? t := by
  by_cases hblank : Text.trimStart t = []
  · have hnone : Text.trimStart u = [] := List.dropWhile_eq_nil_iff.2 hu
    rw [leading?, leading?, Text.trimStart_append, if_pos hblank, hblank, hnone]
  · rw [leading?, leading?, Text.trimStart_append, if_neg hblank, cutSign_append_of_blank hu]
    dsimp only
    rw [leadingDigits_append_of_blank hu]

lemma leading?_append_of_blank_left {t u : Text} (ht : ∀ c ∈ t, isBlank c = true) :
    leading? (t ++ u) = leading? u := by
  rw [leading?, leading?, Text.trimStart_append_of_blank ht]

/-- Blanks at its ends do not matter to the integer that a text begins with. -/
lemma leading?_trim (t : Text) : leading? (Text.trim t) = leading? t :=
  Text.apply_trim (fun _ _ => leading?_append_of_blank_left)
    (fun _ _ => leading?_append_of_blank_right) t

lemma parseLeading_trim (t : Text) (default : Int) :
    parseLeading (Text.trim t) default = parseLeading t default := by
  rw [parseLeading, parseLeading, leading?_trim]

/-! Printed integers. -/

lemma isDigit_of_mem_ofNat {n : Nat} {c : Char} (h : c ∈ Text.ofNat n) : c.isDigit = true :=
  Nat.isDigit_of_mem_toDigits (by decide) (by decide) h

lemma ofNat_ne_nil (n : Nat) : Text.ofNat n ≠ [] := Nat.toDigits_ne_nil

/-- The digits of a printed number are its digits. -/
lemma ofDigits_ofNat (n : Nat) : ofDigits 10 ((Text.ofNat n).filterMap digitValue?) = n := by
  have hvalues : (Text.ofNat n).filterMap digitValue? =
      (Text.ofNat n).map fun c => c.toNat - 48 := by
    rw [← List.filterMap_eq_map]
    exact List.filterMap_congr fun c hc => Text.digitValue?_of_isDigit (isDigit_of_mem_ofNat hc)
  rw [hvalues, ofDigits, List.foldl_map]
  exact Nat.ofDigitChars_ten_toDigits

lemma ofInt_eq (n : Int) :
    Text.ofInt n = (if n < 0 then ['-'] else []) ++ Text.ofNat n.natAbs := by
  cases n with
  | ofNat n => rfl
  | negSucc n =>
    rw [if_pos (Int.negSucc_lt_zero n)]
    rfl

/-- A text begins with the integer that is printed at its start, blanks aside, unless what follows
goes on with a digit. -/
lemma leading?_ofInt {blanks rest : Text} (n : Int) (hblanks : ∀ c ∈ blanks, isBlank c = true)
    (hrest : ∀ c, rest.head? = some c → isDigit c = false) :
    leading? (blanks ++ (Text.ofInt n ++ rest)) =
      some (decide (n < 0), (Text.ofNat n.natAbs).filterMap digitValue?) := by
  have hdigits : ∀ c ∈ Text.ofNat n.natAbs, isDigit c = true := fun c hc => by
    rw [isDigit, Text.digitValue?_of_isDigit (isDigit_of_mem_ofNat hc)]
    rfl
  have hsign : (if n < 0 then ['-'] else []) = ([] : Text) ∨ (if n < 0 then ['-'] else []) = ['+'] ∨
      (if n < 0 then ['-'] else []) = ['-'] := by
    split <;> simp
  have hminus : decide ((if n < 0 then ['-'] else []) = ['-']) = decide (n < 0) := by
    split <;> simp_all
  rw [ofInt_eq, List.append_assoc,
    leading?_of_cut hblanks hsign (ofNat_ne_nil _) hdigits hrest, hminus]

/-- An integer is read back where it was printed. -/
theorem parseLeading_ofInt {blanks rest : Text} {n : Int} (default : Int)
    (hblanks : ∀ c ∈ blanks, isBlank c = true)
    (hshort : (Text.ofNat n.natAbs).length ≤ maxDigits)
    (hrest : ∀ c, rest.head? = some c → isDigit c = false) :
    parseLeading (blanks ++ (Text.ofInt n ++ rest)) default = .ok n := by
  have hlength : ((Text.ofNat n.natAbs).filterMap digitValue?).length ≤ maxDigits :=
    (List.length_filterMap_le ..).trans hshort
  rw [parseLeading, leading?_ofInt n hblanks hrest]
  simp only [decimal, if_neg (Nat.not_lt.2 hlength), ofDigits_ofNat, Except.map, signed,
    decide_eq_true_eq]
  congr 1
  split <;> omega

end Numeral

end UmlDrawing
