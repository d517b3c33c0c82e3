import Mathlib.Data.List.DropRight
import Mathlib.Data.List.Infix
import UmlDrawing.Proofs.Element.Order
import UmlDrawing.Proofs.Text.Split

/-! What a line of an attribute block is. The search for a key, which tries one place after another
and gives characters back, finds the first `=` that ends a key; a line without one is text. -/
namespace UmlDrawing

namespace AttributeBlock

/-- Whether a key can be made of these characters. -/
def IsKeyText (t : Text) : Prop := ∀ c ∈ t, Text.isBlank c = false ∧ c ≠ '='

/-- The longest text at the end of another one that a key can be made of. -/
structure IsLongestKey (before key : Text) : Prop where
  suffix : key <:+ before
  chars : IsKeyText key
  longest : ∀ other, other <:+ before → IsKeyText other → other.length ≤ key.length

/-- Whether there is `=` at a place of a line, and it starts the line or follows a character that a
key can be made of. -/
def EndsKey (t : Text) (i : Nat) : Prop :=
  t[i]? = some '=' ∧ (i = 0 ∨ ∃ c ∈ t[i - 1]?, Text.isBlank c = false ∧ c ≠ '=')

instance (t : Text) (i : Nat) : Decidable (EndsKey t i) :=
  -- by looking at the one character, not at all there are
  letI : Decidable (∃ c ∈ t[i - 1]?, Text.isBlank c = false ∧ c ≠ '=') :=
    Option.decidableExistsMem _
  inferInstanceAs (Decidable (_ ∧ _))

/-- Whether no place of a line ends a key. -/
def IsLiteral (line : Text) : Prop := ∀ i < line.length, ¬ EndsKey line i

instance (line : Text) : Decidable (IsLiteral line) := inferInstanceAs (Decidable (∀ i < _, _))

/-- Whether a line is a property: the first place that ends a key has the key before it and the
value after it. -/
def IsProperty (line key value : Text) : Prop :=
  ∃ i, EndsKey line i ∧ (∀ j < i, ¬ EndsKey line j) ∧ IsLongestKey (line.take i) key ∧
    value = line.drop (i + 1)

variable {line before key key' value value' t r : Text} {c : Char} {prev : Option Char} {i : Nat}

lemma isKeyChar_iff : isKeyChar c = true ↔ Text.isBlank c = false ∧ c ≠ '=' := by
  simp [isKeyChar]

lemma IsLongestKey.eq (h : IsLongestKey before key) (h' : IsLongestKey before key') :
    key = key' := by
  have hlength : key.length = key'.length :=
    Nat.le_antisymm (h'.longest key h.suffix h.chars) (h.longest key' h'.suffix h'.chars)
  have hsuffix : key <:+ key' :=
    List.suffix_of_suffix_length_le h.suffix h'.suffix (Nat.le_of_eq hlength)
  exact hsuffix.eq_of_length hlength

/-- A line is a property with one key and one value only. -/
lemma IsProperty.unique (h : IsProperty line key value) (h' : IsProperty line key' value') :
    key = key' ∧ value = value' := by
  obtain ⟨i, hends, hfirst, hkey, rfl⟩ := h
  obtain ⟨i', hends', hfirst', hkey', rfl⟩ := h'
  obtain hlt | rfl | hlt := Nat.lt_trichotomy i i'
  · exact absurd hends (hfirst' i hlt)
  · exact ⟨hkey.eq hkey', rfl⟩
  · exact absurd hends' (hfirst i' hlt)

lemma EndsKey.lt_length (h : EndsKey line i) : i < line.length :=
  (List.getElem?_eq_some_iff.1 h.1).1

lemma IsProperty.not_isLiteral (h : IsProperty line key value) : ¬ IsLiteral line := by
  obtain ⟨i, hends, -⟩ := h
  exact fun hliteral => hliteral i hends.lt_length hends

/-! What the search finds at one place. -/

lemma keyed?_of_append (hne : key ≠ []) (hkey : IsKeyText key) :
    keyed? (key ++ '=' :: value) = some (key, value) := by
  induction key with
  | nil => exact absurd rfl hne
  | cons c key ih =>
    obtain ⟨hc, hrest⟩ := List.forall_mem_cons.1 hkey
    rw [List.cons_append, keyed?, if_pos (isKeyChar_iff.2 hc)]
    cases key with
    | nil =>
      have hsign : keyed? ('=' :: value) = none := if_neg (by decide)
      rw [List.nil_append, hsign]
      rfl
    | cons d key =>
      rw [ih (List.cons_ne_nil d key) hrest]
      rfl

/-- The key that is found takes all characters before `=`, whatever is tried first. -/
lemma keyed?_eq_some_iff :
    keyed? t = some (key, value) ↔ key ≠ [] ∧ IsKeyText key ∧ t = key ++ '=' :: value := by
  constructor
  · intro h
    induction t generalizing key with
    | nil => cases h
    | cons c r ih =>
      rw [keyed?] at h
      split at h
      · next hc =>
        obtain hlonger | ⟨-, hhere⟩ := Option.or_eq_some_iff.1 h
        · obtain ⟨⟨key', value'⟩, hr, hpair⟩ := Option.map_eq_some_iff.1 hlonger
          cases hpair
          obtain ⟨-, hkey', rfl⟩ := ih hr
          exact ⟨List.cons_ne_nil c key', List.forall_mem_cons.2 ⟨isKeyChar_iff.1 hc, hkey'⟩, rfl⟩
        · obtain ⟨value', hr, hpair⟩ := Option.map_eq_some_iff.1 hhere
          cases hpair
          obtain rfl := Text.dropStart?_eq_some_iff.1 hr
          refine ⟨List.cons_ne_nil c [], fun d hd => ?_, rfl⟩
          obtain rfl := List.mem_singleton.1 hd
          exact isKeyChar_iff.1 hc
      · cases h
  · rintro ⟨hne, hkey, rfl⟩
    exact keyed?_of_append hne hkey

/-! The search along a line. What is left of a line is looked at together with the character before
it, if there is one. -/

/-- Whether a place of the rest of a line ends a key. -/
def EndsKeyAfter (prev : Option Char) (t : Text) : Nat → Prop
  | 0 => t[0]? = some '=' ∧ ∀ d ∈ prev, Text.isBlank d = false ∧ d ≠ '='
  | i + 1 => t[i + 1]? = some '=' ∧ ∃ c ∈ t[i]?, Text.isBlank c = false ∧ c ≠ '='

/-- Whether the first place of the rest of a line that ends a key has the key before it and the
value after it. -/
def FirstKey (prev : Option Char) (t key value : Text) : Prop :=
  ∃ i, EndsKeyAfter prev t i ∧ (∀ j < i, ¬ EndsKeyAfter prev t j) ∧ IsLongestKey (t.take i) key ∧
    value = t.drop (i + 1)

lemma endsKey_iff : EndsKey line i ↔ EndsKeyAfter none line i := by
  cases i <;> simp [EndsKey, EndsKeyAfter]

lemma endsKeyAfter_cons_zero :
    EndsKeyAfter prev (c :: r) 0 ↔ c = '=' ∧ ∀ d ∈ prev, Text.isBlank d = false ∧ d ≠ '=' := by
  simp [EndsKeyAfter]

lemma endsKeyAfter_cons_succ :
    EndsKeyAfter prev (c :: r) (i + 1) ↔ EndsKeyAfter (some c) r i := by
  cases i <;> simp [EndsKeyAfter]

lemma firstKey_of_keyed (hne : key ≠ []) (hkey : IsKeyText key) :
    FirstKey prev (key ++ '=' :: value) key value := by
  obtain ⟨c, rest, rfl⟩ := List.exists_cons_of_ne_nil hne
  have hbefore {j : Nat} (hj : j < (c :: rest).length) :
      ∃ d ∈ ((c :: rest) ++ '=' :: value)[j]?, Text.isBlank d = false ∧ d ≠ '=' := by
    rw [List.getElem?_append_left hj, List.getElem?_eq_getElem hj]
    exact ⟨_, rfl, hkey _ (List.getElem_mem hj)⟩
  refine ⟨(c :: rest).length, ⟨?_, hbefore (Nat.lt_succ_self _)⟩, fun j hj hends => ?_, ?_, ?_⟩
  · simp
  · obtain ⟨d, hd, -, hsign⟩ := hbefore hj
    have hat : ((c :: rest) ++ '=' :: value)[j]? = some '=' := by
      cases j <;> exact hends.1
    exact hsign (Option.some.inj (hd.symm.trans hat))
  · rw [List.take_left]
    exact ⟨List.suffix_refl _, hkey, fun other hother _ => hother.length_le⟩
  · simp

lemma firstKey_of_unkeyed : FirstKey none ('=' :: value) [] value := by
  refine ⟨0, endsKeyAfter_cons_zero.2 ⟨rfl, by simp⟩, fun j hj => absurd hj (Nat.not_lt_zero j), ?_,
    rfl⟩
  exact ⟨List.nil_suffix, by simp [IsKeyText], fun other hother _ => hother.length_le⟩

/-- Where no key begins, the search goes on with the next place. -/
lemma FirstKey.cons (h : FirstKey (some c) r key value) (hkeyed : keyed? (c :: r) = none)
    (hends : ¬ EndsKeyAfter prev (c :: r) 0) : FirstKey prev (c :: r) key value := by
  obtain ⟨i, hi, hfirst, hkey, rfl⟩ := h
  refine ⟨i + 1, endsKeyAfter_cons_succ.2 hi, fun j hj => ?_, ?_, rfl⟩
  · cases j with
    | zero => exact hends
    | succ j => exact fun h => hfirst j (Nat.lt_of_succ_lt_succ hj) (endsKeyAfter_cons_succ.1 h)
  · refine ⟨hkey.suffix.trans (List.suffix_cons c _), hkey.chars, fun other hother hchars => ?_⟩
    rw [List.take_succ_cons, List.suffix_cons_iff] at hother
    obtain rfl | hother := hother
    · -- a key that reaches back to this place would have been found here
      have hat : r[i]? = some '=' := by
        cases i <;> exact hi.1
      have hsplit : r = r.take i ++ '=' :: r.drop (i + 1) := by
        obtain ⟨hlt, hget⟩ := List.getElem?_eq_some_iff.1 hat
        rw [← hget, List.getElem_cons_drop, List.take_append_drop]
      have hfound : keyed? (c :: r) = some (c :: r.take i, r.drop (i + 1)) :=
        keyed?_eq_some_iff.2 ⟨List.cons_ne_nil _ _, hchars, by rw [List.cons_append, ← hsplit]⟩
      rw [hkeyed] at hfound
      cases hfound
    · exact hkey.longest other hother hchars

/-- The search stops at the first place that ends a key, or there is none. -/
theorem searchFrom?_spec (hprev : ∀ d ∈ prev, Text.isBlank d = false ∧ d ≠ '=' → t.head? ≠ some '=') :
    (∃ key value, searchFrom? prev.isNone t = some (key, value) ∧ FirstKey prev t key value) ∨
      searchFrom? prev.isNone t = none ∧ ∀ i, ¬ EndsKeyAfter prev t i := by
  induction t generalizing prev with
  | nil =>
    refine .inr ⟨rfl, fun i hends => ?_⟩
    cases i <;> simp [EndsKeyAfter] at hends
  | cons c r ih =>
    rw [searchFrom?]
    cases hkeyed : keyed? (c :: r) with
    | some found =>
      obtain ⟨hne, hkey, hsplit⟩ := keyed?_eq_some_iff.1 hkeyed
      exact .inl ⟨found.1, found.2, rfl, hsplit ▸ firstKey_of_keyed hne hkey⟩
    | none =>
      rw [Option.none_or]
      by_cases hempty : prev = none ∧ c = '='
      · obtain ⟨rfl, rfl⟩ := hempty
        exact .inl ⟨[], r, rfl, firstKey_of_unkeyed⟩
      · have hhere : (if prev.isNone then unkeyed? (c :: r) else none) = none := by
          split
          · next hnone =>
            rw [unkeyed?, Option.map_eq_none_iff, Option.eq_none_iff_forall_ne_some]
            intro value hvalue
            exact hempty ⟨Option.isNone_iff_eq_none.1 hnone,
              (List.cons.inj (Text.dropStart?_eq_some_iff.1 hvalue)).1⟩
          · rfl
        have hends : ¬ EndsKeyAfter prev (c :: r) 0 := by
          rw [endsKeyAfter_cons_zero]
          rintro ⟨rfl, hchars⟩
          cases prev with
          | none => exact hempty ⟨rfl, rfl⟩
          | some d => exact hprev d rfl (hchars d rfl) rfl
        have hnext : ∀ d ∈ some c, Text.isBlank d = false ∧ d ≠ '=' → r.head? ≠ some '=' := by
          intro d hmem hd hhead
          obtain rfl := Option.some.inj hmem
          obtain ⟨value, rfl⟩ := List.head?_eq_some_iff.1 hhead
          have hfound : keyed? (c :: '=' :: value) = some ([c], value) :=
            keyed?_of_append (List.cons_ne_nil c []) (by simpa [IsKeyText] using hd)
          rw [hkeyed] at hfound
          cases hfound
        rw [hhere, Option.none_or]
        obtain ⟨key, value, hfound, hfirst⟩ | ⟨hnone, hall⟩ := ih hnext
        · exact .inl ⟨key, value, hfound, hfirst.cons hkeyed hends⟩
        · refine .inr ⟨hnone, fun i => ?_⟩
          cases i with
          | zero => exact hends
          | succ i => exact fun h => hall i (endsKeyAfter_cons_succ.1 h)

/-- A line is a property or a literal line. -/
lemma property?_cases (line : Text) :
    (∃ key value, property? line = some (key, value) ∧ IsProperty line key value) ∨
      property? line = none ∧ IsLiteral line := by
  have hstart : ∀ d ∈ (none : Option Char),
      Text.isBlank d = false ∧ d ≠ '=' → line.head? ≠ some '=' := by simp
  obtain ⟨key, value, hfound, hfirst⟩ | ⟨hnone, hall⟩ := searchFrom?_spec hstart
  · obtain ⟨i, hends, hbefore, hkey, hvalue⟩ := hfirst
    refine .inl ⟨key, value, ?_, i, endsKey_iff.2 hends, ?_, hkey, hvalue⟩
    · have htrim : Text.trim key = key := Text.trim_of_forall fun c hc => (hkey.chars c hc).1
      rw [property?, ← Option.isNone_none, hfound]
      simp only [Option.map_some, htrim]
    · exact fun j hj h => hbefore j hj (endsKey_iff.1 h)
  · refine .inr ⟨?_, fun i _ h => hall i (endsKey_iff.1 h)⟩
    rw [property?, ← Option.isNone_none, hnone, Option.map_none]

theorem property?_eq_some_iff : property? line = some (key, value) ↔ IsProperty line key value := by
  obtain ⟨key', value', hfound, hline⟩ | ⟨hnone, hline⟩ := property?_cases line
  · rw [hfound]
    constructor
    · intro h
      cases h
      exact hline
    · intro h
      obtain ⟨rfl, rfl⟩ := hline.unique h
      rfl
  · rw [hnone]
    exact iff_of_false (by simp) fun h => h.not_isLiteral hline

theorem property?_eq_none_iff : property? line = none ↔ IsLiteral line := by
  obtain ⟨key, value, hfound, hline⟩ | ⟨hnone, hline⟩ := property?_cases line
  · rw [hfound]
    exact iff_of_false (by simp) hline.not_isLiteral
  · exact iff_of_true hnone hline

example : IsLiteral "n: int = 0".toList := by decide

/-! The properties of a block as a dictionary. -/

lemma nodup_insert {props : Properties} (h : (props.map Prod.fst).Nodup) (key value : Text) :
    ((Properties.insert key value props).map Prod.fst).Nodup := by
  have hmem {k : Text} (hk : k ≠ key) (rest : Properties) :
      k ∈ (Properties.insert key value rest).map Prod.fst → k ∈ rest.map Prod.fst := by
    induction rest with
    | nil => simp [Properties.insert, hk]
    | cons p rest ih =>
      rw [Properties.insert]
      split
      · simp only [List.map_cons, List.mem_cons, hk, false_or]
        exact Or.inr
      · simp only [List.map_cons, List.mem_cons]
        exact Or.imp_right ih
  induction props with
  | nil => simp [Properties.insert]
  | cons p rest ih =>
    rw [List.map_cons, List.nodup_cons] at h
    rw [Properties.insert]
    split
    · next hp =>
      rw [List.map_cons, List.nodup_cons, ← hp]
      exact h
    · next hp =>
      rw [List.map_cons, List.nodup_cons]
      exact ⟨fun hk => h.1 (hmem hp rest hk), ih h.2⟩

lemma nodup_properties (find? : Text → Option (Text × Text)) (source : Text) :
    ((properties find? source).map Prod.fst).Nodup := by
  rw [properties]
  generalize (Text.splitOn '\n' source).filterMap find? = pairs
  suffices h : ∀ props : Properties, (props.map Prod.fst).Nodup →
      ((pairs.foldl (fun props p => Properties.insert p.1 p.2 props) props).map Prod.fst).Nodup from
    h [] List.nodup_nil
  induction pairs with
  | nil => exact fun props h => h
  | cons p pairs ih => exact fun props h => ih _ (nodup_insert h p.1 p.2)

/-- The last line of a key decides its value. -/
lemma get?_properties_eq_some_iff (find? : Text → Option (Text × Text)) (source key value : Text) :
    (properties find? source).get? key = some value ↔
      ∃ before line after, Text.splitOn '\n' source = before ++ line :: after ∧
        find? line = some (key, value) ∧
        ∀ later ∈ after, ∀ other, find? later ≠ some (key, other) := by
  have hvalue (line : Text) (other : Text) :
      ((find? line).bind fun p => if p.1 = key then some p.2 else none) = some other ↔
        find? line = some (key, other) := by
    cases find? line with
    | none => simp
    | some p => simp [Prod.ext_iff]
  have hnone (line : Text) :
      ((find? line).bind fun p => if p.1 = key then some p.2 else none) = none ↔
        ∀ other, find? line ≠ some (key, other) := by
    simp only [Option.eq_none_iff_forall_ne_some, ne_eq, hvalue]
  rw [get?_properties, valuesOf, List.filterMap_filterMap, List.getLast?_filterMap,
    List.findSome?_eq_some_iff]
  simp only [hvalue, hnone]
  -- the last line is the first one from behind
  constructor
  · rintro ⟨after, line, before, hlines, hline, hafter⟩
    refine ⟨before.reverse, line, after.reverse, ?_, hline, fun later hlater => ?_⟩
    · have hback := congrArg List.reverse hlines
      simpa using hback
    · exact hafter later (List.mem_reverse.1 hlater)
  · rintro ⟨before, line, after, hlines, hline, hafter⟩
    refine ⟨after.reverse, line, before.reverse, by simp [hlines], hline, fun later hlater => ?_⟩
    exact hafter later (List.mem_reverse.1 hlater)

end AttributeBlock

open AttributeBlock in
/-- A block taken apart. Its text lines are the literal lines, in order. Its properties have one
entry for every key that occurs, with the value of the last line of that key. -/
theorem Attributes.parse_lines_and_properties (source : Text) :
    (parse source).lines =
        (Text.splitOn '\n' source).filter (fun line => decide (IsLiteral line)) ∧
      ((parse source).properties.map Prod.fst).Nodup ∧
      ∀ key value, (parse source).properties.get? key = some value ↔
        ∃ before line after, Text.splitOn '\n' source = before ++ line :: after ∧
          IsProperty line key value ∧ ∀ later ∈ after, ∀ other, ¬ IsProperty later key other := by
  refine ⟨?_, nodup_properties property? source, fun key value => ?_⟩
  · refine List.filter_congr fun line _ => ?_
    rw [Bool.eq_iff_iff, Option.isNone_iff_eq_none, property?_eq_none_iff, decide_eq_true_iff]
  · have hvalue := get?_properties_eq_some_iff property? source key value
    simp only [ne_eq, property?_eq_some_iff] at hvalue
    exact hvalue

end UmlDrawing
