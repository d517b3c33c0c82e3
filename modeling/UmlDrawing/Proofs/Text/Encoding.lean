import Mathlib.Tactic.Lemma
import UmlDrawing.Text.CodePage

/-! Texts in units of eight bits. What was written is read again, and the basic characters are the
bytes with their numbers, whereas all other characters have several bytes, which are no basic
characters. -/
namespace UmlDrawing.Text

/-- Whether the character is one of the basic ones, which all encodings share. -/
def isBasic (c : Char) : Bool := decide (c.toNat < 0x80)

lemma toNat_ofNat_of_lt {n : Nat} (h : n < 256) : (Char.ofNat n).toNat = n := by
  have hvalid : n.isValidChar := Or.inl (by omega)
  rw [Char.ofNat, dif_pos hvalid]
  rfl

lemma char?_toNat (c : Char) : char? c.toNat = some c := by
  have hvalid : c.toNat.isValidChar := c.valid
  rw [char?, dif_pos hvalid]
  rfl

lemma toNat_lt (c : Char) : c.toNat < 0x110000 := by
  have h : c.toNat < 0xD800 ∨ 0xDFFF < c.toNat ∧ c.toNat < 0x110000 := c.valid
  omega

lemma toNat_toUInt8 {n : Nat} (h : n < 256) : n.toUInt8.toNat = n := Nat.mod_eq_of_lt h

lemma fromTail?_eq {c : Char} {least start : Nat} {tail : Bytes}
    (htail : ∀ b ∈ tail, b.toNat / 64 = 2)
    (hnumber : tail.foldl (fun n b => n * 64 + b.toNat % 64) start = c.toNat)
    (hleast : least ≤ c.toNat) : fromTail? least start tail = some c := by
  have hall : tail.all (fun b => decide (b.toNat / 64 = 2)) = true := by simpa using htail
  simp only [fromTail?, hall, if_true, hnumber, if_pos hleast, char?_toNat]

lemma cutUtf8?_cons (a : UInt8) (r : Bytes) : cutUtf8? (a :: r) =
    if a.toNat < 0x80 then some (Char.ofNat a.toNat, r)
    else if a.toNat < 0xC0 then none
    else if a.toNat < 0xE0 then (fromTail? 0x80 (a.toNat % 32) (r.take 1)).map (·, r.drop 1)
    else if a.toNat < 0xF0 then (fromTail? 0x800 (a.toNat % 16) (r.take 2)).map (·, r.drop 2)
    else if a.toNat < 0xF8 then (fromTail? 0x10000 (a.toNat % 8) (r.take 3)).map (·, r.drop 3)
    else none := rfl

/-- The bytes of a character are read as that character. -/
lemma cutUtf8?_utf8Char (c : Char) (bytes : Bytes) :
    cutUtf8? (utf8Char c ++ bytes) = some (c, bytes) := by
  have hc := toNat_lt c
  unfold utf8Char
  dsimp only
  split
  · next h1 =>
    rw [List.singleton_append, cutUtf8?_cons, toNat_toUInt8 (by omega), if_pos h1, Char.ofNat_toNat]
  · next h1 =>
    split
    · next h2 =>
      rw [List.cons_append, cutUtf8?_cons, toNat_toUInt8 (by omega), if_neg (by omega),
        if_neg (by omega), if_pos (by omega)]
      rw [fromTail?_eq (c := c) ?_ ?_ (by omega)]
      · rfl
      · simp
        omega
      · simp
        omega
    · next h2 =>
      split
      · next h3 =>
        rw [List.cons_append, cutUtf8?_cons, toNat_toUInt8 (by omega), if_neg (by omega),
          if_neg (by omega), if_neg (by omega), if_pos (by omega)]
        rw [fromTail?_eq (c := c) ?_ ?_ (by omega)]
        · rfl
        · simp
          omega
        · simp
          omega
      · next h3 =>
        rw [List.cons_append, cutUtf8?_cons, toNat_toUInt8 (by omega), if_neg (by omega),
          if_neg (by omega), if_neg (by omega), if_neg (by omega), if_pos (by omega)]
        rw [fromTail?_eq (c := c) ?_ ?_ (by omega)]
        · rfl
        · simp
          omega
        · simp
          omega

lemma utf8Char_of_isBasic {c : Char} (h : isBasic c = true) : utf8Char c = [c.toNat.toUInt8] :=
  if_pos (of_decide_eq_true h)

/-- A character that is not basic has several bytes, none of them with the number of one that is. -/
lemma utf8Char_of_not_isBasic {c : Char} (h : isBasic c = false) :
    (∃ a b r, utf8Char c = a :: b :: r) ∧ ∀ b ∈ utf8Char c, 0x80 ≤ b.toNat := by
  have hc := toNat_lt c
  have hlow : ¬ c.toNat < 0x80 := of_decide_eq_false h
  have hbyte {n : Nat} (hn : 0x80 ≤ n) (hn' : n < 256) : 0x80 ≤ n.toUInt8.toNat := by
    rwa [toNat_toUInt8 hn']
  unfold utf8Char
  dsimp only
  rw [if_neg hlow]
  split
  · refine ⟨⟨_, _, _, rfl⟩, ?_⟩
    simp only [List.forall_mem_cons]
    exact ⟨hbyte (by omega) (by omega), hbyte (by omega) (by omega), by simp⟩
  · split
    · refine ⟨⟨_, _, _, rfl⟩, ?_⟩
      simp only [List.forall_mem_cons]
      exact ⟨hbyte (by omega) (by omega), hbyte (by omega) (by omega),
        hbyte (by omega) (by omega), by simp⟩
    · refine ⟨⟨_, _, _, rfl⟩, ?_⟩
      simp only [List.forall_mem_cons]
      exact ⟨hbyte (by omega) (by omega), hbyte (by omega) (by omega), hbyte (by omega) (by omega),
        hbyte (by omega) (by omega), by simp⟩

lemma exists_utf8Char (c : Char) : ∃ b r, utf8Char c = b :: r := by
  cases h : isBasic c with
  | true => exact ⟨_, _, utf8Char_of_isBasic h⟩
  | false =>
    obtain ⟨⟨a, b, r, hbytes⟩, -⟩ := utf8Char_of_not_isBasic h
    exact ⟨a, b :: r, hbytes⟩

@[simp] lemma toUtf8_cons (c : Char) (t : Text) : toUtf8 (c :: t) = utf8Char c ++ toUtf8 t :=
  List.flatMap_cons

lemma ofUtf8From?_toUtf8 {t : Text} {fuel : Nat} {done : Text} (hfuel : (toUtf8 t).length ≤ fuel) :
    ofUtf8From? fuel done (toUtf8 t) = some (done.reverse ++ t) := by
  -- every character has a byte at least, so the fuel lasts as long as the bytes
  induction t generalizing fuel done with
  | nil => cases fuel <;> simp [toUtf8, ofUtf8From?]
  | cons c t ih =>
    obtain ⟨b, r, hbytes⟩ := exists_utf8Char c
    have hcut : cutUtf8? (b :: (r ++ toUtf8 t)) = some (c, toUtf8 t) := by
      rw [← List.cons_append, ← hbytes]
      exact cutUtf8?_utf8Char c _
    rw [toUtf8_cons, hbytes, List.cons_append, List.length_cons, List.length_append] at hfuel
    obtain ⟨fuel, rfl⟩ : ∃ n, fuel = n + 1 := ⟨fuel - 1, by omega⟩
    rw [toUtf8_cons, hbytes, List.cons_append, ofUtf8From?, hcut]
    change ofUtf8From? fuel (c :: done) (toUtf8 t) = _
    rw [ih (by omega), List.reverse_cons, List.append_assoc, List.singleton_append]

lemma length_le_utf8Size (t : Text) : t.length ≤ utf8Size t := by
  have hfrom (n : Nat) : n + t.length ≤ t.foldl (fun n c => n + c.utf8Size) n := by
    induction t generalizing n with
    | nil => exact Nat.le_refl n
    | cons c t ih =>
      have hpos := c.utf8Size_pos
      have hrest := ih (n + c.utf8Size)
      rw [List.length_cons, List.foldl_cons]
      omega
  have hsize := hfrom 0
  rwa [Nat.zero_add] at hsize

/-- A text is read from its own bytes. -/
theorem ofUtf8?_toUtf8 (t : Text) : ofUtf8? (toUtf8 t) = some t :=
  ofUtf8From?_toUtf8 (Nat.le_refl _)

/-! The same bytes in encodings of one byte for every character. -/

/-- A text has as many bytes as characters only if all of its characters are basic. -/
lemma length_le_length_toUtf8 (t : Text) :
    t.length ≤ (toUtf8 t).length ∧ ((toUtf8 t).length = t.length → t.all isBasic = true) := by
  induction t with
  | nil => exact ⟨Nat.zero_le _, fun _ => rfl⟩
  | cons c t ih =>
    rw [toUtf8_cons, List.length_append, List.length_cons, List.all_cons]
    cases h : isBasic c with
    | true =>
      rw [utf8Char_of_isBasic h, List.length_singleton]
      exact ⟨by omega, fun heq => by simpa using ih.2 (by omega)⟩
    | false =>
      obtain ⟨⟨a, b, r, hbytes⟩, -⟩ := utf8Char_of_not_isBasic h
      rw [hbytes, List.length_cons, List.length_cons]
      exact ⟨by omega, fun heq => by omega⟩

namespace CodePage

variable {p : CodePage}

lemma length_of_decode? {bytes : Bytes} {t : Text} (h : p.decode? bytes = some t) :
    t.length = bytes.length := by
  induction bytes generalizing t with
  | nil =>
    cases h
    rfl
  | cons b bytes ih =>
    rw [decode?, List.mapM_cons] at h
    obtain ⟨c, -, h⟩ := Option.bind_eq_some_iff.1 h
    obtain ⟨u, hu, h⟩ := Option.bind_eq_some_iff.1 h
    cases h
    rw [List.length_cons, List.length_cons, ih hu]

lemma first_ge : ∀ p ∈ all, 0x80 ≤ p.first := by decide

lemma mem_all_of_ofName? {n : Text} (h : ofName? n = some p) : p ∈ all := List.mem_of_find?_eq_some h

lemma char?_toUInt8 (hp : p ∈ all) {c : Char} (h : isBasic c = true) :
    p.char? c.toNat.toUInt8 = some c := by
  have hc : c.toNat < 0x80 := of_decide_eq_true h
  have hfirst := first_ge p hp
  rw [char?, toNat_toUInt8 (by omega), if_pos (by omega), Char.ofNat_toNat]

/-- An encoding of one byte for every character gives a text back from its bytes in units of eight bits
if and only if all of its characters are basic. -/
theorem decode?_toUtf8_iff (hp : p ∈ all) (t : Text) :
    p.decode? (toUtf8 t) = some t ↔ t.all isBasic = true := by
  constructor
  · exact fun h => (length_le_length_toUtf8 t).2 (length_of_decode? h).symm
  · intro h
    induction t with
    | nil => rfl
    | cons c t ih =>
      rw [List.all_cons, Bool.and_eq_true] at h
      have hrest : (toUtf8 t).mapM p.char? = some t := ih h.2
      rw [toUtf8_cons, utf8Char_of_isBasic h.1, List.singleton_append, decode?, List.mapM_cons,
        char?_toUInt8 hp h.1, hrest]
      rfl

end CodePage

end UmlDrawing.Text
