import UmlDrawing.Proofs.Xml.Declaration

/-! What becomes of a document that is given as a text: its bytes are those of units of eight bits, and
they are decoded as the document declares. -/
namespace UmlDrawing.Xml

/-- The encoding that a document declares, by its name. -/
def declared? (t : Text) : Option Text := (Declaration.cut? t).bind fun parts => parts.1.encoding

/-- Whether a name is one of the encoding in units of eight bits. -/
def isUtf8Name (n : Text) : Bool := ["UTF-8", "UTF8"].any fun m => n.map Char.toUpper = m.toList

/-- The text that a text is taken for if its bytes are decoded as it declares, or in units of eight bits
where it declares nothing. -/
def taken? (others : Text.Decoders) (t : Text) : Option Text :=
  ((declared? t).elim .utf8 Encoding.ofName).decode? others (Text.toUtf8 t)

/-- Whether a text can be decoded as it declares: it declares nothing else than the units that it has, or
an encoding of one byte for every character while all of its characters are basic, or another encoding
that happens to have the same bytes for it. -/
def IsDeclaredWell (others : Text.Decoders) (t : Text) : Prop :=
  ∀ n, declared? t = some n → isUtf8Name n = true ∨
    match Text.CodePage.ofName? n with
    | some _ => t.all Text.isBasic = true
    | none => others n (Text.toUtf8 t) = some t

variable {others : Text.Decoders}

namespace Encoding

/-- An encoding with a name gives a text back from its bytes in units of eight bits if and only if it has
the same units, or the same bytes for all characters of the text. -/
lemma decode?_ofName_iff (n t : Text) :
    (ofName n).decode? others (Text.toUtf8 t) = some t ↔
      isUtf8Name n = true ∨
        match Text.CodePage.ofName? n with
        | some _ => t.all Text.isBasic = true
        | none => others n (Text.toUtf8 t) = some t := by
  have hname : ofName n = if isUtf8Name n then utf8 else
      match Text.CodePage.ofName? n with
      | some p => page p
      | none => other n := rfl
  rw [hname]
  cases isUtf8Name n with
  | true =>
    rw [if_pos rfl]
    exact iff_of_true (Text.ofUtf8?_toUtf8 t) (.inl rfl)
  | false =>
    rw [if_neg Bool.false_ne_true, or_iff_right Bool.false_ne_true]
    cases hpage : Text.CodePage.ofName? n with
    | none => exact Iff.rfl
    | some p => exact Text.CodePage.decode?_toUtf8_iff (Text.CodePage.mem_all_of_ofName? hpage) t

lemma ofStart?_toUtf8 {t : Text} (h : t.head? ≠ some '\x00') :
    ofStart? (Text.toUtf8 ('<' :: t)) = none := by
  -- of the marks of wider units only one starts with the byte of '<', and a zero follows it
  have hsecond (b : Text.Bytes) : Text.toUtf8 t ≠ 0 :: b := by
    intro heq
    cases t with
    | nil => cases heq
    | cons c t =>
      rw [Text.toUtf8_cons] at heq
      cases hbasic : Text.isBasic c with
      | true =>
        rw [Text.utf8Char_of_isBasic hbasic, List.singleton_append] at heq
        have hc : c.toNat < 0x80 := of_decide_eq_true hbasic
        have hzero : c.toNat = 0 := by
          rw [← Text.toNat_toUInt8 (n := c.toNat) (by omega), (List.cons.inj heq).1]
          rfl
        refine h (congrArg some ?_)
        rw [← Char.ofNat_toNat c, hzero]
      | false =>
        obtain ⟨⟨x, y, r, hbytes⟩, hhigh⟩ := Text.utf8Char_of_not_isBasic hbasic
        rw [hbytes, List.cons_append] at heq
        have hx := hhigh x (by simp [hbytes])
        rw [(List.cons.inj heq).1] at hx
        exact absurd hx (by decide)
  have hfirst : Text.toUtf8 ('<' :: t) = 0x3C :: Text.toUtf8 t := rfl
  rw [hfirst]
  unfold ofStart?
  split
  · next heq => exact absurd (List.cons.inj heq).1 (by decide)
  · next heq => exact absurd (List.cons.inj heq).1 (by decide)
  · next heq => exact absurd (List.cons.inj heq).1 (by decide)
  · next heq => exact absurd (List.cons.inj heq).1 (by decide)
  · next heq => exact absurd (List.cons.inj heq).1 (by decide)
  · next heq => exact absurd (List.cons.inj heq).2 (hsecond _)
  · next heq => exact absurd (List.cons.inj heq).1 (by decide)
  · next heq => exact absurd (List.cons.inj heq).1 (by decide)
  · rfl

/-- The encoding of the bytes of a text is detected as the text declares it. -/
lemma detect?_toUtf8 {t rest : Text} {d : Declaration} (hstart : t.head? ≠ some '\x00')
    (hcut : Declaration.cut? ('<' :: t) = some (d, rest)) :
    detect? (Text.toUtf8 ('<' :: t)) =
      some (d.encoding.elim utf8 ofName, Text.toUtf8 ('<' :: t)) := by
  have hlatin := Declaration.cut?_follows keepsInk_ofLatin1 ('<' :: t)
  rw [hcut] at hlatin
  rw [detect?, ofStart?_toUtf8 hstart]
  simp only [hlatin]
  obtain ⟨encoding, standalone⟩ := d
  cases encoding <;> rfl

end Encoding

/-- What a text is taken for is the text itself if and only if it is declared well. -/
theorem taken?_eq_some_iff (t : Text) : taken? others t = some t ↔ IsDeclaredWell others t := by
  unfold taken? IsDeclaredWell
  cases declared? t with
  | none => exact iff_of_true (Text.ofUtf8?_toUtf8 t) (by simp)
  | some n => simpa using Encoding.decode?_ofName_iff n t

/-- A text is decoded from its bytes as it declares. -/
theorem decode?_toUtf8 {t : Text} (hstart : t.head? ≠ some '\x00')
    (hcut : (Declaration.cut? ('<' :: t)).isSome = true) :
    decode? others (Text.toUtf8 ('<' :: t)) = (taken? others ('<' :: t)).map normalizeLines := by
  obtain ⟨⟨d, rest⟩, hparts⟩ := Option.isSome_iff_exists.1 hcut
  have hdeclared : declared? ('<' :: t) = d.encoding := by
    rw [declared?, hparts]
    rfl
  rw [decode?, Encoding.detect?_toUtf8 hstart hparts, taken?, hdeclared]
  generalize d.encoding.elim Encoding.utf8 Encoding.ofName = e
  change (e.decode? others (Text.toUtf8 ('<' :: t))).bind (fun u => some (normalizeLines u)) =
    (e.decode? others (Text.toUtf8 ('<' :: t))).map normalizeLines
  cases e.decode? others (Text.toUtf8 ('<' :: t)) <;> rfl

end UmlDrawing.Xml
