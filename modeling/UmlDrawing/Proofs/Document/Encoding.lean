import UmlDrawing.Document.Diagram
import UmlDrawing.Proofs.Xml.Content
import UmlDrawing.Proofs.Xml.Decoding

/-! Documents that are given as markup. A text becomes bytes in units of eight bits whatever it declares,
but its bytes become characters again as it declares. -/
namespace UmlDrawing

namespace Xml

/-- What is known of a document before it is read. -/
def starting (size : Nat) (standalone : Bool) (rest : Text) : Reading :=
  { input := ⟨0, size, rest⟩, doctype := { standalone := standalone } }

lemma parseText?_eq {t rest : Text} {d : Declaration} (h : Declaration.cut? t = some (d, rest)) :
    parseText? t = ((Parser.document.run (starting (Text.utf8Size t) d.standalone rest)).bind fun x =>
      if x.2.log.isAcceptable then some x.1 else none) := by
  rw [parseText?, h]
  rfl

/-- A document is read in the same way if its declaration takes more bytes. -/
lemma parseText?_of_size_le {t u rest : Text} {d e : Declaration} {root : Node}
    (ht : Declaration.cut? t = some (d, rest)) (hu : Declaration.cut? u = some (e, rest))
    (hstandalone : e.standalone = d.standalone) (hsize : Text.utf8Size t ≤ Text.utf8Size u)
    (hroot : parseText? t = some root) : parseText? u = some root := by
  rw [parseText?_eq ht] at hroot
  rw [parseText?_eq hu, hstandalone]
  obtain ⟨⟨found, s⟩, hrun, haccepted⟩ := Option.bind_eq_some_iff.1 hroot
  have hwide : (starting (Text.utf8Size t) d.standalone rest).Wider
      (starting (Text.utf8Size u) d.standalone rest) :=
    .intro (.outermost ⟨rfl, hsize, rfl⟩)
  obtain ⟨s', hrun', ⟨-⟩⟩ := Parser.document_lasts hwide found s hrun
  exact Option.bind_eq_some_iff.2 ⟨_, hrun', haccepted⟩

/-- Documents that differ in their declarations alone, and declare the same apart from the encoding, are
the same if both of them are accepted. -/
theorem parseText?_unique {t u rest : Text} {d e : Declaration} {root root' : Node}
    (ht : Declaration.cut? t = some (d, rest)) (hu : Declaration.cut? u = some (e, rest))
    (hstandalone : e.standalone = d.standalone) (hroot : parseText? t = some root)
    (hroot' : parseText? u = some root') : root' = root := by
  obtain hsize | hsize := Nat.le_total (Text.utf8Size t) (Text.utf8Size u)
  · exact Option.some.inj (hroot'.symm.trans (parseText?_of_size_le ht hu hstandalone hsize hroot))
  · exact Option.some.inj
      ((parseText?_of_size_le hu ht hstandalone.symm hsize hroot').symm.trans hroot)

end Xml

namespace Document

/-- The root of a document that is read as the very characters that it consists of. -/
def rootOf? (t : Text) : Option Xml.Node := Xml.parseText? (Xml.normalizeLines t)

/-- The diagrams of a document that is read as the very characters that it consists of. -/
def ofText (t : Text) : Except Fault (List Diagram) × List Note :=
  match rootOf? t with
  | some root => ofRoot root
  | none => (.error .malformedDocument, [])

/-- Whether a text is markup that can be read as the very characters that it consists of. -/
structure IsMarkupText (t : Text) : Prop where
  start : t.head? = some '<'
  wellFormed : (rootOf? t).isSome = true

/-- The help texts of diagrams, if there are diagrams. -/
def helpTexts (read : Except Fault (List Diagram) × List Note) : Option (List Text) :=
  read.1.toOption.map fun diagrams => diagrams.map (·.help)

/-- Whether a text is the same markup as another one without an encoding in its declaration. -/
def IsBare (bare t : Text) : Prop :=
  ∃ encoding standalone rest, Xml.Declaration.cut? t = some (⟨encoding, standalone⟩, rest) ∧
    Xml.Declaration.cut? bare = some (⟨none, standalone⟩, rest)

variable {t bare : Text} {others : Text.Decoders}

lemma IsMarkupText.isSome_cut? (h : IsMarkupText t) : (Xml.Declaration.cut? t).isSome = true := by
  obtain ⟨root, hroot⟩ := Option.isSome_iff_exists.1 h.wellFormed
  have hcut := Xml.Declaration.cut?_follows Xml.keepsInk_normalizeLines t
  rw [rootOf?, Xml.parseText?, hcut] at hroot
  cases hdeclaration : Xml.Declaration.cut? t with
  | some parts => rfl
  | none =>
    rw [hdeclaration] at hroot
    cases hroot

/-- What follows the first character of markup is not the second byte of a wider unit. -/
lemma IsMarkupText.exists_cons (h : IsMarkupText t) : ∃ r, t = '<' :: r ∧ r.head? ≠ some '\x00' := by
  obtain ⟨r, rfl⟩ : ∃ r, t = '<' :: r := by
    cases t with
    | nil => cases h.start
    | cons c r =>
      cases h.start
      exact ⟨r, rfl⟩
  refine ⟨r, rfl, fun hzero => ?_⟩
  -- no markup goes on with a character of that number, so the bytes are not mistaken for wider units
  obtain ⟨u, rfl⟩ : ∃ u, r = '\x00' :: u := by
    cases r with
    | nil => cases hzero
    | cons c u =>
      cases hzero
      exact ⟨u, rfl⟩
  have hrefused : rootOf? ('<' :: '\x00' :: u) = none := by
    rw [rootOf?, Xml.normalizeLines_other (by decide), Xml.normalizeLines_other (by decide)]
    rfl
  have hform := h.wellFormed
  rw [hrefused] at hform
  cases hform

/-- Markup is read as the text that its bytes are taken for. -/
lemma IsMarkupText.ofSource_eq (h : IsMarkupText t) :
    ofSource t others = match Xml.taken? others t with
      | some u => ofText u
      | none => (.error .malformedDocument, []) := by
  obtain ⟨r, rfl, hsecond⟩ := h.exists_cons
  have hmarkup : isMarkup ('<' :: r) = true := rfl
  rw [ofSource, if_pos hmarkup, ofBytes, Xml.parse?, Xml.decode?_toUtf8 hsecond h.isSome_cut?]
  cases Xml.taken? others ('<' :: r) <;> rfl

lemma IsMarkupText.ofSource_of_isDeclaredWell (h : IsMarkupText t)
    (hwell : Xml.IsDeclaredWell others t) : ofSource t others = ofText t := by
  rw [h.ofSource_eq, (Xml.taken?_eq_some_iff t).2 hwell]

lemma cut?_normalizeLines {rest : Text} {d : Xml.Declaration}
    (h : Xml.Declaration.cut? t = some (d, rest)) :
    Xml.Declaration.cut? (Xml.normalizeLines t) = some (d, Xml.normalizeLines rest) := by
  rw [Xml.Declaration.cut?_follows Xml.keepsInk_normalizeLines, h]
  rfl

/-- An encoding can be left out of a declaration. Blanks make up for the room that it takes, as the size
of a document bounds what its entities may add to it. -/
lemma IsMarkupText.exists_isBare (h : IsMarkupText t) : ∃ bare, IsMarkupText bare ∧ IsBare bare t := by
  obtain ⟨root, hroot⟩ := Option.isSome_iff_exists.1 h.wellFormed
  obtain ⟨⟨⟨encoding, standalone⟩, rest⟩, hcut⟩ := Option.isSome_iff_exists.1 h.isSome_cut?
  have hplain := Xml.Declaration.cut?_plain (Text.utf8Size (Xml.normalizeLines t)) standalone rest
  have hroot' := Xml.parseText?_of_size_le (cut?_normalizeLines hcut) (cut?_normalizeLines hplain) rfl
    (Xml.room_le_utf8Size _ standalone rest) hroot
  exact ⟨_, ⟨rfl, by rw [rootOf?, hroot']; rfl⟩, encoding, standalone, rest, hcut, hplain⟩

lemma IsBare.isDeclaredWell (h : IsBare bare t) : Xml.IsDeclaredWell others bare := by
  obtain ⟨encoding, standalone, rest, -, hbare⟩ := h
  intro n hn
  rw [Xml.declared?, hbare] at hn
  cases hn

lemma IsBare.ofText_eq (h : IsBare bare t) (hbare : IsMarkupText bare) (ht : IsMarkupText t) :
    ofText bare = ofText t := by
  obtain ⟨encoding, standalone, rest, hcut, hcut'⟩ := h
  obtain ⟨root, hroot⟩ := Option.isSome_iff_exists.1 ht.wellFormed
  obtain ⟨root', hroot'⟩ := Option.isSome_iff_exists.1 hbare.wellFormed
  rw [ofText, ofText, hroot, hroot',
    Xml.parseText?_unique (cut?_normalizeLines hcut) (cut?_normalizeLines hcut') rfl hroot hroot']

/-- **Documents that are given as markup.** A text is read as the text that its bytes are taken for, and
refused where they are taken for none. That is the text itself if and only if it declares no encoding, the
units that it is given in, an encoding of one byte for every character while all of its characters are
basic, or another encoding in which its bytes happen to give it back. Then it is read like the same markup
without an encoding in its declaration, which there always is, and which is always read as it is. -/
theorem ofSource_decoded (others : Text.Decoders) (h : IsMarkupText t) :
    ofSource t others = (match Xml.taken? others t with
      | some u => ofText u
      | none => (.error .malformedDocument, [])) ∧
    (Xml.taken? others t = some t ↔ Xml.IsDeclaredWell others t) ∧
    (Xml.IsDeclaredWell others t → ofSource t others = ofText t) ∧
    (∃ bare, IsMarkupText bare ∧ IsBare bare t) ∧
    ∀ bare, IsMarkupText bare → IsBare bare t →
      ofSource bare others = ofText t ∧
        (Xml.IsDeclaredWell others t → ofSource bare others = ofSource t others) := by
  refine ⟨h.ofSource_eq, Xml.taken?_eq_some_iff t, h.ofSource_of_isDeclaredWell, h.exists_isBare, ?_⟩
  intro bare hbare hsame
  have hread : ofSource bare others = ofText t := by
    rw [hbare.ofSource_of_isDeclaredWell hsame.isDeclaredWell, hsame.ofText_eq hbare h]
  exact ⟨hread, fun hwell => hread.trans (h.ofSource_of_isDeclaredWell hwell).symm⟩

/-- Markup with a letter that is not basic, and some item in its declaration. -/
def accented (item : String) : Text :=
  "<?xml version=\"1.0\"".toList ++ item.toList ++
    "?><diagram><help_text>é</help_text></diagram>".toList

/-- An encoding that is declared as the one that the text is given in does no harm. -/
theorem ofSource_decoded_utf8 :
    IsMarkupText (accented " encoding=\"utf-8\"") ∧ IsMarkupText (accented "") ∧
      IsBare (accented "") (accented " encoding=\"utf-8\"") ∧
      helpTexts (ofSource (accented " encoding=\"utf-8\"")) = some ["é".toList] ∧
      helpTexts (ofSource (accented "")) = some ["é".toList] := by
  have hmarkup : IsMarkupText (accented " encoding=\"utf-8\"") := ⟨rfl, by decide +kernel⟩
  have hbare : IsMarkupText (accented "") := ⟨rfl, by decide +kernel⟩
  have hsame : IsBare (accented "") (accented " encoding=\"utf-8\"") :=
    ⟨some "utf-8".toList, false, "<diagram><help_text>é</help_text></diagram>".toList,
      by decide +kernel, by decide +kernel⟩
  have hwell : Xml.IsDeclaredWell .basic (accented " encoding=\"utf-8\"") := by
    have hdeclared : Xml.declared? (accented " encoding=\"utf-8\"") = some "utf-8".toList := by
      decide +kernel
    intro n hn
    cases hdeclared.symm.trans hn
    exact .inl rfl
  have hown : helpTexts (ofText (accented " encoding=\"utf-8\"")) = some ["é".toList] := by
    decide +kernel
  obtain ⟨-, -, hread, -, hbares⟩ := ofSource_decoded .basic hmarkup
  refine ⟨hmarkup, hbare, hsame, ?_, ?_⟩
  · rw [hread hwell, hown]
  · rw [(hbares _ hbare hsame).1, hown]

/-- An encoding of one byte for every character makes two letters of one that is not basic. -/
theorem ofSource_latin1 :
    IsMarkupText (accented " encoding=\"ISO-8859-1\"") ∧
      helpTexts (ofText (accented " encoding=\"ISO-8859-1\"")) = some ["é".toList] ∧
      helpTexts (ofSource (accented " encoding=\"ISO-8859-1\"")) = some ["Ã©".toList] :=
  ⟨⟨rfl, by decide +kernel⟩, by decide +kernel, by decide +kernel⟩

end Document

end UmlDrawing
