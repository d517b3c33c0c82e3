import Mathlib.Tactic.Lemma
import UmlDrawing.Font.Metrics
import UmlDrawing.Proofs.Font.Library

/-! Metrics give the answers of the fonts themselves, whatever they remember. Fonts and heights are
remembered for the style that was asked about first, and given for every style with an equal size,
so this rests on equal sizes having interchangeable fonts. -/
namespace UmlDrawing

/-- Every font that is kept is the one that the library has for its style. -/
structure FontStock.Holds (library : FontLibrary) (stock : FontStock) : Prop where
  installed_eq : stock.installed = library
  loaded : ∀ entry ∈ stock.loaded, library.font entry.1 = .ok entry.2

lemma FontStock.holds_new (library : FontLibrary) : Holds library { installed := library } where
  installed_eq := rfl
  loaded := by simp

namespace Metrics

/-- Everything that is remembered is right. -/
structure Reliable (library : FontLibrary) (m : Metrics) : Prop
    extends FontStock.Holds library m.toFontStock where
  heights : ∀ entry ∈ m.heights,
    (library.font entry.1).bind (inkHeight · entry.1.size) = .ok entry.2

abbrev BothReliable (library : FontLibrary) (m n : Metrics) : Prop :=
  Reliable library m ∧ Reliable library n

/-- Metrics that answer alike, and agree afterwards. -/
structure Agreement (agree : Metrics → Metrics → Prop) : Prop where
  font {m n : Metrics} (h : agree m n) (style : FontStyle Scalar) :
    (m.font style).1 = (n.font style).1 ∧ agree (m.font style).2 (n.font style).2
  width {m n : Metrics} (h : agree m n) (t : Text) (style : FontStyle Scalar) :
    (m.width t style).1 = (n.width t style).1 ∧ agree (m.width t style).2 (n.width t style).2
  height {m n : Metrics} (h : agree m n) (style : FontStyle Scalar) :
    (m.height style).1 = (n.height style).1 ∧ agree (m.height style).2 (n.height style).2

variable {library : FontLibrary} {stock : FontStock} {m : Metrics}

/-- New metrics remember nothing but the fonts that all metrics share. -/
lemma reliable_new (h : stock.Holds library) : Reliable library { toFontStock := stock } where
  toHolds := h
  heights := by simp

section Uniform

variable (hlibrary : library.Uniform)

include hlibrary

/-- The font of a style is its own, though it may have been loaded for an equal size. -/
theorem Reliable.font (h : Reliable library m) (style : FontStyle Scalar) :
    (m.font style).1 = library.font style ∧ Reliable library (m.font style).2 := by
  unfold Metrics.font
  split
  · next found hfound =>
    have hmem := List.mem_of_find?_eq_some hfound
    have hsame : sameStyle found.1 style = true := by simpa using List.find?_some hfound
    refine ⟨(h.loaded found hmem).symm.trans (hlibrary.font_eq hsame), ⟨h.installed_eq, ?_⟩, h.heights⟩
    intro entry hentry
    obtain rfl | hother := List.mem_cons.1 hentry
    · exact h.loaded _ hmem
    · exact h.loaded entry (List.mem_filter.1 hother).1
  · obtain rfl := h.installed_eq
    split
    · next f hload =>
      refine ⟨hload.symm, ⟨rfl, ?_⟩, h.heights⟩
      intro entry hentry
      obtain rfl | hother := List.mem_cons.1 (List.mem_of_mem_take hentry)
      · exact hload
      · exact h.loaded entry hother
    · next fault hload => exact ⟨hload.symm, h⟩

/-- The width of a text is that of its font. -/
theorem Reliable.width (h : Reliable library m) (t : Text) (style : FontStyle Scalar) :
    (m.width t style).1 =
        (if t = [] then .ok (.real 0.0) else (library.font style).bind (·.width t)) ∧
      Reliable library (m.width t style).2 := by
  unfold Metrics.width
  split
  · exact ⟨rfl, h⟩
  · obtain ⟨hfont, hreliable⟩ := h.font hlibrary style
    exact ⟨congrArg (·.bind (·.width t)) hfont, hreliable⟩

/-- A line height that is known for an equal size is that of the style itself. -/
lemma Reliable.height_of_same (h : Reliable library m) {entry : FontStyle Scalar × Scalar}
    (hentry : entry ∈ m.heights) {style : FontStyle Scalar} (hsame : sameStyle entry.1 style = true) :
    (library.font style).bind (inkHeight · style.size) = .ok entry.2 := by
  have hheight := h.heights entry hentry
  rw [hlibrary.font_eq hsame] at hheight
  cases hfont : library.font style with
  | error fault =>
    rw [hfont] at hheight
    cases hheight
  | ok font =>
    rw [hfont] at hheight
    have hpositive : Scalar.le entry.1.size (.whole 0) = false :=
      hlibrary.positive ((hlibrary.font_eq hsame).trans hfont)
    exact inkHeight_of_same (same_size hsame) hpositive hheight

/-- The line height of a style is that of its font. -/
theorem Reliable.height (h : Reliable library m) (style : FontStyle Scalar) :
    (m.height style).1 = (library.font style).bind (inkHeight · style.size) ∧
      Reliable library (m.height style).2 := by
  unfold Metrics.height
  split
  · next known hheld =>
    obtain ⟨entry, hfound, rfl⟩ := Option.map_eq_some_iff.1 hheld
    have hsame : sameStyle entry.1 style = true := by simpa using List.find?_some hfound
    exact ⟨(h.height_of_same hlibrary (List.mem_of_find?_eq_some hfound) hsame).symm, h⟩
  · obtain ⟨hfont, hreliable⟩ := h.font hlibrary style
    generalize m.font style = found at hfont hreliable
    obtain ⟨font, n⟩ := found
    dsimp only at hfont hreliable ⊢
    rw [hfont]
    split
    · next height hheight =>
      refine ⟨hheight.symm, hreliable.toHolds, ?_⟩
      intro entry hentry
      obtain hold | hnew := List.mem_append.1 hentry
      · exact hreliable.heights entry hold
      · obtain rfl := List.mem_singleton.1 hnew
        exact hheight
    · next fault hfault => exact ⟨hfault.symm, hreliable⟩

/-- Reliable metrics answer alike, whatever each of them remembers. -/
theorem agreement_reliable : Agreement (BothReliable library) where
  font h style := by
    have hm := h.1.font hlibrary style
    have hn := h.2.font hlibrary style
    exact ⟨hm.1.trans hn.1.symm, hm.2, hn.2⟩
  width h t style := by
    have hm := h.1.width hlibrary t style
    have hn := h.2.width hlibrary t style
    exact ⟨hm.1.trans hn.1.symm, hm.2, hn.2⟩
  height h style := by
    have hm := h.1.height hlibrary style
    have hn := h.2.height hlibrary style
    exact ⟨hm.1.trans hn.1.symm, hm.2, hn.2⟩

end Uniform

end Metrics

end UmlDrawing
