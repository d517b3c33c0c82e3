import UmlDrawing.Font.Face
import UmlDrawing.Proofs.Font.InkHeight

/-! Libraries that read the sizes of fonts as doubles. Sizes that are the same number, one written as
an integer and one as a double, give fonts that do the same there. -/
namespace UmlDrawing

/-- Equal sizes give interchangeable fonts: with the same lengths, the same ink and the same pixels.
There are no fonts of sizes that are not positive. -/
structure FontLibrary.Uniform (library : FontLibrary) : Prop where
  truetype (name : Text) {a b : Scalar} (h : Scalar.same a b = true) :
    (library.truetype name a).map (Option.map Face.toFont) =
      (library.truetype name b).map (Option.map Face.toFont)
  builtin {a b : Scalar} (h : Scalar.same a b = true) :
    (library.builtin a).map Face.toFont = (library.builtin b).map Face.toFont
  refused (name : Text) {size : Scalar} (h : Scalar.le size (.whole 0) = true) :
    ∃ fault, library.truetype name size = .error fault

namespace Metrics

variable {a b : FontStyle Scalar}

lemma same_size (h : sameStyle a b = true) : Scalar.same a.size b.size = true := by
  simp only [sameStyle, Bool.and_eq_true] at h
  exact h.1.1.2

lemma candidates_eq (h : sameStyle a b = true) : Face.candidates a = Face.candidates b := by
  simp only [sameStyle, Bool.and_eq_true, beq_iff_eq] at h
  obtain ⟨⟨⟨hfamily, -⟩, hbold⟩, hitalic⟩ := h
  rw [Face.candidates, Face.candidates, hfamily, hbold, hitalic]

end Metrics

namespace Scalar

variable {a b : Scalar}

lemma le_zero_eq (h : same a b = true) : le a (.whole 0) = le b (.whole 0) := by
  obtain ⟨p, ha, hb⟩ := same_iff.1 h
  rw [Bool.eq_iff_iff, le_iff, le_iff, ha, hb]

/-- Positive sizes that are the same number are the same double. -/
lemma toFloat_of_same (h : same a b = true) (hpos : le a (.whole 0) = false) :
    toFloat a = toFloat b := by
  have hdouble {n : Nat} {x : Float} (hn : 0 < n)
      (hx : (Binary64.value x).exact = some ((n : ℚ) : WithBotTop ℚ)) :
      toFloat (whole n) = toFloat (real x) := by
    rw [toFloat, Binary64.ofInt?_of_exact hn hx]
    rfl
  obtain rfl | ⟨n, x, hn, hx, ⟨rfl, rfl⟩ | ⟨rfl, rfl⟩⟩ := cases_of_same h hpos
  · rfl
  · exact hdouble hn hx
  · exact (hdouble hn hx).symm

/-- What is made of the doubles of positive sizes is the same for sizes that are the same number. -/
lemma ofDouble_eq {β : Type} (h : same a b = true) (f : Float → Except Fault β) :
    (if le a (.whole 0) then .error .fontSize else a.toFloat >>= f) =
      if le b (.whole 0) then .error .fontSize else b.toFloat >>= f := by
  rw [le_zero_eq h]
  split
  · rfl
  · next hle => rw [toFloat_of_same h ((le_zero_eq h).trans (Bool.eq_false_iff.2 hle))]

end Scalar

namespace FontLibrary

variable {library : FontLibrary} {a b : FontStyle Scalar} {s t : Scalar}

/-- The font of some files is that of the first one, or else that of the others. -/
lemma map_find?_cons (library : FontLibrary) (size : Scalar) (name : Text) (names : List Text) :
    (library.find? size (name :: names)).map (Option.map Face.toFont) =
      ((library.truetype name size).map (Option.map Face.toFont)).bind fun found =>
        match found with
        | some font => .ok (some font)
        | none => (library.find? size names).map (Option.map Face.toFont) := by
  rw [find?]
  cases library.truetype name size with
  | error fault => rfl
  | ok found => cases found <;> rfl

lemma font_eq_bind (library : FontLibrary) (style : FontStyle Scalar) :
    library.font style =
      ((library.find? style.size (Face.candidates style)).map (Option.map Face.toFont)).bind
        fun found =>
          match found with
          | some font => .ok font
          | none => (library.builtin style.size).map Face.toFont := by
  rw [font, Face.load]
  cases library.find? style.size (Face.candidates style) with
  | error fault => rfl
  | ok found => cases found <;> rfl

lemma Uniform.find?_eq (h : library.Uniform) (hsame : Scalar.same s t = true) (names : List Text) :
    (library.find? s names).map (Option.map Face.toFont) =
      (library.find? t names).map (Option.map Face.toFont) := by
  induction names with
  | nil => rfl
  | cons name names ih => rw [map_find?_cons, map_find?_cons, h.truetype name hsame, ih]

/-- Styles that are the same have interchangeable fonts. -/
theorem Uniform.font_eq (h : library.Uniform) (hsame : Metrics.sameStyle a b = true) :
    library.font a = library.font b := by
  have hsize := Metrics.same_size hsame
  rw [font_eq_bind, font_eq_bind, Metrics.candidates_eq hsame, h.find?_eq hsize, h.builtin hsize]

/-- Whatever the family, a font is looked for in a file first. -/
lemma Uniform.positive (h : library.Uniform) {font : Font} (hfont : library.font a = .ok font) :
    Scalar.le a.size (.whole 0) = false := by
  rw [Bool.eq_false_iff]
  intro hle
  cases hnames : Face.candidates a with
  | nil => exact absurd hnames (List.concat_ne_nil _ _)
  | cons name names =>
    obtain ⟨fault, hfault⟩ := h.refused name hle
    rw [font_eq_bind, hnames, map_find?_cons, hfault] at hfont
    cases hfont

/-- The library with its fonts as they are for the doubles of all sizes. -/
def inDoubles (library : FontLibrary) : FontLibrary where
  truetype name size :=
    if Scalar.le size (.whole 0) then .error .fontSize
    else do
      let x ← size.toFloat
      library.truetype name (.real x)
  builtin size :=
    if Scalar.le size (.whole 0) then .error .fontSize
    else do
      let x ← size.toFloat
      library.builtin (.real x)

/-- However a library treats its sizes, it is uniform once they are doubles. -/
theorem uniform_inDoubles (library : FontLibrary) : library.inDoubles.Uniform where
  truetype _ {_ _} h := congrArg (Except.map (Option.map Face.toFont)) (Scalar.ofDouble_eq h _)
  builtin {_ _} h := congrArg (Except.map Face.toFont) (Scalar.ofDouble_eq h _)
  refused _ _ h := ⟨.fontSize, if_pos h⟩

end FontLibrary

end UmlDrawing
