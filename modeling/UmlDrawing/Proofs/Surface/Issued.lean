import Mathlib.Tactic.Lemma
import UmlDrawing.Surface.Sketch

/-! The commands that a sketch gives. With a ruler to answer its questions, and as long as all commands
are carried out, a sketch is no more than a list of commands and a result. This needs no surface, so it
can be said over every arithmetic. -/
namespace UmlDrawing

/-- The measures of all texts in all fonts. -/
structure Ruler (α : Type) where
  width : Text → FontStyle α → α
  height : FontStyle α → α

namespace Sketch

variable {α β γ : Type} {r : Ruler α}

/-- The commands that a sketch gives, each with the number of its surface, and how the sketch ends. -/
def issued (r : Ruler α) : Sketch α β → List (Nat × Command α) × Except Fault β
  | done b => ([], .ok b)
  | fail fault => ([], .error fault)
  | note _ next => next.issued r
  | command on c next => (((on, c) :: ((next (.ok ())).issued r).1), ((next (.ok ())).issued r).2)
  | askWidth t font next => (next (.ok (r.width t font))).issued r
  | askHeight font next => (next (.ok (r.height font))).issued r

/-- A sketch that gives these commands to the surface it draws on and ends with this result. -/
def Issues (r : Ruler α) (s : Sketch α β) (b : β) (commands : List (Command α)) : Prop :=
  s.issued r = (commands.map (Prod.mk 0), .ok b)

/-- What comes after a sketch gives its commands after those of the sketch. -/
lemma issued_bind {s : Sketch α β} {f : β → Sketch α γ} {b : β} {given : List (Nat × Command α)}
    (h : s.issued r = (given, .ok b)) :
    (s >>= f).issued r = (given ++ ((f b).issued r).1, ((f b).issued r).2) := by
  change (s.bind f).issued r = _
  induction s generalizing given with
  | done a =>
    cases h
    rfl
  | fail fault => cases h
  | note n next ih => exact ih h
  | command on c next ih =>
    obtain ⟨hlist, hend⟩ := Prod.mk.inj h
    rw [bind, issued, ih (.ok ()) (Prod.ext rfl hend), ← hlist]
    rfl
  | askWidth t font next ih => exact ih _ h
  | askHeight font next ih => exact ih _ h

namespace Issues

lemma bind {s : Sketch α β} {f : β → Sketch α γ} {b : β} {c : γ} {commands more : List (Command α)}
    (h : Issues r s b commands) (hnext : Issues r (f b) c more) :
    Issues r (s >>= f) c (commands ++ more) := by
  rw [Issues, issued_bind h, hnext, List.map_append]

/-- A sketch that gives no commands before another one. -/
lemma quietly {s : Sketch α β} {f : β → Sketch α γ} {b : β} {c : γ} {commands : List (Command α)}
    (h : Issues r s b []) (hnext : Issues r (f b) c commands) : Issues r (s >>= f) c commands :=
  h.bind hnext

/-- A sketch that gives no commands after another one. -/
lemma ended {s : Sketch α β} {f : β → Sketch α γ} {b : β} {c : γ} {commands : List (Command α)}
    (h : Issues r s b commands) (hnext : Issues r (f b) c []) : Issues r (s >>= f) c commands := by
  rw [← List.append_nil commands]
  exact h.bind hnext

lemma pure (b : β) : Issues r (Pure.pure b) b [] := rfl

lemma ofExcept {x : Except Fault β} {b : β} (h : x = .ok b) : Issues r (Sketch.ofExcept x) b [] := by
  subst h
  rfl

lemma draw (c : Command α) : Issues r (Sketch.draw c) () [c] := rfl

lemma width (t : Text) (font : FontStyle α) : Issues r (Sketch.width t font) (r.width t font) [] := rfl

lemma height (font : FontStyle α) : Issues r (Sketch.height font) (r.height font) [] := rfl

lemma report (notes : List Note) : Issues r (Sketch.report notes) () [] := by
  induction notes with
  | nil => rfl
  | cons n ns ih => exact ih

end Issues

end Sketch

end UmlDrawing
