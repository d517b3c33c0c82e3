import UmlDrawing.Proofs.Compositor.Step
import UmlDrawing.Proofs.Path.Pen

/-! The drawing of an element in a studio of its own. -/
open UmlDrawing.Action

namespace UmlDrawing.Compositor

open Studio

lemma surface_solo (m : Metrics) (x : Surface Recording Unit) :
    (solo m x).surfaces[0]? = some x :=
  rfl

/-- The surface of an element before its renderer draws to it. -/
def blank (b : Bounds) : Surface Recording Unit :=
  { size := surfaceSize b, pen := { offset := strokeOffset }, content := ⟨[]⟩ }

lemma origin_add_strokeOffset : Vec.origin.add strokeOffset = .ok strokeOffset := by
  rfl

/-- The offset is moved from the origin to where it puts lines on pixels. -/
lemma translate_fresh (m : Metrics) (b : Bounds) :
    Studio.perform 0 0 (.translate strokeOffset) (fresh m b) =
      .ok () (solo m (blank b)) := by
  have htranslate : Pen.translate strokeOffset (Pen.initial : Pen Scalar) =
      .ok () { offset := strokeOffset } := by
    rw [Pen.translate, bind_apply, Pen.located_apply, Pen.initial, origin_add_strokeOffset]
    rfl
  simp only [Studio.perform, Command.onPen?, Nat.add_zero]
  rw [onSurface_apply, fresh, surface_solo]
  simp only [Surface.onPen, htranslate]
  rfl

/-- The sketch of an element comes to an end, and leaves the surfaces as its renderer does. -/
lemma sketchElement_eq_ok {Content Shared Saved : Type} [Medium Content Shared Saved]
    (c : Compositor) (renderer : Renderer Scalar) (number : Nat) (e : Element)
    (s : Studio Content Shared Saved) :
    ∃ t, sketchElement c renderer number e s = .ok () t ∧
      t.surfaces =
        (final (Studio.saved number ((renderer e.localized c.config).play number) s)).surfaces := by
  rw [sketchElement, tryCatch_apply]
  cases Studio.saved number ((renderer e.localized c.config).play number) s with
  | ok b t => exact ⟨t, rfl, rfl⟩
  | error fault t => exact ⟨_, rfl, rfl⟩

/-- An element is drawn to an empty surface once lines are put on pixels. -/
lemma drawElement_fresh (c : Compositor) (renderer : Renderer Scalar) (m : Metrics)
    (e : Element) :
    drawElement c renderer [] 0 e (fresh m e.bounds) =
      (do
        sketchElement c renderer 0 e
        if c.outlines then outline 0 e.bounds) (solo m (blank e.bounds)) := by
  have hreport : (Studio.report [] : Action (Studio Recording Unit Unit) Unit)
      (solo m (blank e.bounds)) = .ok () (solo m (blank e.bounds)) :=
    rfl
  rw [drawElement, bind_of_ok (translate_fresh m e.bounds), bind_of_ok hreport]

end UmlDrawing.Compositor
