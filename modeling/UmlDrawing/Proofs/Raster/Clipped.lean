import UmlDrawing.Font.Block
import UmlDrawing.Proofs.Raster.Picture
import UmlDrawing.Proofs.Surface.CarryOn

/-! Pixels that are clipped. Where the mask in force is zero nothing is painted, clips only take
more away, and states that are pushed keep masks that are zero there as well. So a pixel stays as it
is until a state is popped that was pushed before. -/
open UmlDrawing.Action

namespace UmlDrawing.Raster

namespace Picture

/-- A mask that lets nothing through at a place. -/
def Shuts (px py : Nat) (clip : Option (Grid Level)) : Prop :=
  ∃ mask ∈ clip, (mask.get? px py).getD 0 = 0

variable {px py : Nat} {clip : Option (Grid Level)} {p : Picture}

lemma Shuts.masked (h : Shuts px py clip) (paint old : Pixel) :
    (Picture.masked clip px py paint).onto old = old := by
  obtain ⟨mask, rfl, hzero⟩ := h
  simp only [Picture.masked, hzero, Pixel.onto_masked_zero]

/-- A clip inside another one shuts all that the other one shuts. -/
lemma Shuts.within (h : Shuts px py clip) (mask : Grid Level) :
    Shuts px py (some (within mask clip)) := by
  obtain ⟨former, rfl, hzero⟩ := h
  refine ⟨_, rfl, ?_⟩
  simp only [Picture.within]
  rw [Grid.get?_change]
  cases mask.get? px py with
  | none => rfl
  | some level => simp [hzero]

/-- Paint that is laid over an image leaves the pixels that are shut. -/
lemma get?_lay_of_shuts (h : Shuts px py p.clip) (overlay : Overlay) :
    (p.lay overlay).image.get? px py = p.image.get? px py := by
  simp only [lay]
  rw [Grid.get?_change]
  cases overlay py with
  | none => simp
  | some paint => simp [h.masked]

/-- A picture in which a pixel is shut and has a value. -/
def Keeps (px py : Nat) (pixel : Option Pixel) (p : Picture) : Prop :=
  Shuts px py p.clip ∧ p.image.get? px py = pixel

variable {pixel : Option Pixel} {shared : Unit}

lemma Keeps.paint (h : Keeps px py pixel p) (overlay : Except Fault Overlay) :
    Keeps px py pixel (final (paint overlay (shared, p))).2 := by
  cases overlay with
  | error fault => exact h
  | ok o => exact ⟨h.1, (get?_lay_of_shuts h.1 o).trans h.2⟩

/-- No operation paints a pixel that is shut, and none opens it. -/
theorem Keeps.paints (h : Keeps px py pixel p)
    {s : Studio Picture Unit (Option (Grid Level))} {action : Action (Canvas Picture Unit) Unit}
    (haction : s.Paints action) : Keeps px py pixel (final (action (shared, p))).2 := by
  cases haction with
  | fill path color alpha =>
    change Keeps px py pixel (final (fill path color alpha (shared, p))).2
    unfold fill
    split
    · exact h
    · exact h.paint _
  | stroke path color dash =>
    change Keeps px py pixel (final (stroke path color dash (shared, p))).2
    refine final_ofExcept_bind
      (P := fun canvas : Canvas Picture Unit => Keeps px py pixel canvas.2) h fun pieces _ => ?_
    split
    · exact h
    · exact h.paint _
  | clip path =>
    change Keeps px py pixel (final (clipTo path (shared, p))).2
    refine final_ofExcept_bind
      (P := fun canvas : Canvas Picture Unit => Keeps px py pixel canvas.2) h fun s _ => ?_
    exact ⟨h.1.within _, h.2⟩
  | text t position font style color =>
    change Keeps px py pixel (final ((text t color).draw position font (shared, p))).2
    unfold text
    split
    · exact h
    · refine final_ofExcept_bind
        (P := fun canvas : Canvas Picture Unit => Keeps px py pixel canvas.2) h fun corner _ => ?_
      refine final_ofExcept_bind
        (P := fun canvas : Canvas Picture Unit => Keeps px py pixel canvas.2) h fun font _ => ?_
      exact h.paint _
  | @place _ placed hplaced position => exact h.paint (imagePaint placed.content.image position)

end Picture

open Picture (Shuts Keeps)

/-- A surface on which a pixel is shut, now and in all states that were pushed on top of some. -/
structure Shut (px py : Nat) (pixel : Option Pixel) (base : List (Vec Scalar × Option (Grid Level)))
    (x : Surface Picture (Option (Grid Level))) : Prop where
  keeps : Keeps px py pixel x.content
  pushed : ∃ own, x.stack = own ++ base ∧ ∀ entry ∈ own, Shuts px py entry.2

variable {px py : Nat} {pixel : Option Pixel} {base : List (Vec Scalar × Option (Grid Level))}
  {x : Surface Picture (Option (Grid Level))}
  {s t : Studio Picture Unit (Option (Grid Level))} {i on : Nat}

lemma Shut.pushState (h : Shut px py pixel base x) : Shut px py pixel base x.pushState := by
  obtain ⟨own, hstack, hown⟩ := h.pushed
  refine ⟨h.keeps, (x.pen.offset, x.content.clip) :: own, congrArg _ hstack, fun entry hentry => ?_⟩
  obtain rfl | hentry := List.mem_cons.1 hentry
  · exact h.keeps.1
  · exact hown entry hentry

/-- A state that was pushed on top is popped, or there is none at all. -/
lemma Shut.popState (h : Shut px py pixel base x) (hdepth : base.length ≤ x.popState.stack.length) :
    Shut px py pixel base x.popState := by
  obtain ⟨size, pen, stack, content⟩ := x
  obtain ⟨own, rfl, hown⟩ := h.pushed
  cases own with
  | nil =>
    -- without a state of its own only the empty stack may be popped, which does nothing
    cases base with
    | nil => exact h
    | cons entry rest => exact absurd hdepth (Nat.not_succ_le_self _)
  | cons entry own =>
    have hshuts := hown entry (List.mem_cons_self ..)
    exact ⟨⟨hshuts, h.keeps.2⟩, own, rfl, fun e he => hown e (List.mem_cons_of_mem _ he)⟩

/-- A clip to a square in the middle of an image, with a state that could be popped. -/
def middle : Program :=
  [(0, .pushState), (0, .rect (.whole 1) (.whole 1) (.whole 1) (.whole 1)), (0, .clip)]

end UmlDrawing.Raster
