import UmlDrawing.Proofs.Surface.Action
import UmlDrawing.Surface.Sketch

/-! The steps of a studio as functions of its state. -/
open UmlDrawing.Action

namespace UmlDrawing

variable {Content Shared Saved β : Type}

namespace Lettering

/-- What the medium does for a text at a position in a font, each of which may be impossible. -/
def draw (l : Lettering Content Shared) (position : Except Fault (Vec Scalar))
    (font : Except Fault Font) : Action (Canvas Content Shared) Unit :=
  match l with
  | .written draw => draw position
  | .set draw => do
    let corner ← Action.ofExcept position
    let font ← Action.ofExcept font
    draw font corner

/-- The metrics after a text, which keep its font if it was set in one. -/
def metricsAfter (l : Lettering Content Shared) (position : Except Fault (Vec Scalar))
    (style : FontStyle Scalar) (m : Metrics) : Metrics :=
  match l, position with
  | .set _, .ok _ => (m.font style).2
  | _, _ => m

end Lettering

namespace Studio

lemma surface_apply (on : Nat) (s : Studio Content Shared Saved) :
    surface on s =
      match s.surfaces[on]? with
      | none => .error .noSuchSurface s
      | some x => .ok x s := by
  rw [surface, bind_of_ok (get_apply s)]
  cases s.surfaces[on]? <;> rfl

lemma onSurface_apply (on : Nat) (action : Action (Surface Content Saved) β)
    (s : Studio Content Shared Saved) :
    onSurface on action s =
      match s.surfaces[on]? with
      | none => .error .noSuchSurface s
      | some x =>
        match action x with
        | .ok b y => .ok b { s with surfaces := s.surfaces.set on y }
        | .error fault y => .error fault { s with surfaces := s.surfaces.set on y } := by
  cases h : s.surfaces[on]? with
  | none => exact bind_of_error (by rw [surface_apply, h])
  | some x =>
    refine (bind_of_ok (by rw [surface_apply, h])).trans ?_
    cases haction : action x <;> simp only [haction]

lemma onSurface_modify {on : Nat} {s : Studio Content Shared Saved} {x : Surface Content Saved}
    (hx : s.surfaces[on]? = some x) (f : Surface Content Saved → Surface Content Saved) :
    onSurface on (modify f) s = .ok () { s with surfaces := s.surfaces.set on (f x) } := by
  rw [onSurface_apply, hx]
  rfl

lemma onCanvas_apply (on : Nat) (action : Action (Canvas Content Shared) Unit)
    (s : Studio Content Shared Saved) :
    onCanvas on action s =
      match s.surfaces[on]? with
      | none => .error .noSuchSurface s
      | some x =>
        match action (s.shared, x.content) with
        | .ok _ canvas => .ok () { s with
            shared := canvas.1
            surfaces := s.surfaces.set on { x with content := canvas.2 } }
        | .error fault canvas => .error fault { s with
            shared := canvas.1
            surfaces := s.surfaces.set on { x with content := canvas.2 } } := by
  cases h : s.surfaces[on]? with
  | none => exact bind_of_error (by rw [surface_apply, h])
  | some x =>
    refine (bind_of_ok (by rw [surface_apply, h])).trans ?_
    cases haction : action (s.shared, x.content) <;> simp only [haction]

lemma onCanvas_ofExcept_error {on : Nat} {s : Studio Content Shared Saved}
    {x : Surface Content Saved} (hx : s.surfaces[on]? = some x) {α : Type} (fault : Fault)
    (next : α → Action (Canvas Content Shared) Unit) :
    onCanvas on (Action.ofExcept (.error fault) >>= next) s = .error fault s := by
  obtain ⟨hlt, hget⟩ := List.getElem?_eq_some_iff.1 hx
  have hsame : s.surfaces.set on x = s.surfaces := by
    rw [← hget]
    exact List.set_getElem_self hlt
  rw [onCanvas_apply, hx]
  simp only [bind_of_error (ofExcept_error fault (s.shared, x.content)), hsame]

/-- A text is one operation of the medium, with what the metrics give for its font. -/
lemma letter_apply {on : Nat} {s : Studio Content Shared Saved} {x : Surface Content Saved}
    (hx : s.surfaces[on]? = some x) (l : Lettering Content Shared)
    (position : Except Fault (Vec Scalar)) (style : FontStyle Scalar) :
    letter on l position style s =
      onCanvas on (l.draw position (s.metrics.font style).1)
        { s with metrics := l.metricsAfter position style s.metrics } := by
  cases l with
  | written draw => rfl
  | set draw =>
    cases position with
    | error fault =>
      refine (bind_of_error (ofExcept_error fault s)).trans ?_
      exact (onCanvas_ofExcept_error hx fault _).symm
    | ok corner =>
      rw [letter, bind_of_ok (ofExcept_ok corner s), Lettering.draw, ofExcept_ok_bind, bind_apply]
      simp only [ask, Lettering.metricsAfter]
      generalize s.metrics.font style = answer
      obtain ⟨font, m⟩ := answer
      cases font with
      | error fault => exact (onCanvas_ofExcept_error (s := { s with metrics := m }) hx fault _).symm
      | ok font => rw [ofExcept_ok_bind]

lemma create_apply [Medium Content Shared Saved] (size : Vec Scalar)
    (s : Studio Content Shared Saved) :
    create size s =
      match (Medium.create size s.shared : Except Fault (Canvas Content Shared)) with
      | .error fault => .error fault s
      | .ok canvas =>
        .ok () { s with
          shared := canvas.1
          surfaces := s.surfaces ++ [{ size := size, content := canvas.2 }] } := by
  rw [create, bind_of_ok (get_apply s), bind_apply]
  cases (Medium.create size s.shared : Except Fault (Canvas Content Shared)) <;> rfl

/-- However an action ends, its state is popped last. -/
lemma final_saved [Medium Content Shared Saved] {on : Nat}
    (action : Action (Studio Content Shared Saved) β) {s : Studio Content Shared Saved}
    {x : Surface Content Saved} (hx : s.surfaces[on]? = some x) :
    final (saved on action s) =
      final (onSurface on (modify Surface.popState)
        (final (action { s with surfaces := s.surfaces.set on (Surface.pushState x) }))) := by
  refine (congrArg final (bind_of_ok (onSurface_modify hx Surface.pushState))).trans ?_
  cases action { s with surfaces := s.surfaces.set on (Surface.pushState x) } with
  | ok b t =>
    dsimp only [final]
    cases onSurface on (modify Surface.popState) t <;> rfl
  | error fault t =>
    dsimp only [final]
    cases onSurface on (modify Surface.popState) t <;> rfl

/-- Actions that go the same way still do so between pushing and popping a state. -/
lemma saved_alike_of [Medium Content Shared Saved]
    {R : Studio Content Shared Saved → Studio Content Shared Saved → Prop} {on on' : Nat}
    {action action' : Action (Studio Content Shared Saved) β} {s t : Studio Content Shared Saved}
    (h : R s t)
    (hpush : ∀ s t, R s t → Alike R (onSurface on (modify Surface.pushState) s)
      (onSurface on' (modify Surface.pushState) t))
    (hpop : ∀ s t, R s t → Alike R (onSurface on (modify Surface.popState) s)
      (onSurface on' (modify Surface.popState) t))
    (haction : ∀ s t, R s t → Alike R (action s) (action' t)) :
    Alike R (saved on action s) (saved on' action' t) := by
  refine (hpush s t h).bind (fun _ s t h => ?_) fun _ _ h => h
  have hresult := haction s t h
  generalize action s = u at hresult
  generalize action' t = v at hresult
  -- a state that cannot be popped makes a failure of what was done, but not of a failure
  cases hresult with
  | @ok b s t h =>
    have hpopped := hpop s t h
    dsimp only
    generalize onSurface on (modify Surface.popState) s = u at hpopped
    generalize onSurface on' (modify Surface.popState) t = v at hpopped
    cases hpopped with
    | ok _ h => exact .ok b h
    | error fault h => exact .error fault h
  | @error fault s t h =>
    have hpopped := hpop s t h
    dsimp only
    generalize onSurface on (modify Surface.popState) s = u at hpopped
    generalize onSurface on' (modify Surface.popState) t = v at hpopped
    cases hpopped with
    | ok _ h => exact .error fault h
    | error later h => exact .error later h

section Perform

variable [Medium Content Shared Saved] (base on : Nat) (s : Studio Content Shared Saved)

lemma perform_pushState :
    (perform base on .pushState : Action (Studio Content Shared Saved) Unit) =
      onSurface (base + on) (modify Surface.pushState) :=
  rfl

lemma perform_popState :
    (perform base on .popState : Action (Studio Content Shared Saved) Unit) =
      onSurface (base + on) (modify Surface.popState) :=
  rfl

lemma perform_fill (color : Color) (alpha : Scalar) :
    (perform base on (.fill color alpha) : Action (Studio Content Shared Saved) Unit) =
      onSurface (base + on) (Surface.onPen Pen.path) >>= fun path =>
        onCanvas (base + on) (Medium.fill path color alpha) :=
  rfl

lemma perform_stroke (color : Color) (dash : List Scalar) :
    (perform base on (.stroke color dash) : Action (Studio Content Shared Saved) Unit) =
      onSurface (base + on) (Surface.onPen Pen.path) >>= fun path =>
        onCanvas (base + on) (Medium.stroke path color dash) :=
  rfl

lemma perform_clip :
    (perform base on .clip : Action (Studio Content Shared Saved) Unit) =
      onSurface (base + on) (Surface.onPen Pen.path) >>= fun path =>
        onCanvas (base + on) (Medium.clip path) :=
  rfl

lemma perform_text_apply (text : Text) (position : Vec Scalar) (font : FontStyle Scalar)
    (color : Color) :
    perform base on (.text text position font color) s =
      match s.surfaces[base + on]? with
      | none => .error .noSuchSurface s
      | some target =>
        let lettering : Lettering Content Shared := Medium.text text font color
        let corner := target.pen.offset.add position
        onCanvas (base + on) (lettering.draw corner (s.metrics.font font).1)
          { s with metrics := lettering.metricsAfter corner font s.metrics } := by
  cases h : s.surfaces[base + on]? with
  | none => exact bind_of_error (by rw [surface_apply, h])
  | some target =>
    refine (bind_of_ok (by rw [surface_apply, h])).trans ?_
    exact letter_apply h (Medium.text text font color) _ font

lemma perform_create_apply (w h : Scalar) :
    perform base on (.create w h) s =
      match s.surfaces[base + on]? with
      | none => .error .noSuchSurface s
      | some _ => create ⟨w, h⟩ s := by
  cases hx : s.surfaces[base + on]? with
  | none => exact bind_of_error (by rw [surface_apply, hx])
  | some _ => exact bind_of_ok (by rw [surface_apply, hx])

lemma perform_place_apply (number : Nat) (position : Vec Scalar) :
    perform base on (.place number position) s =
      match s.surfaces[base + on]? with
      | none => .error .noSuchSurface s
      | some target =>
        match s.surfaces[base + number]? with
        | none => .error .noSuchSurface s
        | some placed =>
          match target.pen.offset.add position with
          | .error fault => .error fault s
          | .ok corner =>
            onCanvas (base + on) (Medium.place placed.size placed.content corner) s := by
  cases htarget : s.surfaces[base + on]? with
  | none => exact bind_of_error (by rw [surface_apply, htarget])
  | some target =>
    refine (bind_of_ok (by rw [surface_apply, htarget])).trans ?_
    cases hplaced : s.surfaces[base + number]? with
    | none => exact bind_of_error (by rw [surface_apply, hplaced])
    | some placed =>
      refine (bind_of_ok (by rw [surface_apply, hplaced])).trans ?_
      dsimp only
      cases target.pen.offset.add position with
      | error fault => exact bind_of_error (ofExcept_error fault s)
      | ok corner => exact bind_of_ok (ofExcept_ok corner s)

end Perform

section Play

variable [Medium Content Shared Saved] (base : Nat) (s : Studio Content Shared Saved)

lemma play_command (on : Nat) (c : Command Scalar) (next : Except Fault Unit → Sketch Scalar β) :
    (Sketch.command on c next).play base s =
      (next (outcome (perform base on c s))).play base (final (perform base on c s)) := by
  rw [Sketch.play]
  dsimp only
  cases perform base on c s <;> rfl

lemma play_askWidth (text : Text) (font : FontStyle Scalar)
    (next : Except Fault Scalar → Sketch Scalar β) :
    (Sketch.askWidth text font next).play base s =
      (next (outcome (width text font s))).play base (final (width text font s)) := by
  rw [Sketch.play]
  dsimp only
  cases width text font s <;> rfl

lemma play_askHeight (font : FontStyle Scalar) (next : Except Fault Scalar → Sketch Scalar β) :
    (Sketch.askHeight font next).play base s =
      (next (outcome (height font s))).play base (final (height font s)) := by
  rw [Sketch.play]
  dsimp only
  cases height font s <;> rfl

end Play

end Studio

end UmlDrawing
