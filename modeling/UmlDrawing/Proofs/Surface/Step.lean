import UmlDrawing.Proofs.Surface.Sketch
import UmlDrawing.Proofs.Surface.Studio

/-! What a command can do to a drawing, however it ends: change the pen of one surface, keep or
restore its state, carry out one operation of the medium on it, or add a surface. A font may be
looked up for an operation. -/
open UmlDrawing.Action

namespace UmlDrawing.Studio

variable {Content Shared Saved : Type}

/-- The drawing with another surface in the place of one. -/
def put (s : Studio Content Shared Saved) (on : Nat) (x : Surface Content Saved) :
    Studio Content Shared Saved :=
  { s with surfaces := s.surfaces.set on x }

/-- The drawing with a surface in the place of one and what an operation of the medium left of what
it holds and of what is shared. -/
def putCanvas (s : Studio Content Shared Saved) (on : Nat) (x : Surface Content Saved)
    (canvas : Canvas Content Shared) : Studio Content Shared Saved :=
  { s with
    shared := canvas.1
    surfaces := s.surfaces.set on { x with content := canvas.2 } }

variable {s : Studio Content Shared Saved} {base on : Nat} {x : Surface Content Saved}
  {c : Command Scalar}

lemma getElem?_put (hx : s.surfaces[on]? = some x) (y : Surface Content Saved) :
    (s.put on y).surfaces[on]? = some y :=
  List.getElem?_set_self (List.getElem?_eq_some_iff.1 hx).1

lemma getElem?_putCanvas (hx : s.surfaces[on]? = some x) (y : Surface Content Saved)
    (canvas : Canvas Content Shared) :
    (s.putCanvas on y canvas).surfaces[on]? = some { y with content := canvas.2 } :=
  List.getElem?_set_self (List.getElem?_eq_some_iff.1 hx).1

lemma final_onCanvas (hx : s.surfaces[on]? = some x)
    (action : Action (Canvas Content Shared) Unit) :
    final (onCanvas on action s) = s.putCanvas on x (final (action (s.shared, x.content))) := by
  rw [onCanvas_apply, hx]
  dsimp only
  cases action (s.shared, x.content) <;> rfl

/-- Reading the path ends the piece being drawn, before the medium does its part. -/
lemma onPath_apply (hx : s.surfaces[on]? = some x)
    (action : List (Subpath Scalar) → Action (Canvas Content Shared) Unit) :
    (onSurface on (Surface.onPen Pen.path) >>= fun path => onCanvas on (action path)) s =
      match action (Pen.flushed x.pen).finished (s.shared, x.content) with
      | .ok _ canvas => .ok () (s.putCanvas on { x with pen := Pen.flushed x.pen } canvas)
      | .error fault canvas =>
        .error fault (s.putCanvas on { x with pen := Pen.flushed x.pen } canvas) := by
  have hpath : onSurface on (Surface.onPen Pen.path) s =
      .ok (Pen.flushed x.pen).finished (s.put on { x with pen := Pen.flushed x.pen }) := by
    rw [onSurface_apply, hx]
    rfl
  rw [bind_of_ok hpath, onCanvas_apply, getElem?_put hx]
  dsimp only [put, putCanvas]
  cases action (Pen.flushed x.pen).finished (s.shared, x.content) <;> simp only [List.set_set]

lemma final_onPath (hx : s.surfaces[on]? = some x)
    (action : List (Subpath Scalar) → Action (Canvas Content Shared) Unit) :
    final ((onSurface on (Surface.onPen Pen.path) >>= fun path => onCanvas on (action path)) s) =
      s.putCanvas on { x with pen := Pen.flushed x.pen }
        (final (action (Pen.flushed x.pen).finished (s.shared, x.content))) := by
  rw [onPath_apply hx]
  cases action (Pen.flushed x.pen).finished (s.shared, x.content) <;> rfl

lemma exists_onPath_iff (hx : s.surfaces[on]? = some x)
    (action : List (Subpath Scalar) → Action (Canvas Content Shared) Unit) :
    (∃ t, (onSurface on (Surface.onPen Pen.path) >>= fun path => onCanvas on (action path)) s =
        .ok () t) ↔
      ∃ canvas, action (Pen.flushed x.pen).finished (s.shared, x.content) = .ok () canvas := by
  rw [onPath_apply hx]
  cases action (Pen.flushed x.pen).finished (s.shared, x.content) with
  | ok _ canvas => exact iff_of_true ⟨_, rfl⟩ ⟨canvas, rfl⟩
  | error fault canvas => exact iff_of_false not_ok_of_error not_ok_of_error

variable [Medium Content Shared Saved]

/-- The operations of the medium that a drawing can carry out on a surface. -/
inductive Paints (s : Studio Content Shared Saved) : Action (Canvas Content Shared) Unit → Prop
  | fill (path : List (Subpath Scalar)) (color : Color) (alpha : Scalar) :
    Paints s (Medium.fill path color alpha)
  | stroke (path : List (Subpath Scalar)) (color : Color) (dash : List Scalar) :
    Paints s (Medium.stroke path color dash)
  | clip (path : List (Subpath Scalar)) : Paints s (Medium.clip path)
  | text (text : Text) (position : Except Fault (Vec Scalar)) (font : Except Fault Font)
    (style : FontStyle Scalar) (color : Color) :
    Paints s ((Medium.text text style color).draw position font)
  | place {number : Nat} {placed : Surface Content Saved}
    (hplaced : s.surfaces[number]? = some placed) (position : Vec Scalar) :
    Paints s (Medium.place placed.size placed.content position)

/-- A drawing and what a command to one of its surfaces makes of it. Only some commands keep and
restore states. -/
inductive Moves (s : Studio Content Shared Saved) (on : Nat) (states : Bool) :
    Studio Content Shared Saved → Prop
  | idle : Moves s on states s
  | pen {x : Surface Content Saved} (hx : s.surfaces[on]? = some x) (pen : Pen Scalar) :
    Moves s on states (s.put on { x with pen := pen })
  | push (hstates : states = true) {x : Surface Content Saved} (hx : s.surfaces[on]? = some x) :
    Moves s on states (s.put on x.pushState)
  | pop (hstates : states = true) {x : Surface Content Saved} (hx : s.surfaces[on]? = some x) :
    Moves s on states (s.put on x.popState)
  | paint {x : Surface Content Saved} (hx : s.surfaces[on]? = some x) (pen : Pen Scalar)
    {action : Action (Canvas Content Shared) Unit} (haction : Paints s action) (m : Metrics) :
    Moves s on states
      { s.putCanvas on { x with pen := pen } (final (action (s.shared, x.content))) with metrics := m }
  | create {size : Vec Scalar} {canvas : Canvas Content Shared}
    (hcreate : Medium.create size s.shared = .ok canvas) :
    Moves s on states { s with
      shared := canvas.1
      surfaces := s.surfaces ++ [{ size := size, content := canvas.2 }] }

variable {states : Bool}

lemma perform_onPen {action : Action (Pen Scalar) Unit} (h : c.onPen? = some action) :
    (perform base on c : Action (Studio Content Shared Saved) Unit) =
      onSurface (base + on) (Surface.onPen action) := by
  cases c <;> cases h <;> rfl

lemma final_onPen {action : Action (Pen Scalar) Unit} (h : c.onPen? = some action)
    (hx : s.surfaces[base + on]? = some x) :
    final (perform base on c s) = s.put (base + on) { x with pen := final (action x.pen) } := by
  rw [perform_onPen h, onSurface_apply, hx]
  dsimp only [Surface.onPen]
  cases action x.pen <;> rfl

lemma moves_onPen {action : Action (Pen Scalar) Unit} (h : c.onPen? = some action) :
    Moves s (base + on) states (final (perform base on c s)) := by
  cases hx : s.surfaces[base + on]? with
  | none =>
    rw [perform_onPen h, onSurface_apply, hx]
    exact .idle
  | some x =>
    rw [final_onPen h hx]
    exact .pen hx _

lemma moves_onCanvas {action : Action (Canvas Content Shared) Unit} (haction : Paints s action)
    (hx : s.surfaces[on]? = some x) (m : Metrics) :
    Moves s on states (final (onCanvas on action { s with metrics := m })) := by
  rw [final_onCanvas (s := { s with metrics := m }) hx]
  exact .paint hx x.pen haction m

lemma moves_onPath {action : List (Subpath Scalar) → Action (Canvas Content Shared) Unit}
    (haction : ∀ path, Paints s (action path)) :
    Moves s on states
      (final ((onSurface on (Surface.onPen Pen.path) >>= fun path => onCanvas on (action path)) s)) := by
  cases hx : s.surfaces[on]? with
  | none =>
    have hpath : onSurface on (Surface.onPen Pen.path) s = .error .noSuchSurface s := by
      rw [onSurface_apply, hx]
    rw [bind_of_error hpath]
    exact .idle
  | some x =>
    rw [final_onPath hx]
    exact .paint hx _ (haction _) s.metrics

/-- Whatever a command does is one of these moves. -/
theorem moves_perform (base on : Nat) (c : Command Scalar) (s : Studio Content Shared Saved) :
    Moves s (base + on) c.movesStates (final (perform base on c s)) := by
  cases c with
  | pushState =>
    rw [perform_pushState, onSurface_apply]
    cases hx : s.surfaces[base + on]? with
    | none => exact .idle
    | some x => exact .push rfl hx
  | popState =>
    rw [perform_popState, onSurface_apply]
    cases hx : s.surfaces[base + on]? with
    | none => exact .idle
    | some x => exact .pop rfl hx
  | fill color alpha => exact moves_onPath fun path => .fill path color alpha
  | stroke color dash => exact moves_onPath fun path => .stroke path color dash
  | clip => exact moves_onPath .clip
  | text text position font color =>
    rw [perform_text_apply]
    cases hx : s.surfaces[base + on]? with
    | none => exact .idle
    | some x => exact moves_onCanvas (.text text _ _ font color) hx _
  | create w h =>
    rw [perform_create_apply]
    cases s.surfaces[base + on]? with
    | none => exact .idle
    | some x =>
      dsimp only
      rw [create_apply]
      cases hcreate : (Medium.create ⟨w, h⟩ s.shared : Except Fault (Canvas Content Shared)) with
      | error fault => exact .idle
      | ok canvas => exact .create hcreate
  | place number position =>
    rw [perform_place_apply]
    cases hx : s.surfaces[base + on]? with
    | none => exact .idle
    | some x =>
      cases hplaced : s.surfaces[base + number]? with
      | none => exact .idle
      | some placed =>
        dsimp only
        cases x.pen.offset.add position with
        | error fault => exact .idle
        | ok corner => exact moves_onCanvas (.place hplaced corner) hx s.metrics
  | _ => exact moves_onPen rfl

end UmlDrawing.Studio
