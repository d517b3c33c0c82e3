import UmlDrawing.Proofs.Color.Range
import UmlDrawing.Proofs.Path.Pen
import UmlDrawing.Proofs.Surface.Answered
import UmlDrawing.Proofs.Surface.Step
import UmlDrawing.Surface.Recording

/-! The texts that a sketch leaves in a recording. A rule for every command and for one sketch after
another says which texts are recorded; all of them leave the offset as it is. -/
open UmlDrawing.Action

namespace UmlDrawing

/-- A text as it is recorded. -/
structure TextCall where
  text : Text
  position : Vec Scalar
  font : FontStyle Scalar
  color : Text

/-- The text of a call that draws one. -/
def Call.textCall? : Call → Option TextCall
  | .text t position font color => some ⟨t, position, font, color⟩
  | _ => none

namespace Pen

variable {v : Vec Scalar} {p : Pen Scalar}

lemma exists_moveTo (h : ∃ u, p.offset.add v = .ok u) :
    ∃ q, moveTo v p = .ok () q ∧ q.offset = p.offset := by
  obtain ⟨u, hu⟩ := h
  rw [moveTo_apply, hu]
  exact ⟨_, rfl, rfl⟩

lemma exists_lineTo (h : ∃ u, p.offset.add v = .ok u) :
    ∃ q, lineTo v p = .ok () q ∧ q.offset = p.offset := by
  obtain ⟨u, hu⟩ := h
  rw [lineTo_apply, hu]
  exact ⟨_, rfl, rfl⟩

lemma exists_linesTo {vs : List (Vec Scalar)} (h : ∀ v ∈ vs, ∃ u, p.offset.add v = .ok u) :
    ∃ q, linesTo vs p = .ok () q ∧ q.offset = p.offset := by
  induction vs generalizing p with
  | nil => exact ⟨p, rfl, rfl⟩
  | cons v vs ih =>
    obtain ⟨hv, hvs⟩ := List.forall_mem_cons.1 h
    obtain ⟨q, hq, hoffset⟩ := exists_lineTo hv
    obtain ⟨r, hr, hlast⟩ := ih (p := q) (by rwa [hoffset])
    exact ⟨r, (bind_of_ok hq).trans hr, hlast.trans hoffset⟩

lemma closePath_apply (p : Pen Scalar) : ∃ q, closePath p = .ok () q ∧ q.offset = p.offset := by
  rw [closePath, modify_apply]
  refine ⟨_, rfl, ?_⟩
  cases p.current <;> rfl

/-- A rectangle leaves the offset as it is. -/
lemma exists_rect {x y w h right bottom : Scalar} (hright : Scalar.add x w = .ok right)
    (hbottom : Scalar.add y h = .ok bottom)
    (hcorners : ∀ v ∈ [(⟨x, y⟩ : Vec Scalar), ⟨right, y⟩, ⟨right, bottom⟩, ⟨x, bottom⟩],
      ∃ u, p.offset.add v = .ok u) :
    ∃ q, rect x y w h p = .ok () q ∧ q.offset = p.offset := by
  obtain ⟨hfirst, hrest⟩ := List.forall_mem_cons.1 hcorners
  obtain ⟨q, hq, hoffset⟩ := exists_moveTo hfirst
  obtain ⟨r, hr, hlast⟩ := exists_linesTo (p := q) (by rwa [hoffset])
  obtain ⟨z, hz, hclosed⟩ := closePath_apply r
  have hpolyline : polyline [(⟨x, y⟩ : Vec Scalar), ⟨right, y⟩, ⟨right, bottom⟩, ⟨x, bottom⟩] false p =
      .ok () r := by
    rw [polyline, bind_of_ok hq, bind_of_ok hr]
    rfl
  refine ⟨{ z with current := [] }, ?_, hclosed.trans (hlast.trans hoffset)⟩
  have hright' : Arithmetic.add x w = .ok right := hright
  have hbottom' : Arithmetic.add y h = .ok bottom := hbottom
  rw [rect, hright', hbottom', bind_of_ok (ofExcept_ok right p), bind_of_ok (ofExcept_ok bottom p),
    bind_of_ok hpolyline, bind_of_ok hz]
  rfl

end Pen

namespace Sketch

variable {β γ : Type}

/-- With the answers of a gauge, a sketch played on a recording with this offset ends with a result and
records some texts, whatever else it records. -/
def Records (g : Gauge) (offset : Vec Scalar) (sketch : Sketch Scalar β) (b : β)
    (texts : List TextCall) : Prop :=
  ∀ (base : Nat) (s : Studio Recording Unit Unit) (x : Surface Recording Unit),
    s.surfaces[base]? = some x → x.pen.offset = offset →
      ∃ t y calls, (sketch.answered g).play base s = .ok b t ∧ t.surfaces[base]? = some y ∧
        y.pen.offset = offset ∧ y.content.calls = x.content.calls ++ calls ∧
        calls.filterMap Call.textCall? = texts

namespace Records

variable {g : Gauge} {offset : Vec Scalar}

lemma bind {s : Sketch Scalar β} {f : β → Sketch Scalar γ} {b : β} {c : γ} {texts more : List TextCall}
    (h : Records g offset s b texts) (hnext : Records g offset (f b) c more) :
    Records g offset (s >>= f) c (texts ++ more) := by
  intro base s x hx hoffset
  obtain ⟨t, y, calls, hplay, hy, hoffset, hcalls, htexts⟩ := h base s x hx hoffset
  obtain ⟨u, z, after, hlater, hz, hoffset, hafter, hmore⟩ := hnext base t y hy hoffset
  refine ⟨u, z, calls ++ after, ?_, hz, hoffset, ?_, ?_⟩
  · rw [answered_bind, play_bind, bind_of_ok hplay]
    exact hlater
  · rw [hafter, hcalls, List.append_assoc]
  · rw [List.filterMap_append, htexts, hmore]

/-- A sketch that records no texts before another one. -/
lemma quietly {s : Sketch Scalar β} {f : β → Sketch Scalar γ} {b : β} {c : γ} {texts : List TextCall}
    (h : Records g offset s b []) (hnext : Records g offset (f b) c texts) :
    Records g offset (s >>= f) c texts :=
  h.bind hnext

/-- A sketch that records no texts after another one. -/
lemma ended {s : Sketch Scalar β} {f : β → Sketch Scalar γ} {b : β} {c : γ} {texts : List TextCall}
    (h : Records g offset s b texts) (hnext : Records g offset (f b) c []) :
    Records g offset (s >>= f) c texts := by
  rw [← List.append_nil texts]
  exact h.bind hnext

lemma pure (b : β) : Records g offset (Pure.pure b) b [] :=
  fun _ s x hx hoffset => ⟨s, x, [], rfl, hx, hoffset, (List.append_nil _).symm, rfl⟩

lemma ofExcept {x : Except Fault β} {b : β} (h : x = .ok b) :
    Records g offset (Sketch.ofExcept x) b [] := by
  subst h
  exact pure b

lemma width (t : Text) (font : FontStyle Scalar) :
    Records g offset (Sketch.width t font) (.real (g.width t font)) [] :=
  fun _ s x hx hoffset => ⟨s, x, [], rfl, hx, hoffset, (List.append_nil _).symm, rfl⟩

lemma height (font : FontStyle Scalar) :
    Records g offset (Sketch.height font) (.real (g.height font)) [] :=
  fun _ s x hx hoffset => ⟨s, x, [], rfl, hx, hoffset, (List.append_nil _).symm, rfl⟩

lemma report (notes : List Note) : Records g offset (Sketch.report notes) () [] := by
  induction notes with
  | nil => exact pure ()
  | cons n ns ih =>
    intro base s x hx hoffset
    exact ih base { s with notes := s.notes ++ [n] } x hx hoffset

/-- A command that ends, and the texts of the calls that it adds. -/
lemma of_perform {c : Command Scalar} {texts : List TextCall}
    (h : ∀ (base : Nat) (s : Studio Recording Unit Unit) (x : Surface Recording Unit),
      s.surfaces[base]? = some x → x.pen.offset = offset →
        ∃ t y calls, Studio.perform base 0 c s = .ok () t ∧ t.surfaces[base]? = some y ∧
          y.pen.offset = offset ∧ y.content.calls = x.content.calls ++ calls ∧
          calls.filterMap Call.textCall? = texts) :
    Records g offset (Sketch.draw c) () texts := by
  intro base s x hx hoffset
  obtain ⟨t, y, calls, hperform, hkept⟩ := h base s x hx hoffset
  refine ⟨t, y, calls, ?_, hkept⟩
  rw [Sketch.draw, answered, Studio.play_command, hperform]
  rfl

/-- A command to the pen that comes to an end and leaves the offset as it is. -/
lemma onPen {c : Command Scalar} {action : Action (Pen Scalar) Unit} (hc : c.onPen? = some action)
    (h : ∀ p : Pen Scalar, p.offset = offset → ∃ q, action p = .ok () q ∧ q.offset = p.offset) :
    Records g offset (Sketch.draw c) () [] := by
  refine of_perform fun base s x hx hoffset => ?_
  obtain ⟨q, hq, hkept⟩ := h x.pen hoffset
  refine ⟨s.put base { x with pen := q }, { x with pen := q }, [], ?_, Studio.getElem?_put hx _,
    hkept.trans hoffset, (List.append_nil _).symm, rfl⟩
  have hpen : Surface.onPen action x = .ok () { x with pen := q } := by
    rw [Surface.onPen, hq]
  rw [Studio.perform_onPen hc, Studio.onSurface_apply, Nat.add_zero, hx]
  dsimp only
  rw [hpen]
  rfl

lemma beginPath : Records g offset (Sketch.draw .beginPath) () [] :=
  onPen rfl fun _ _ => ⟨_, rfl, rfl⟩

lemma moveTo {v : Vec Scalar} (h : ∃ u, offset.add v = .ok u) :
    Records g offset (Sketch.draw (.moveTo v)) () [] :=
  onPen rfl fun _ hp => Pen.exists_moveTo (hp ▸ h)

lemma lineTo {v : Vec Scalar} (h : ∃ u, offset.add v = .ok u) :
    Records g offset (Sketch.draw (.lineTo v)) () [] :=
  onPen rfl fun _ hp => Pen.exists_lineTo (hp ▸ h)

lemma rect {x y w h right bottom : Scalar} (hright : Scalar.add x w = .ok right)
    (hbottom : Scalar.add y h = .ok bottom)
    (hcorners : ∀ v ∈ [(⟨x, y⟩ : Vec Scalar), ⟨right, y⟩, ⟨right, bottom⟩, ⟨x, bottom⟩],
      ∃ u, offset.add v = .ok u) :
    Records g offset (Sketch.draw (.rect x y w h)) () [] :=
  onPen rfl fun _ hp => Pen.exists_rect hright hbottom (hp ▸ hcorners)

/-- An operation on the path that adds one call. -/
lemma onPath {c : Command Scalar} (call : List (Subpath Scalar) → Call)
    {action : List (Subpath Scalar) → Action (Canvas Recording Unit) Unit}
    (hc : ∀ base, (Studio.perform base 0 c : Action (Studio Recording Unit Unit) Unit) =
      (Studio.onSurface (base + 0) (Surface.onPen Pen.path) >>= fun path =>
        Studio.onCanvas (base + 0) (action path)))
    (haction : ∀ path, action path = Recording.record (call path))
    (hcall : ∀ path, (call path).textCall? = none) : Records g offset (Sketch.draw c) () [] := by
  refine of_perform fun base s x hx hoffset => ?_
  refine ⟨_, _, [call (Pen.flushed x.pen).finished], ?_, Studio.getElem?_putCanvas hx
    { x with pen := Pen.flushed x.pen } ((), ⟨x.content.calls ++ [_]⟩), hoffset, rfl, ?_⟩
  · rw [hc, Nat.add_zero, Studio.onPath_apply hx, haction]
    rfl
  · rw [List.filterMap_cons_none (hcall _), List.filterMap_nil]

lemma fill {color : Color} (h : color.inRange = true) (alpha : Scalar) :
    Records g offset (Sketch.draw (.fill color alpha)) () [] := by
  obtain ⟨written, hwritten⟩ := (Color.text_isOk_iff color).2 h
  refine onPath (fun path => .fill (Outline.ofPath path) written alpha) (fun _ => rfl)
    (fun path => ?_) fun _ => rfl
  change (Action.ofExcept color.text >>= _) = _
  rw [hwritten, ofExcept_ok_bind]

lemma stroke {color : Color} (h : color.inRange = true) (dash : List Scalar) :
    Records g offset (Sketch.draw (.stroke color dash)) () [] := by
  obtain ⟨written, hwritten⟩ := (Color.text_isOk_iff color).2 h
  refine onPath (fun path => .stroke (Outline.ofPath path) written dash) (fun _ => rfl)
    (fun path => ?_) fun _ => rfl
  change (Action.ofExcept color.text >>= _) = _
  rw [hwritten, ofExcept_ok_bind]

lemma clip : Records g offset (Sketch.draw .clip) () [] :=
  onPath (fun path => .clip (Outline.ofPath path)) (fun _ => rfl) (fun _ => rfl)
    fun _ => rfl

/-- A text is recorded where the offset moves it to, rounded to thousandths. -/
lemma text {color : Color} {written : Text} (hwritten : color.text = .ok written) (t : Text)
    {position moved : Vec Scalar} (hmoved : offset.add position = .ok moved)
    (font : FontStyle Scalar) : Records g offset (Sketch.draw (.text t position font color)) ()
      [⟨t, moved.map Scalar.thousandths, font, written⟩] := by
  refine of_perform fun base s x hx hoffset => ?_
  refine ⟨_, _, [.text t (moved.map Scalar.thousandths) font written], ?_,
    Studio.getElem?_putCanvas hx x ((), ⟨x.content.calls ++ [_]⟩), hoffset, rfl, rfl⟩
  have htext (looked : Except Fault Font) :
      (Medium.text t font color : Lettering Recording Unit).draw (x.pen.offset.add position) looked =
        Recording.record (.text t (moved.map Scalar.thousandths) font written) := by
    rw [hoffset, hmoved]
    change (Action.ofExcept (Except.ok moved) >>= fun position =>
      Action.ofExcept color.text >>= _) = _
    rw [ofExcept_ok_bind, hwritten, ofExcept_ok_bind]
  rw [Studio.perform_text_apply, Nat.add_zero, hx]
  dsimp only
  rw [htext, Studio.onCanvas_apply, hx]
  rfl

end Records

end Sketch

end UmlDrawing
