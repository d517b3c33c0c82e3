import Mathlib.Data.List.Forall2
import UmlDrawing.Compositor
import UmlDrawing.Proofs.Surface.Hosted
import UmlDrawing.Proofs.Surface.Kept
import UmlDrawing.Surface.Recording

/-! One step of a pass over recordings. What is drawn to the surface of an element is what would be
drawn to an empty surface in a studio of its own, and one call on the first surface places it. -/
open UmlDrawing.Action

namespace UmlDrawing.Compositor

open Studio

/-- A studio with nothing but one surface. -/
def solo (m : Metrics) (x : Surface Recording Unit) : Studio Recording Unit Unit :=
  { shared := (), surfaces := [x], metrics := m }

/-- A studio with nothing but an empty surface with room for a box. -/
def fresh (m : Metrics) (b : Bounds) : Studio Recording Unit Unit :=
  solo m { size := surfaceSize b, content := ⟨[]⟩ }

/-- A studio with one more surface, empty and with room for a box. -/
def extended (s : Studio Recording Unit Unit) (b : Bounds) : Studio Recording Unit Unit :=
  { s with surfaces := s.surfaces ++ [{ size := surfaceSize b, content := ⟨[]⟩ }] }

/-- The calls on the first surface. -/
def callsOf (s : Studio Recording Unit Unit) : List Call :=
  (s.surfaces[0]?.map fun x => x.content.calls).getD []

section Element

variable {Content Shared Saved : Type} [Medium Content Shared Saved]

/-- All that is drawn to the surface of an element. -/
def drawElement (c : Compositor) (renderer : Renderer Scalar) (notes : List Note) (number : Nat)
    (e : Element) : Action (Studio Content Shared Saved) Unit := do
  Studio.perform number 0 (.translate strokeOffset)
  Studio.report notes
  sketchElement c renderer number e
  if c.outlines then outline number e.bounds

/-- An element is drawn to a new surface, which is then placed. -/
lemma renderElement_eq {c : Compositor} {e : Element} {renderer : Renderer Scalar}
    {notes : List Note} (h : c.registry.find e.kind = (.ok renderer, notes))
    (s : Studio Content Shared Saved) :
    renderElement c e s = (do
      Studio.perform 0 0 (.create (surfaceSize e.bounds).x (surfaceSize e.bounds).y)
      drawElement c renderer notes s.surfaces.length e
      Studio.perform 0 0 (.place s.surfaces.length (e.bounds.pos.map Scalar.whole))) s := by
  have hfound :
      (Action.ofExcept (.ok renderer) : Action (Studio Content Shared Saved) _) = pure renderer :=
    rfl
  refine (bind_of_ok (get_apply s)).trans ?_
  simp only [h, drawElement, bind_assoc, hfound, pure_bind]
  cases c.outlines with
  | true => rfl
  | false => simp only [Bool.false_eq_true, if_false, pure_bind]

variable {before : List (Surface Content Saved)} {s t : Studio Content Shared Saved}

lemma sketchElement_alike (c : Compositor) (renderer : Renderer Scalar) (e : Element)
    (h : Hosts before [] 0 s t) :
    Alike (Hosts before [] 0) (sketchElement c renderer before.length e s)
      (sketchElement c renderer 0 e t) := by
  have hsaved : Alike (Hosts before [] 0)
      (saved before.length ((renderer e.localized c.config).play before.length) s)
      (saved 0 ((renderer e.localized c.config).play 0) t) :=
    saved_alike h fun s t h => play_alike _ h (.inl rfl)
  exact hsaved.tryCatch fun _ s t h => .ok () ⟨h.shared, h.surfaces, h.metrics, h.first⟩

lemma outline_alike (b : Bounds) (h : Hosts before [] 0 s t) :
    Alike (Hosts before [] 0) (outline before.length b s) (outline 0 b t) := by
  have hstep (command : Command Scalar) {s t : Studio Content Shared Saved}
      (h : Hosts before [] 0 s t) :
      Alike (Hosts before [] 0) (perform before.length 0 command s) (perform 0 0 command t) :=
    (perform_alike 0 command h (.inl rfl)).mono fun _ _ h => h.weaken (Nat.zero_le _)
  refine (hstep .beginPath h).bind (fun _ s t h => ?_) fun _ _ h => h
  refine (hstep (.rect _ _ _ _) h).bind (fun _ s t h => ?_) fun _ _ h => h
  exact hstep (.stroke outlineColor []) h

/-- What is drawn to the surface of an element does not depend on the surfaces before it. -/
theorem drawElement_alike (c : Compositor) (renderer : Renderer Scalar) (notes notes' : List Note)
    (e : Element) (h : Hosts before [] 0 s t) :
    Alike (Hosts before [] 0) (drawElement c renderer notes before.length e s)
      (drawElement c renderer notes' 0 e t) := by
  refine (perform_alike 0 _ h (.inl rfl)).bind (fun _ s t h => ?_) fun _ _ h => h
  refine Alike.bind (R := Hosts before [] 0)
    (.ok () ⟨h.shared, h.surfaces, h.metrics, h.first⟩) (fun _ s t h => ?_) fun _ _ h => h
  refine (sketchElement_alike c renderer e h).bind (fun _ s t h => ?_) fun _ _ h => h
  split
  · exact outline_alike e.bounds h
  · exact .ok () h

lemma sketchElement_keeps (c : Compositor) (renderer : Renderer Scalar) (number : Nat)
    (e : Element) : Keeps False s (final (sketchElement c renderer number e s)) := by
  have hsaved : Keeps False s
      (final (saved number ((renderer e.localized c.config).play number) s)) :=
    saved_keeps fun s => (play_keeps (Q := fun _ => True) number _).mono False.elim
  rw [sketchElement, tryCatch_apply]
  generalize saved number ((renderer e.localized c.config).play number) s = u at hsaved
  cases u with
  | ok b t => exact hsaved
  | error fault t => exact hsaved.trans (keeps_of_eq rfl)

lemma outline_keeps (number : Nat) (b : Bounds) : Keeps False s (final (outline number b s)) := by
  refine keeps_bind ((perform_keeps _ _ _).mono False.elim) fun _ s => ?_
  refine keeps_bind ((perform_keeps _ _ _).mono False.elim) fun _ s => ?_
  exact (perform_keeps _ _ _).mono False.elim

lemma drawElement_keeps (c : Compositor) (renderer : Renderer Scalar) (notes : List Note)
    (number : Nat) (e : Element) :
    Keeps False s (final (drawElement c renderer notes number e s)) := by
  refine keeps_bind ((perform_keeps _ _ _).mono False.elim) fun _ s => ?_
  refine keeps_bind (keeps_of_eq rfl) fun _ s => ?_
  refine keeps_bind (sketchElement_keeps c renderer number e) fun _ s => ?_
  split
  · exact outline_keeps _ _
  · exact keeps_of_eq rfl

end Element

section Recording

variable {calls : List Call} {s t : Studio Recording Unit Unit}

/-- A studio between two elements: some calls on its first surface, which is where it was. -/
def Ready (calls : List Call) (s : Studio Recording Unit Unit) : Prop :=
  ∃ x, s.surfaces[0]? = some x ∧ x.pen.offset = Vec.origin ∧ x.content.calls = calls

lemma origin_add (v : Vec Int) :
    Vec.origin.add (v.map Scalar.whole) = .ok (v.map Scalar.whole) := by
  obtain ⟨x, y⟩ := v
  have hadd (n : Int) : Arithmetic.add (Arithmetic.ofInt 0) (Scalar.whole n) = .ok (.whole n) := by
    change Scalar.add (.whole 0) (.whole n) = _
    rw [Scalar.add_whole, Int.zero_add]
  simp only [Vec.add, Vec.origin, Vec.map, hadd]
  rfl

lemma Ready.create (h : Ready calls s) (b : Bounds) :
    Studio.perform 0 0 (.create (surfaceSize b).x (surfaceSize b).y) s =
      .ok () (extended s b) := by
  obtain ⟨x, hx, -⟩ := h
  rw [perform_create_apply, Nat.add_zero, hx]
  dsimp only
  rw [create_apply]
  rfl

/-- A studio with a new surface hosts a studio of its own for it. -/
lemma hosts_extended (s : Studio Recording Unit Unit) (b : Bounds) :
    Hosts s.surfaces [] 0 (extended s b) (fresh s.metrics b) where
  shared := rfl
  surfaces := rfl
  metrics := rfl
  first := ⟨_, rfl, .inl rfl⟩

/-- A surface is placed with the calls that were made on it. -/
lemma place_ready {before : List (Surface Recording Unit)} {b : Bounds}
    (hmain : ∃ x, before[0]? = some x ∧ x.pen.offset = Vec.origin ∧ x.content.calls = calls)
    (h : Hosts before [] 0 s t) (hsize : ∃ y, t.surfaces[0]? = some y ∧ y.size = surfaceSize b) :
    ∃ u, Studio.perform 0 0 (.place before.length (b.pos.map Scalar.whole)) s = .ok () u ∧
      u.metrics = t.metrics ∧
      Ready (calls ++ [.surface (b.pos.map Scalar.whole) (surfaceSize b) (callsOf t)]) u := by
  obtain ⟨x, hx, hoffset, rfl⟩ := hmain
  obtain ⟨y, hy, hsize⟩ := hsize
  obtain ⟨hlt, -⟩ := List.getElem?_eq_some_iff.1 hx
  have hfirst : s.surfaces[0]? = some x := by
    rw [h.surfaces, List.getElem?_append_left hlt, hx]
  have hplaced : s.surfaces[before.length]? = some y := by
    have hget := h.getElem? 0
    rw [Nat.add_zero, hy, Option.map_some, Surface.raise_nil] at hget
    exact hget
  have hcalls : callsOf t = y.content.calls := by
    rw [callsOf, hy]
    rfl
  obtain ⟨hlt', -⟩ := List.getElem?_eq_some_iff.1 hfirst
  rw [perform_place_apply, Nat.add_zero, Nat.zero_add, hfirst, hplaced]
  simp only [hoffset, origin_add]
  rw [onCanvas_apply, hfirst]
  refine ⟨_, rfl, h.metrics, _, List.getElem?_set_self hlt', hoffset, ?_⟩
  rw [hcalls, ← hsize]

/-- The renderer of a kind is a registered one. -/
lemma exists_get?_of_find {R : Type} {g : Registry R} {kind : Text} {r : R} {notes : List Note}
    (h : g.find kind = (.ok r, notes)) : ∃ k, g.get? k = some r := by
  unfold Registry.find at h
  split at h
  · next found hfound =>
    cases h
    exact ⟨kind, hfound⟩
  · next hnone =>
    cases hdefault : g.get? Element.defaultKind with
    | none =>
      rw [hdefault] at h
      cases h
    | some found =>
      rw [hdefault] at h
      cases h
      exact ⟨_, hdefault⟩

/-- Every kind has a renderer if there is one to fall back to. -/
lemma exists_find {R : Type} {g : Registry R} (h : g.contains Element.defaultKind = true)
    (kind : Text) : ∃ r notes, g.find kind = (.ok r, notes) := by
  obtain ⟨r, hr⟩ := Option.isSome_iff_exists.1 h
  unfold Registry.find
  split
  · next found _ => exact ⟨found, [], rfl⟩
  · exact ⟨r, [.kindUnknown kind], by rw [hr]; rfl⟩

/-- An element drawn in a studio of its own. -/
def alone (c : Compositor) (m : Metrics) (e : Element) :
    EStateM.Result Fault (Studio Recording Unit Unit) Unit :=
  match (c.registry.find e.kind).1 with
  | .error fault => .error fault (fresh m e.bounds)
  | .ok renderer => drawElement c renderer [] 0 e (fresh m e.bounds)

/-- The call that places the surface of an element with what was drawn on it. -/
def placed (c : Compositor) (m : Metrics) (e : Element) : Call :=
  .surface (e.bounds.pos.map Scalar.whole) (surfaceSize e.bounds) (callsOf (final (alone c m e)))

variable {c : Compositor} {e : Element}

/-- What is drawn to the new surface of an element is what would be drawn to it alone. -/
lemma drawElement_alike_alone {renderer : Renderer Scalar} {notes : List Note}
    (hfind : c.registry.find e.kind = (.ok renderer, notes)) (s : Studio Recording Unit Unit) :
    Alike (Hosts s.surfaces [] 0)
      (drawElement c renderer notes s.surfaces.length e (extended s e.bounds))
      (alone c s.metrics e) := by
  rw [alone, hfind]
  exact drawElement_alike c renderer notes [] e (hosts_extended s e.bounds)

lemma size_alone (c : Compositor) (m : Metrics) (e : Element) :
    ∃ y, (final (alone c m e)).surfaces[0]? = some y ∧ y.size = surfaceSize e.bounds := by
  have hkept : Keeps False (fresh m e.bounds) (final (alone c m e)) := by
    unfold alone
    split
    · exact keeps_of_eq rfl
    · next renderer _ =>
      exact drawElement_keeps (s := fresh m e.bounds) c renderer [] 0 e
  obtain ⟨y, hy, hsize, -⟩ := hkept 0 _ rfl
  exact ⟨y, hy, hsize⟩

/-- If the drawing of an element comes to an end, one call is added: the surface of the element, at
its position, with the calls that were made on it. -/
theorem Ready.renderElement (h : Ready calls s)
    (hdefault : c.registry.contains Element.defaultKind = true)
    (halone : alone c s.metrics e = .ok () t) :
    ∃ u, Compositor.renderElement c e s = .ok () u ∧ u.metrics = t.metrics ∧
      Ready (calls ++ [placed c s.metrics e]) u := by
  obtain ⟨renderer, notes, hfind⟩ := exists_find hdefault e.kind
  have hdrawn := drawElement_alike_alone hfind s
  have hsize := size_alone c s.metrics e
  rw [placed, halone]
  rw [halone] at hdrawn hsize
  cases hresult : drawElement c renderer notes s.surfaces.length e (extended s e.bounds) with
  | error fault v =>
    rw [hresult] at hdrawn
    cases hdrawn
  | ok b v =>
    rw [hresult] at hdrawn
    cases hdrawn with
    | ok b hosts =>
      obtain ⟨u, hplace, hmetrics, hready⟩ := place_ready h hosts hsize
      refine ⟨u, ?_, hmetrics, hready⟩
      rw [renderElement_eq hfind]
      refine (bind_of_ok (h.create e.bounds)).trans ?_
      exact (bind_of_ok hresult).trans hplace

/-- If the drawing of an element fails for good, so does the pass. -/
theorem Ready.renderElement_error (h : Ready calls s)
    (hdefault : c.registry.contains Element.defaultKind = true) {fault : Fault}
    (halone : alone c s.metrics e = .error fault t) :
    ∃ u, Compositor.renderElement c e s = .error fault u := by
  obtain ⟨renderer, notes, hfind⟩ := exists_find hdefault e.kind
  have hdrawn := drawElement_alike_alone hfind s
  rw [halone] at hdrawn
  cases hresult : drawElement c renderer notes s.surfaces.length e (extended s e.bounds) with
  | ok b v =>
    rw [hresult] at hdrawn
    cases hdrawn
  | error fault v =>
    rw [hresult] at hdrawn
    cases hdrawn with
    | error fault hosts =>
      refine ⟨v, ?_⟩
      rw [renderElement_eq hfind]
      refine (bind_of_ok (h.create e.bounds)).trans ?_
      exact bind_of_error hresult

variable {es : List Element}

/-- A pass over elements that can all be drawn, with all metrics that it comes to, adds one call for
each of them, in order. -/
theorem Ready.renderElements {keep : Metrics → Prop} {draws : Element → Call → Prop}
    (h : Ready calls s) (hdefault : c.registry.contains Element.defaultKind = true)
    (hkeep : keep s.metrics)
    (halone : ∀ e ∈ es, ∀ m, keep m →
      ∃ t, alone c m e = .ok () t ∧ keep t.metrics ∧ draws e (placed c m e)) :
    ∃ u more, Compositor.renderElements c es s = .ok () u ∧ List.Forall₂ draws es more ∧
      Ready (calls ++ more) u := by
  induction es generalizing s calls with
  | nil => exact ⟨s, [], rfl, .nil, by simpa using h⟩
  | cons e es ih =>
    obtain ⟨t, ht, hkeep, hdraws⟩ := halone e (by simp) s.metrics hkeep
    obtain ⟨u, hu, hmetrics, hready⟩ := h.renderElement hdefault ht
    obtain ⟨v, more, hv, hmore, hready⟩ :=
      ih hready (hmetrics ▸ hkeep) fun e he => halone e (by simp [he])
    refine ⟨v, placed c s.metrics e :: more, (bind_of_ok hu).trans hv, .cons hdraws hmore, ?_⟩
    simpa using hready

/-- A pass over elements that cannot all be drawn fails. -/
theorem Ready.renderElements_error {ends : Element → Prop} (h : Ready calls s)
    (hdefault : c.registry.contains Element.defaultKind = true)
    (hends : ∀ e m, (∃ t, alone c m e = .ok () t) ↔ ends e) (hnot : ¬ ∀ e ∈ es, ends e) :
    ∃ fault u, Compositor.renderElements c es s = .error fault u := by
  induction es generalizing s calls with
  | nil => exact absurd (by simp) hnot
  | cons e es ih =>
    cases ht : alone c s.metrics e with
    | error fault t =>
      obtain ⟨u, hu⟩ := h.renderElement_error hdefault ht
      exact ⟨fault, u, bind_of_error hu⟩
    | ok b t =>
      obtain ⟨u, hu, -, hready⟩ := h.renderElement hdefault ht
      -- the element that fails is one of the others
      have hrest : ¬ ∀ e ∈ es, ends e := fun hall =>
        hnot (List.forall_mem_cons.2 ⟨(hends e s.metrics).1 ⟨t, ht⟩, hall⟩)
      obtain ⟨fault, v, hv⟩ := ih hready hrest
      exact ⟨fault, v, (bind_of_ok hu).trans hv⟩

end Recording

end UmlDrawing.Compositor
