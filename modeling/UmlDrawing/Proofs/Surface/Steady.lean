import UmlDrawing.Proofs.Surface.Step

/-! What all operations of a medium leave as it is. A property of what a surface holds that no
operation takes away is never lost in a drawing, however the drawing ends. -/
open UmlDrawing.Action

namespace UmlDrawing

variable {Content Shared Saved β : Type}

/-- A property of what a surface holds that no operation takes away. -/
structure Steady (P : Content → Prop) [Medium Content Shared Saved] : Prop where
  restore (saved : Saved) {content : Content} (h : P content) : P (Medium.restore saved content)
  fill (path : List (Subpath Scalar)) (color : Color) (alpha : Scalar) (shared : Shared)
    {content : Content} (h : P content) :
    P (final (Medium.fill path color alpha (shared, content))).2
  stroke (path : List (Subpath Scalar)) (color : Color) (dash : List Scalar) (shared : Shared)
    {content : Content} (h : P content) :
    P (final (Medium.stroke path color dash (shared, content))).2
  clip (path : List (Subpath Scalar)) (shared : Shared) {content : Content} (h : P content) :
    P (final (Medium.clip path (shared, content))).2
  text (text : Text) (position : Except Fault (Vec Scalar)) (font : Except Fault Font)
    (style : FontStyle Scalar) (color : Color) (shared : Shared) {content : Content}
    (h : P content) :
    P (final ((Medium.text text style color).draw position font (shared, content))).2
  place (size : Vec Scalar) (placed : Content) (position : Vec Scalar) (shared : Shared)
    {content : Content} (h : P content) :
    P (final (Medium.place size placed position (shared, content))).2

lemma Steady.popState [Medium Content Shared Saved] {P : Content → Prop}
    (h : Steady P) {x : Surface Content Saved} (hx : P x.content) :
    P x.popState.content := by
  rw [Surface.popState]
  split
  · exact hx
  · exact h.restore _ hx

/-- No operation of the medium takes a steady property away. -/
lemma Steady.paints [Medium Content Shared Saved] {P : Content → Prop} (h : Steady P)
    {s : Studio Content Shared Saved} {action : Action (Canvas Content Shared) Unit}
    (haction : Studio.Paints s action) (shared : Shared) {content : Content} (hp : P content) :
    P (final (action (shared, content))).2 := by
  cases haction with
  | fill path color alpha => exact h.fill path color alpha shared hp
  | stroke path color dash => exact h.stroke path color dash shared hp
  | clip path => exact h.clip path shared hp
  | text text position font style color => exact h.text text position font style color shared hp
  | place hplaced position => exact h.place _ _ position shared hp

namespace Studio

/-- Whether a surface is there and what it holds has a property. -/
def Holds (P : Content → Prop) (i : Nat) (s : Studio Content Shared Saved) : Prop :=
  ∃ x, s.surfaces[i]? = some x ∧ P x.content

variable {P : Content → Prop} {i : Nat} {s t : Studio Content Shared Saved}

lemma Holds.of_eq (h : Holds P i s) (hsurfaces : t.surfaces = s.surfaces) : Holds P i t := by
  obtain ⟨x, hx, hp⟩ := h
  exact ⟨x, by rw [hsurfaces, hx], hp⟩

lemma Holds.set {on : Nat} {x y : Surface Content Saved} (h : Holds P i s)
    (hx : s.surfaces[on]? = some x) (hy : P x.content → P y.content)
    (ht : t.surfaces = s.surfaces.set on y) : Holds P i t := by
  obtain ⟨z, hz, hp⟩ := h
  by_cases hi : on = i
  · subst hi
    obtain rfl := Option.some.inj (hx.symm.trans hz)
    obtain ⟨hlt, -⟩ := List.getElem?_eq_some_iff.1 hx
    exact ⟨y, by rw [ht, List.getElem?_set_self hlt], hy hp⟩
  · exact ⟨z, by rw [ht, List.getElem?_set_ne hi, hz], hp⟩

lemma Holds.bind {x : Action (Studio Content Shared Saved) β}
    {f : β → Action (Studio Content Shared Saved) Unit} (h : Holds P i (final (x s)))
    (hnext : ∀ b t, Holds P i t → Holds P i (final (f b t))) :
    Holds P i (final ((x >>= f) s)) := by
  rw [bind_apply]
  cases hx : x s with
  | ok b t =>
    rw [hx] at h
    exact hnext b t h
  | error fault t =>
    rw [hx] at h
    exact h

lemma Holds.onSurface {action : Action (Surface Content Saved) β} (h : Holds P i s) (on : Nat)
    (haction : ∀ x, P x.content → P (final (action x)).content) :
    Holds P i (final (Studio.onSurface on action s)) := by
  rw [onSurface_apply]
  cases hx : s.surfaces[on]? with
  | none => exact h
  | some x =>
    have hafter := haction x
    dsimp only
    generalize action x = result at hafter
    cases result with
    | ok b y => exact h.set hx hafter rfl
    | error fault y => exact h.set hx hafter rfl

lemma Holds.ask (h : Holds P i s) (question : Metrics → Except Fault β × Metrics) :
    Holds P i (final (Studio.ask question s)) := by
  simp only [Studio.ask]
  cases (question s.metrics).1 with
  | ok b => exact h.of_eq rfl
  | error fault => exact h.of_eq rfl

variable [Medium Content Shared Saved]

lemma Holds.popState (h : Holds P i s) (hsteady : Steady P) (on : Nat) :
    Holds P i (final (Studio.onSurface on (modify Surface.popState) s)) := by
  exact h.onSurface on fun x hx => hsteady.popState hx

/-- A command takes no steady property away. -/
theorem Holds.perform (h : Holds P i s) (hsteady : Steady P) (base on : Nat)
    (c : Command Scalar) : Holds P i (final (Studio.perform base on c s)) := by
  have hmoves := moves_perform base on c s
  generalize final (Studio.perform base on c s) = t at hmoves ⊢
  cases hmoves with
  | idle => exact h
  | pen hx pen =>
    refine h.set hx ?_ rfl
    exact id
  | push _ hx =>
    refine h.set hx ?_ rfl
    exact id
  | pop _ hx => exact h.set hx hsteady.popState rfl
  | paint hx pen haction m =>
    refine h.set hx ?_ rfl
    exact hsteady.paints haction s.shared
  | create =>
    obtain ⟨x, hx, hp⟩ := h
    obtain ⟨hlt, -⟩ := List.getElem?_eq_some_iff.1 hx
    exact ⟨x, (List.getElem?_append_left hlt).trans hx, hp⟩

/-- A sketch takes no steady property away. -/
theorem Holds.play (h : Holds P i s) (hsteady : Steady P) (base : Nat)
    (sketch : Sketch Scalar β) : Holds P i (final (sketch.play base s)) := by
  induction sketch generalizing s with
  | done b => exact h
  | fail fault => exact h
  | note n next ih => exact ih (s := { s with notes := s.notes ++ [n] }) (h.of_eq rfl)
  | command on c next ih =>
    have hstep := h.perform hsteady base on c
    rw [Sketch.play]
    dsimp only
    generalize Studio.perform base on c s = result at hstep
    cases result with
    | ok b t => exact ih _ hstep
    | error fault t => exact ih _ hstep
  | askWidth text font next ih =>
    have hstep : Holds P i (final (Studio.width text font s)) := h.ask _
    rw [Sketch.play]
    dsimp only
    generalize Studio.width text font s = result at hstep
    cases result with
    | ok b t => exact ih _ hstep
    | error fault t => exact ih _ hstep
  | askHeight font next ih =>
    have hstep : Holds P i (final (Studio.height font s)) := h.ask _
    rw [Sketch.play]
    dsimp only
    generalize Studio.height font s = result at hstep
    cases result with
    | ok b t => exact ih _ hstep
    | error fault t => exact ih _ hstep

/-- An action between pushing and popping a state takes away what the action does. -/
lemma Holds.saved {action : Action (Studio Content Shared Saved) β} {on : Nat}
    (h : Holds P i s) (hsteady : Steady P)
    (haction : ∀ t, Holds P i t → Holds P i (final (action t))) :
    Holds P i (final (Studio.saved on action s)) := by
  cases hx : s.surfaces[on]? with
  | none =>
    have hpush : Studio.onSurface on (modify Surface.pushState) s = .error .noSuchSurface s := by
      rw [onSurface_apply, hx]
    have hsaved : Studio.saved on action s = .error .noSuchSurface s := bind_of_error hpush
    rw [hsaved]
    exact h
  | some x =>
    rw [final_saved action hx]
    have hpushed : Holds P i
        { s with surfaces := s.surfaces.set on (Surface.pushState x) } :=
      h.set (y := Surface.pushState x) hx (fun hp => hp) rfl
    exact (haction _ hpushed).popState hsteady on

end Studio

end UmlDrawing
