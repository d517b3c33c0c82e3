import UmlDrawing.Proofs.Surface.Stamps

/-! Drawings that are the same but for one surface and for what their surfaces share. Commands to the
other surfaces are carried out in the one as they are in the other, as long as the operations of the
medium are. -/
open UmlDrawing.Action

namespace UmlDrawing

variable {Content Shared Saved : Type} {R : Shared → Shared → Prop} {content : Content}

/-- An operation that ends on a content ends in the same way beside every related share. -/
def Carried (R : Shared → Shared → Prop) (action : Action (Canvas Content Shared) Unit)
    (content : Content) : Prop :=
  ∀ {p q : Shared} {a : Canvas Content Shared}, R p q → action (p, content) = .ok () a →
    ∃ b, action (q, content) = .ok () b ∧ R a.1 b.1 ∧ a.2 = b.2

lemma carried_pure : Carried R (pure ()) content := by
  intro p q a h ha
  cases ha
  exact ⟨_, rfl, h, rfl⟩

/-- An operation after a computation without state. -/
lemma carried_ofExcept_bind {α : Type} {x : Except Fault α}
    {f : α → Action (Canvas Content Shared) Unit} (hnext : ∀ a, Carried R (f a) content) :
    Carried R (Action.ofExcept x >>= f) content := by
  intro p q a h ha
  obtain ⟨b, hb, ha⟩ := ofExcept_bind_eq_ok_iff.1 ha
  obtain ⟨c, hc, hrelated⟩ := hnext b h ha
  exact ⟨c, ofExcept_bind_eq_ok_iff.2 ⟨b, hb, hc⟩, hrelated⟩

/-- New surfaces, operations on some contents, and placings of some, that end in the same way beside
related shares. -/
structure Carries [Medium Content Shared Saved] (R : Shared → Shared → Prop)
    (Drawn Placed : Content → Prop) : Prop where
  create (size : Vec Scalar) {p q : Shared} (h : R p q) {a : Canvas Content Shared}
    (ha : Medium.create size p = .ok a) :
    ∃ b, Medium.create size q = .ok b ∧ R a.1 b.1 ∧ a.2 = b.2
  fill (path : List (Subpath Scalar)) (color : Color) (alpha : Scalar) {content : Content}
    (h : Drawn content) : Carried R (Medium.fill path color alpha) content
  stroke (path : List (Subpath Scalar)) (color : Color) (dash : List Scalar) {content : Content}
    (h : Drawn content) : Carried R (Medium.stroke path color dash) content
  clip (path : List (Subpath Scalar)) {content : Content} (h : Drawn content) :
    Carried R (Medium.clip path) content
  text (text : Text) (position : Except Fault (Vec Scalar)) (font : Except Fault Font)
    (style : FontStyle Scalar) (color : Color) {content : Content} (h : Drawn content) :
    Carried R ((Medium.text text style color).draw position font) content
  place (size : Vec Scalar) {placed : Content} (hplaced : Placed placed) (position : Vec Scalar)
    {content : Content} (h : Drawn content) : Carried R (Medium.place size placed position) content

namespace Studio

/-- A drawing with the same surfaces as another one, except for one surface, and related shares. -/
structure Alongside (R : Shared → Shared → Prop) (target : Nat)
    (s t : Studio Content Shared Saved) : Prop where
  shared : R s.shared t.shared
  metrics : t.metrics = s.metrics
  length : t.surfaces.length = s.surfaces.length
  same {i : Nat} (hi : i ≠ target) : t.surfaces[i]? = s.surfaces[i]?

namespace Alongside

variable {s s' t : Studio Content Shared Saved} {target on : Nat} {x : Surface Content Saved}
  {c : Command Scalar} {Drawn Placed : Content → Prop}

lemma set (h : Alongside R target s t) (y : Surface Content Saved) {p q : Shared}
    (hpq : R p q) (on : Nat) :
    Alongside R target { s with shared := p, surfaces := s.surfaces.set on y }
      { t with shared := q, surfaces := t.surfaces.set on y } where
  shared := hpq
  metrics := h.metrics
  length := by rw [List.length_set, List.length_set, h.length]
  same {i} hi := by
    rw [List.getElem?_set, List.getElem?_set, h.same hi, h.length]

lemma onSurface (h : Alongside R target s t) (hon : on ≠ target) {β : Type}
    {action : Action (Surface Content Saved) β} {b : β}
    (hs : Studio.onSurface on action s = .ok b s') :
    ∃ t', Studio.onSurface on action t = .ok b t' ∧ Alongside R target s' t' := by
  rw [onSurface_apply] at hs ⊢
  rw [h.same hon]
  cases hx : s.surfaces[on]? with
  | none => simp [hx] at hs
  | some x =>
    simp only [hx] at hs ⊢
    cases haction : action x with
    | error fault y => simp [haction] at hs
    | ok b' y =>
      simp only [haction] at hs ⊢
      cases hs
      exact ⟨_, rfl, h.set y h.shared on⟩

lemma onCanvas (h : Alongside R target s t) (hx : s.surfaces[on]? = some x) (hon : on ≠ target)
    {action : Action (Canvas Content Shared) Unit} (haction : Carried R action x.content)
    (hs : Studio.onCanvas on action s = .ok () s') :
    ∃ t', Studio.onCanvas on action t = .ok () t' ∧ Alongside R target s' t' := by
  rw [onCanvas_apply] at hs ⊢
  rw [h.same hon, hx]
  simp only [hx] at hs ⊢
  cases ha : action (s.shared, x.content) with
  | error fault a => simp [ha] at hs
  | ok _ a =>
    simp only [ha] at hs
    cases hs
    obtain ⟨b, hb, hshared, hcontent⟩ := haction h.shared ha
    simp only [hb, hcontent]
    exact ⟨_, rfl, h.set _ hshared on⟩

/-- An operation of the medium after the path was read. -/
lemma onPath (h : Alongside R target s t) (hx : s.surfaces[on]? = some x) (hon : on ≠ target)
    {action : List (Subpath Scalar) → Action (Canvas Content Shared) Unit}
    (haction : ∀ path, Carried R (action path) x.content)
    (hs : (Studio.onSurface on (Surface.onPen Pen.path) >>= fun path =>
      Studio.onCanvas on (action path)) s = .ok () s') :
    ∃ t', (Studio.onSurface on (Surface.onPen Pen.path) >>= fun path =>
      Studio.onCanvas on (action path)) t = .ok () t' ∧ Alongside R target s' t' := by
  rw [onPath_apply hx] at hs
  rw [onPath_apply ((h.same hon).trans hx)]
  cases ha : action (Pen.flushed x.pen).finished (s.shared, x.content) with
  | error fault a => simp [ha] at hs
  | ok _ a =>
    simp only [ha] at hs
    cases hs
    obtain ⟨b, hb, hshared, hcontent⟩ := haction _ h.shared ha
    simp only [hb]
    refine ⟨_, rfl, ?_⟩
    have hset := h.set { x with pen := Pen.flushed x.pen, content := a.2 } hshared on
    rw [putCanvas, putCanvas, ← hcontent]
    exact hset

variable [Medium Content Shared Saved]

lemma create (hcarries : Carries R Drawn Placed) (h : Alongside R target s t) (size : Vec Scalar)
    (hs : Studio.create size s = .ok () s') :
    ∃ t', Studio.create size t = .ok () t' ∧ Alongside R target s' t' := by
  rw [create_apply] at hs ⊢
  cases ha : (Medium.create size s.shared : Except Fault (Canvas Content Shared)) with
  | error fault => simp [ha] at hs
  | ok a =>
    simp only [ha] at hs
    cases hs
    obtain ⟨b, hb, hshared, hcontent⟩ := hcarries.create size h.shared ha
    simp only [hb, hcontent]
    refine ⟨_, rfl, hshared, h.metrics, ?_, fun {i} hi => ?_⟩
    · simp only [List.length_append, h.length]
    · simp only [List.getElem?_append, h.length, h.same hi]

/-- A command to another surface that is carried out in the one drawing is carried out in the
other. -/
theorem perform (hcarries : Carries R Drawn Placed) (h : Alongside R target s t)
    (hx : s.surfaces[on]? = some x) (hon : on ≠ target) (hdrawn : Drawn x.content)
    (hplaced : ∀ n ∈ c.placed?, n ≠ target ∧ ∀ z, s.surfaces[n]? = some z → Placed z.content)
    (hs : Studio.perform 0 on c s = .ok () s') :
    ∃ t', Studio.perform 0 on c t = .ok () t' ∧ Alongside R target s' t' := by
  have hxt : t.surfaces[on]? = some x := (h.same hon).trans hx
  cases c with
  | pushState =>
    rw [perform_pushState, Nat.zero_add] at hs ⊢
    exact h.onSurface hon hs
  | popState =>
    rw [perform_popState, Nat.zero_add] at hs ⊢
    exact h.onSurface hon hs
  | fill color alpha =>
    rw [perform_fill, Nat.zero_add] at hs ⊢
    exact h.onPath hx hon (fun path => hcarries.fill path color alpha hdrawn) hs
  | stroke color dash =>
    rw [perform_stroke, Nat.zero_add] at hs ⊢
    exact h.onPath hx hon (fun path => hcarries.stroke path color dash hdrawn) hs
  | clip =>
    rw [perform_clip, Nat.zero_add] at hs ⊢
    exact h.onPath hx hon (fun path => hcarries.clip path hdrawn) hs
  | text text position font color =>
    rw [perform_text_apply, Nat.zero_add, hx] at hs
    rw [perform_text_apply, Nat.zero_add, hxt, h.metrics]
    dsimp only at hs ⊢
    have hlooked (m : Metrics) : Alongside R target { s with metrics := m } { t with metrics := m } :=
      ⟨h.shared, rfl, h.length, h.same⟩
    generalize Lettering.metricsAfter _ _ font s.metrics = m at hs ⊢
    exact (hlooked m).onCanvas hx hon (hcarries.text text _ _ font color hdrawn) hs
  | create w l =>
    rw [perform_create_apply, Nat.zero_add, hx] at hs
    rw [perform_create_apply, Nat.zero_add, hxt]
    exact h.create hcarries ⟨w, l⟩ hs
  | place number position =>
    obtain ⟨hnumber, hcontent⟩ := hplaced number rfl
    rw [perform_place_apply, Nat.zero_add, Nat.zero_add, hx] at hs
    rw [perform_place_apply, Nat.zero_add, Nat.zero_add, hxt, h.same hnumber]
    cases hz : s.surfaces[number]? with
    | none => simp [hz] at hs
    | some z =>
      simp only [hz] at hs ⊢
      cases hcorner : x.pen.offset.add position with
      | error fault => simp [hcorner] at hs
      | ok corner =>
        simp only [hcorner] at hs ⊢
        exact h.onCanvas hx hon (hcarries.place z.size (hcontent z hz) corner hdrawn) hs
  | _ =>
    rw [perform_onPen rfl, Nat.zero_add] at hs ⊢
    exact h.onSurface hon hs

end Alongside

end Studio

end UmlDrawing
