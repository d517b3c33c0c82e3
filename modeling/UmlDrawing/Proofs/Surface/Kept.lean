import UmlDrawing.Proofs.Surface.Step

/-! What drawing never changes: no surface is removed or gets another size, and its stack of states
stays as it is unless states are pushed or popped. -/
open UmlDrawing.Action

namespace UmlDrawing

variable {Content Shared Saved β : Type}

namespace Surface

/-- A surface after some steps, the stack of states only if it was left alone. -/
def Kept (still : Prop) (x y : Surface Content Saved) : Prop :=
  y.size = x.size ∧ (still → y.stack = x.stack)

variable {still : Prop} {x y z : Surface Content Saved}

lemma Kept.refl (x : Surface Content Saved) : Kept still x x := ⟨rfl, fun _ => rfl⟩

lemma Kept.trans (h : Kept still x y) (h' : Kept still y z) : Kept still x z :=
  ⟨h'.1.trans h.1, fun hstill => (h'.2 hstill).trans (h.2 hstill)⟩

lemma Kept.mono {weak : Prop} (h : Kept still x y) (hmono : weak → still) : Kept weak x y :=
  ⟨h.1, fun hweak => h.2 (hmono hweak)⟩

lemma kept_popState [Medium Content Shared Saved] (x : Surface Content Saved) :
    Kept False x (popState x) := by
  unfold popState
  split
  · exact Kept.refl x
  · exact ⟨rfl, False.elim⟩

end Surface

namespace Studio

open Surface (Kept)

/-- Every surface of a studio is still there in another one. -/
def Keeps (still : Prop) (s t : Studio Content Shared Saved) : Prop :=
  ∀ (i : Nat) (x : Surface Content Saved), s.surfaces[i]? = some x →
    ∃ y, t.surfaces[i]? = some y ∧ Kept still x y

variable {still : Prop} {s t u : Studio Content Shared Saved}

lemma keeps_of_eq (h : t.surfaces = s.surfaces) : Keeps still s t := by
  intro i x hx
  exact ⟨x, h ▸ hx, Kept.refl x⟩

lemma Keeps.trans (h : Keeps still s t) (h' : Keeps still t u) : Keeps still s u := by
  intro i x hx
  obtain ⟨y, hy, hkept⟩ := h i x hx
  obtain ⟨z, hz, hkept'⟩ := h' i y hy
  exact ⟨z, hz, hkept.trans hkept'⟩

lemma Keeps.mono {weak : Prop} (h : Keeps still s t) (hmono : weak → still) : Keeps weak s t := by
  intro i x hx
  obtain ⟨y, hy, hkept⟩ := h i x hx
  exact ⟨y, hy, hkept.mono hmono⟩

lemma keeps_set {on : Nat} {x y : Surface Content Saved} (hx : s.surfaces[on]? = some x)
    (hkept : Kept still x y) (ht : t.surfaces = s.surfaces.set on y) : Keeps still s t := by
  intro i z hz
  by_cases hi : on = i
  · subst hi
    rw [hx] at hz
    cases hz
    obtain ⟨hlt, -⟩ := List.getElem?_eq_some_iff.1 hx
    exact ⟨y, by rw [ht, List.getElem?_set_self hlt], hkept⟩
  · exact ⟨z, by rw [ht, List.getElem?_set_ne hi, hz], Kept.refl z⟩

lemma keeps_bind {x : Action (Studio Content Shared Saved) β}
    {f : β → Action (Studio Content Shared Saved) Unit} (h : Keeps still s (final (x s)))
    (hnext : ∀ b t, Keeps still t (final (f b t))) : Keeps still s (final ((x >>= f) s)) := by
  rw [bind_apply]
  cases hx : x s with
  | ok b t =>
    rw [hx] at h
    exact h.trans (hnext b t)
  | error fault t =>
    rw [hx] at h
    exact h

lemma onSurface_keeps {action : Action (Surface Content Saved) β} (on : Nat)
    (haction : ∀ x, Kept still x (final (action x))) :
    Keeps still s (final (onSurface on action s)) := by
  rw [onSurface_apply]
  cases hx : s.surfaces[on]? with
  | none => exact keeps_of_eq rfl
  | some x =>
    have hkept := haction x
    dsimp only
    cases haction : action x with
    | ok b y =>
      rw [haction] at hkept
      exact keeps_set hx hkept rfl
    | error fault y =>
      rw [haction] at hkept
      exact keeps_set hx hkept rfl

lemma ask_keeps (question : Metrics → Except Fault β × Metrics) :
    Keeps still s (final (ask question s)) := by
  simp only [ask]
  cases (question s.metrics).1 with
  | ok b => exact keeps_of_eq rfl
  | error fault => exact keeps_of_eq rfl

variable [Medium Content Shared Saved]

/-- A command keeps all surfaces. -/
theorem perform_keeps (base on : Nat) (c : Command Scalar) :
    Keeps (c.movesStates = false) s (final (perform base on c s)) := by
  have hmoves := moves_perform base on c s
  generalize final (perform base on c s) = t at hmoves ⊢
  cases hmoves with
  | idle => exact keeps_of_eq rfl
  | pen hx pen =>
    refine keeps_set hx ?_ rfl
    exact ⟨rfl, fun _ => rfl⟩
  | push hstates hx =>
    refine keeps_set hx ?_ rfl
    refine ⟨rfl, fun hstill => ?_⟩
    cases hstill.symm.trans hstates
  | pop hstates hx =>
    refine keeps_set hx ((Surface.kept_popState _).mono fun hstill => ?_) rfl
    cases hstill.symm.trans hstates
  | paint hx pen haction m =>
    refine keeps_set hx ?_ rfl
    exact ⟨rfl, fun _ => rfl⟩
  | create =>
    intro i x hx
    obtain ⟨hlt, -⟩ := List.getElem?_eq_some_iff.1 hx
    exact ⟨x, (List.getElem?_append_left hlt).trans hx, Kept.refl x⟩

/-- A sketch keeps all surfaces. -/
theorem play_keeps {Q : FontStyle Scalar → Prop} (base : Nat) (sketch : Sketch Scalar β) :
    Keeps (sketch.All (fun c => c.movesStates = false) Q) s (final (sketch.play base s)) := by
  induction sketch generalizing s with
  | done b => exact keeps_of_eq rfl
  | fail fault => exact keeps_of_eq rfl
  | note n next ih =>
    exact Keeps.trans (t := { s with notes := s.notes ++ [n] }) (keeps_of_eq rfl) ih
  | command on c next ih =>
    have hstep := perform_keeps base on c (s := s)
    rw [Sketch.play]
    dsimp only
    cases hresult : perform base on c s with
    | ok b t =>
      rw [hresult] at hstep
      exact (hstep.mono fun h => h.2.1).trans ((ih (.ok ())).mono fun h => h.2.2 _)
    | error fault t =>
      rw [hresult] at hstep
      exact (hstep.mono fun h => h.2.1).trans ((ih (.error fault)).mono fun h => h.2.2 _)
  | askWidth text font next ih =>
    have hstep : Keeps True s (final (width text font s)) := ask_keeps _
    rw [Sketch.play]
    dsimp only
    cases hresult : width text font s with
    | ok b t =>
      rw [hresult] at hstep
      exact (hstep.mono fun _ => trivial).trans ((ih _).mono fun h => h.2 _)
    | error fault t =>
      rw [hresult] at hstep
      exact (hstep.mono fun _ => trivial).trans ((ih _).mono fun h => h.2 _)
  | askHeight font next ih =>
    have hstep : Keeps True s (final (height font s)) := ask_keeps _
    rw [Sketch.play]
    dsimp only
    cases hresult : height font s with
    | ok b t =>
      rw [hresult] at hstep
      exact (hstep.mono fun _ => trivial).trans ((ih _).mono fun h => h.2 _)
    | error fault t =>
      rw [hresult] at hstep
      exact (hstep.mono fun _ => trivial).trans ((ih _).mono fun h => h.2 _)

/-- An action between pushing and popping a state keeps what the action keeps. -/
lemma saved_keeps {on : Nat} {action : Action (Studio Content Shared Saved) β}
    (haction : ∀ s, Keeps False s (final (action s))) :
    Keeps False s (final (saved on action s)) := by
  cases hx : s.surfaces[on]? with
  | none =>
    have hpush : onSurface on (modify Surface.pushState) s = .error .noSuchSurface s := by
      rw [onSurface_apply, hx]
    have hsaved : saved on action s = .error .noSuchSurface s := bind_of_error hpush
    rw [hsaved]
    exact keeps_of_eq rfl
  | some x =>
    have hpush : Keeps False s { s with surfaces := s.surfaces.set on (Surface.pushState x) } :=
      keeps_set (y := Surface.pushState x) hx ⟨rfl, False.elim⟩ rfl
    rw [final_saved action hx]
    refine hpush.trans ?_
    refine (haction _).trans ?_
    exact onSurface_keeps on Surface.kept_popState

/-- After a sketch that leaves the states alone, the state that was pushed before it is the one that
is popped. -/
theorem saved_restores {Q : FontStyle Scalar → Prop} {on : Nat} {sketch : Sketch Scalar β}
    (hsketch : sketch.All (fun c => c.movesStates = false) Q) {x : Surface Content Saved}
    (hx : s.surfaces[on]? = some x) :
    ∃ y, (final (saved on (sketch.play on) s)).surfaces[on]? = some y ∧
      y.pen.offset = x.pen.offset ∧ y.stack = x.stack := by
  obtain ⟨hlt, -⟩ := List.getElem?_eq_some_iff.1 hx
  have hkept := play_keeps on sketch (Q := Q)
    (s := { s with surfaces := s.surfaces.set on (Surface.pushState x) })
  obtain ⟨y, hy, -, hstack⟩ := hkept on (Surface.pushState x) (List.getElem?_set_self hlt)
  obtain ⟨hlt', -⟩ := List.getElem?_eq_some_iff.1 hy
  have hpop : (Surface.popState y).pen.offset = x.pen.offset ∧
      (Surface.popState y).stack = x.stack := by
    rw [Surface.popState, hstack hsketch]
    exact ⟨rfl, rfl⟩
  rw [final_saved _ hx, onSurface_apply, hy]
  exact ⟨_, List.getElem?_set_self hlt', hpop⟩

end Studio

end UmlDrawing
