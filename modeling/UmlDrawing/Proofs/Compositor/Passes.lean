import UmlDrawing.Proofs.Compositor.Growth
import UmlDrawing.Proofs.Compositor.Step
import UmlDrawing.Proofs.Fault

/-! Passes over recordings. A pass fails only where its records cannot be laid out or the drawing of
one of its elements fails. -/
open UmlDrawing.Action

namespace UmlDrawing.Compositor

variable {c : Compositor} {metrics : Metrics} {es : List Element}

/-- The studio that a recording starts from. -/
lemma start_ready (size : Vec Scalar) (metrics : Metrics) :
    ∃ s : Studio Recording Unit Unit, Studio.start size metrics = .ok s ∧ s.metrics = metrics ∧
      Ready [] s :=
  ⟨_, rfl, rfl, _, rfl, rfl, rfl⟩

lemma canvasOf_ready {calls : List Call} {s : Studio Recording Unit Unit} (h : Ready calls s) :
    canvasOf s = .ok ((), ⟨calls⟩) := by
  obtain ⟨x, hx, -, rfl⟩ := h
  rw [canvasOf, hx]
  rfl

lemma render_of_layout {records : List ElementRecord}
    (h : (Layout.ofRecords records).1 = .ok es) (size : Vec Int) (metrics : Metrics) :
    (c.render size metrics records : Pass (Canvas Recording Unit)) =
      drawElements c (grow size es) metrics es (Layout.ofRecords records).2 := by
  unfold render
  split
  · next hrecords =>
    rw [hrecords] at h
    cases h
  · next hrecords =>
    rw [hrecords] at h ⊢
    cases h
    rfl

lemma render_of_layout_error {records : List ElementRecord} {fault : Fault}
    (h : (Layout.ofRecords records).1 = .error fault) (size : Vec Int) (metrics : Metrics) :
    (c.render size metrics records : Pass (Canvas Recording Unit)) =
      ⟨.error fault, size, metrics, (Layout.ofRecords records).2⟩ := by
  unfold render
  split
  · next hrecords =>
    rw [hrecords] at h ⊢
    cases h
    rfl
  · next hrecords =>
    rw [hrecords] at h
    cases h

/-- A pass over elements that can all be drawn, with all metrics that it comes to, records one surface
for each of them, in order. -/
theorem render_eq {keep : Metrics → Prop} {draws : Element → Call → Prop}
    (hdefault : c.registry.contains Element.defaultKind = true) (hkeep : keep metrics)
    (size : Vec Int) {records : List ElementRecord} (hes : (Layout.ofRecords records).1 = .ok es)
    (halone : ∀ e ∈ es, ∀ m, keep m →
      ∃ t, alone c m e = .ok () t ∧ keep t.metrics ∧ draws e (placed c m e)) :
    ∃ calls, (c.render size metrics records : Pass (Canvas Recording Unit)).result =
        .ok ⟨grow size es, es, ((), ⟨calls⟩)⟩ ∧
      List.Forall₂ draws es calls := by
  obtain ⟨s, hs, rfl, hready⟩ := start_ready ((grow size es).map Scalar.whole) metrics
  obtain ⟨t, calls, ht, hcalls, hready⟩ := hready.renderElements hdefault hkeep halone
  rw [List.nil_append] at hready
  refine ⟨calls, ?_, hcalls⟩
  rw [render_of_layout hes, drawElements, hs]
  dsimp only
  rw [ht]
  dsimp only
  rw [canvasOf_ready hready]
  rfl

/-- A pass over elements that can all be drawn, with whatever metrics, records nothing but a surface
for each of them. -/
lemma render_surfaces (hdefault : c.registry.contains Element.defaultKind = true) (size : Vec Int)
    (metrics : Metrics) {records : List ElementRecord}
    (hes : (Layout.ofRecords records).1 = .ok es)
    (halone : ∀ e ∈ es, ∀ m, ∃ t, alone c m e = .ok () t) :
    ∃ calls, (c.render size metrics records : Pass (Canvas Recording Unit)).result =
        .ok ⟨grow size es, es, ((), ⟨calls⟩)⟩ ∧
      es.map (fun _ => "surface".toList) = calls.map Call.name := by
  have hdrawn : ∀ e ∈ es, ∀ m, True → ∃ t, alone c m e = .ok () t ∧ True ∧
      "surface".toList = Call.name (placed c m e) :=
    fun e he m _ => (halone e he m).imp fun t ht => ⟨ht, trivial, rfl⟩
  obtain ⟨calls, hresult, hcalls⟩ := @render_eq c metrics es (fun _ => True)
    (fun _ call => "surface".toList = Call.name call) hdefault trivial size records hes hdrawn
  refine ⟨calls, hresult, ?_⟩
  rw [← List.forall₂_eq_eq_eq, List.forall₂_map_left_iff, List.forall₂_map_right_iff]
  exact hcalls

/-- A pass has a result if and only if its records can be laid out and drawn, where it is up to an
element alone whether its drawing comes to an end. -/
theorem exists_render_iff (hdefault : c.registry.contains Element.defaultKind = true)
    {ends : Element → Prop} (hends : ∀ e m, (∃ t, alone c m e = .ok () t) ↔ ends e) (size : Vec Int)
    (metrics : Metrics) {records : List ElementRecord} :
    (∃ d, (c.render size metrics records : Pass (Canvas Recording Unit)).result = .ok d) ↔
      ∃ es, (Layout.ofRecords records).1 = .ok es ∧ ∀ e ∈ es, ends e := by
  cases hes : (Layout.ofRecords records).1 with
  | error fault =>
    rw [render_of_layout_error hes]
    exact iff_of_false (by rintro ⟨d, hd⟩; cases hd) (by rintro ⟨es, hes, -⟩; cases hes)
  | ok es =>
    by_cases hall : ∀ e ∈ es, ends e
    · obtain ⟨calls, hresult, -⟩ := render_surfaces hdefault size metrics hes
        fun e he m => (hends e m).2 (hall e he)
      exact iff_of_true ⟨_, hresult⟩ ⟨es, rfl, hall⟩
    · obtain ⟨s, hs, -, hready⟩ := start_ready ((grow size es).map Scalar.whole) metrics
      obtain ⟨fault, t, ht⟩ := hready.renderElements_error hdefault hends hall
      rw [render_of_layout hes, drawElements, hs]
      dsimp only
      rw [ht]
      refine iff_of_false (by rintro ⟨d, hd⟩; cases hd) ?_
      rintro ⟨es', hes', hall'⟩
      cases hes'
      exact hall hall'

section Builtin

/-- The compositor with or without outlines. -/
def withOutlines (c : Compositor) (outlines : Bool) : Compositor := { c with outlines := outlines }

/-- The renderers of a mapped registry are those of the original, mapped. -/
lemma exists_of_get?_map {R S : Type} {f : R → S} {g : Registry R} {kind : Text} {s : S}
    (h : (g.map f).get? kind = some s) : ∃ r, s = f r := by
  obtain ⟨entries⟩ := g
  induction entries with
  | nil => cases h
  | cons entry rest ih =>
    obtain ⟨k, r⟩ := entry
    by_cases hk : k = kind
    · refine ⟨r, ?_⟩
      simpa [Registry.get?, Registry.map, Registry.lookup, hk] using h.symm
    · refine ih ?_
      simpa [Registry.get?, Registry.map, Registry.lookup, hk] using h

lemma contains_builtin (config : Config Scalar) (outlines : Bool) :
    ((builtin config).withOutlines outlines).registry.contains Element.defaultKind = true :=
  rfl

end Builtin

end UmlDrawing.Compositor
