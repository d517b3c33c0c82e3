import UmlDrawing.Proofs.Compositor.Alone
import UmlDrawing.Proofs.Compositor.Passes
import UmlDrawing.Proofs.Compositor.Sharing

/-! Compositing is local. A recorded pass is one surface for every element, in drawing order, and
what the surface holds depends on the element alone, moved to the origin. -/
open UmlDrawing.Action

namespace UmlDrawing.Compositor

open Studio

/-- What an action draws to an empty surface with room for a box, once lines are put on pixels. -/
def logOf (m : Metrics) (b : Bounds) (action : Action (Studio Recording Unit Unit) Unit) :
    List Call :=
  callsOf (final ((do
    Studio.perform 0 0 (.translate strokeOffset)
    action) (fresh m b)))

/-- What is drawn of an element, up to where its drawing fails. It is drawn with its corner at the
origin by the renderer of its kind, between pushing and popping the state of its surface. -/
def elementLog (c : Compositor) (m : Metrics) (e : Element) : List Call :=
  match (c.registry.find e.kind).1 with
  | .error _ => []
  | .ok renderer => logOf m e.bounds (Studio.saved 0 ((renderer e.localized c.config).play 0))

variable {c : Compositor} {e : Element}

lemma logOf_eq (m : Metrics) (b : Bounds) (action : Action (Studio Recording Unit Unit) Unit) :
    logOf m b action = callsOf (final (action (solo m (blank b)))) := by
  rw [logOf, bind_of_ok (translate_fresh m b)]

/-- Without outlines the drawing of an element comes to an end and leaves what its renderer drew. -/
lemma alone_eq_ok (m : Metrics) (hdefault : c.registry.contains Element.defaultKind = true)
    (houtlines : c.outlines = false) (e : Element) :
    ∃ t, alone c m e = .ok () t ∧ callsOf t = c.elementLog m e := by
  obtain ⟨renderer, notes, hfind⟩ := exists_find hdefault e.kind
  rw [alone, elementLog, hfind]
  dsimp only
  rw [logOf_eq, drawElement_fresh, houtlines]
  obtain ⟨t, ht, hsurfaces⟩ := sketchElement_eq_ok c renderer 0 e (solo m (blank e.bounds))
  refine ⟨t, bind_of_ok ht, ?_⟩
  rw [callsOf, callsOf, hsurfaces]

/-- Popping a state takes nothing back that was recorded. -/
lemma callsOf_popState (s : Studio Recording Unit Unit) :
    callsOf (final (onSurface 0 (modify Surface.popState) s)) = callsOf s := by
  rw [onSurface_apply]
  cases hx : s.surfaces[0]? with
  | none => rfl
  | some x =>
    obtain ⟨hlt, -⟩ := List.getElem?_eq_some_iff.1 hx
    have hcalls : (Surface.popState x).content = x.content := by
      unfold Surface.popState
      split <;> rfl
    simp only [modify_apply, final, callsOf, List.getElem?_set_self hlt, hx, Option.map_some,
      hcalls]

/-- States that were pushed below others are not recorded. -/
lemma callsOf_of_hosts {extra : List (Vec Scalar × Unit)} {depth : Nat}
    {s t : Studio Recording Unit Unit} (h : Hosts [] extra depth s t) : callsOf s = callsOf t := by
  have hget := h.getElem? 0
  rw [List.length_nil, Nat.zero_add] at hget
  rw [callsOf, callsOf, hget]
  cases t.surfaces[0]? with
  | none => rfl
  | some x => simp only [Option.map_some, Surface.raise_content]

/-- A renderer that pops only states that it pushed draws the same without a state to go back to. -/
theorem elementLog_eq_logOf (m : Metrics) {renderer : Renderer Scalar}
    (hfind : (c.registry.find e.kind).1 = .ok renderer)
    (hpops : (renderer e.localized c.config).PopsOwn 0) :
    c.elementLog m e = logOf m e.bounds ((renderer e.localized c.config).play 0) := by
  -- the state that is pushed before the renderer lies below all that it pushes
  have hhosts : Hosts [] [(strokeOffset, ())] 0
      (solo m (blank e.bounds).pushState)
      (solo m (blank e.bounds)) :=
    ⟨rfl, rfl, rfl, _, rfl, .inr (Nat.zero_le _)⟩
  have hplayed := (play_alike (renderer e.localized c.config) hhosts (.inr hpops)).final
  rw [elementLog, hfind]
  dsimp only
  rw [logOf_eq, logOf_eq, final_saved _ (surface_solo _ _), callsOf_popState]
  exact callsOf_of_hosts hplayed

section Reliable

variable {library : FontLibrary} {m n : Metrics} (hlibrary : library.Uniform)

include hlibrary

/-- What is drawn of an element does not depend on what the metrics remember. -/
lemma elementLog_of_reliable (hm : m.Reliable library) (hn : n.Reliable library) (c : Compositor)
    (e : Element) : c.elementLog m e = c.elementLog n e := by
  unfold elementLog
  split
  · rfl
  · next renderer _ =>
    have hsolo : Twins (Metrics.BothReliable library) (solo m (blank e.bounds)) (solo n (blank e.bounds)) :=
      .intro (s := solo m (blank e.bounds)) ⟨hm, hn⟩
    have hdrawn := (hsolo.saved 0 fun _ _ h =>
      h.play (Metrics.agreement_reliable hlibrary) 0 (renderer e.localized c.config)).final
    rw [logOf_eq, logOf_eq]
    generalize final (Studio.saved 0 _ (solo n _)) = t at hdrawn ⊢
    obtain ⟨_⟩ := hdrawn
    rfl

lemma alone_reliable (hm : m.Reliable library) (c : Compositor) (e : Element) :
    (final (alone c m e)).metrics.Reliable library := by
  unfold alone
  split
  · exact hm
  · next renderer _ =>
    have hdrawn := drawElement_twins (c := c) (Metrics.agreement_reliable hlibrary)
      (twins_reliable (s := fresh m e.bounds) hm) renderer [] 0 e
    exact hdrawn.final.metrics.1

lemma history_reliable (hm : m.Reliable library) (c : Compositor)
    (passes : List (List ElementRecord)) :
    (history Recording c m passes).2.Reliable library := by
  induction passes using List.reverseRecOn with
  | nil => exact hm
  | append_singleton passes records ih =>
    rw [history, List.foldl_append]
    exact render_reliable hlibrary ih c _ records

end Reliable

/-- Compositing is local. Whatever was composited before, by the compositor itself or by others, a
pass records one surface for every element in drawing order: at its position, with room for its size,
and with what its renderer draws of it at the origin. Where the element lies makes no difference. The
renderer is as if alone, if it leaves the states alone that others pushed; else it may go back to the
state of its surface before it. -/
theorem render_eq_elementLogs {library : FontLibrary} (hlibrary : library.Uniform)
    {stock : FontStock} (hstock : stock.Holds library)
    (hdefault : c.registry.contains Element.defaultKind = true) (houtlines : c.outlines = false)
    (earlier : List (List ElementRecord)) {records : List ElementRecord} {es : List Element}
    (hlayout : (Layout.ofRecords records).1 = .ok es) :
    let new : Metrics := { installed := library }
    let former := history Recording c { toFontStock := stock } earlier
    (c.render former.1 former.2 records : Pass (Canvas Recording Unit)).result =
      .ok ⟨grow former.1 es, es, ((), ⟨es.map fun e =>
        .surface (e.bounds.pos.map Scalar.whole) (surfaceSize e.bounds) (c.elementLog new e)⟩)⟩ ∧
    (∀ (e : Element) (x y : Int),
      c.elementLog new { e with bounds := { e.bounds with x := x, y := y } } =
        c.elementLog new e) ∧
    ∀ (e : Element) (renderer : Renderer Scalar), (c.registry.find e.kind).1 = .ok renderer →
      (renderer e.localized c.config).PopsOwn 0 →
      c.elementLog new e = logOf new e.bounds ((renderer e.localized c.config).play 0) := by
  intro new former
  have hnew : new.Reliable library := Metrics.reliable_new (FontStock.holds_new library)
  have hformer : former.2.Reliable library :=
    history_reliable hlibrary (Metrics.reliable_new hstock) c earlier
  refine ⟨?_, fun e x y => rfl, fun e renderer hfind => elementLog_eq_logOf new hfind⟩
  have hdrawn : ∀ e ∈ es, ∀ m : Metrics, m.Reliable library →
      ∃ t, alone c m e = .ok () t ∧ t.metrics.Reliable library ∧
        .surface (e.bounds.pos.map Scalar.whole) (surfaceSize e.bounds) (c.elementLog new e) =
          placed c m e := by
    intro e _ m hm
    obtain ⟨t, ht, hlog⟩ := alone_eq_ok m hdefault houtlines e
    have hreliable := alone_reliable hlibrary hm c e
    rw [ht] at hreliable
    refine ⟨t, ht, hreliable, ?_⟩
    rw [placed, ht, elementLog_of_reliable hlibrary hnew hm, ← hlog]
    rfl
  obtain ⟨calls, hresult, hcalls⟩ := render_eq hdefault hformer former.1 hlayout hdrawn
  have hsurfaces : es.map (fun e => Call.surface (e.bounds.pos.map Scalar.whole)
      (surfaceSize e.bounds) (c.elementLog new e)) = calls := by
    rw [← List.forall₂_eq_eq_eq, List.forall₂_map_left_iff]
    exact hcalls
  rw [hresult, hsurfaces]

/-- A box of the standard kind and a class above it, the second pass over the box. -/
theorem render_eq_elementLogs_two_boxes :
    let c := builtin .standard
    let new : Metrics := { installed := Metrics.standardFonts }
    let wide : ElementRecord :=
      { id := "UMLClass".toList, coordinates := ⟨.number 50, .number 10, .number 100, .number 20⟩,
        panel := "Top\nlayer=1".toList }
    let narrow : ElementRecord :=
      { coordinates := ⟨.number 0, .number 0, .number 9, .number (-4)⟩, panel := "Below".toList }
    let top : Element :=
      { kind := "UMLClass".toList, bounds := ⟨50, 10, 100, 20⟩, layer := 1,
        lines := ["Top".toList], properties := [("layer".toList, "1".toList)] }
    let below : Element :=
      { kind := Element.defaultKind, bounds := ⟨0, 0, 9, 0⟩, lines := ["Below".toList] }
    let former := history Recording c new [[narrow]]
    (c.render former.1 former.2 [wide, narrow] : Pass (Canvas Recording Unit)).result =
      .ok ⟨grow former.1 [below, top], [below, top],
        ((), ⟨[.surface ⟨.whole 0, .whole 0⟩ ⟨.whole 10, .whole 1⟩ (c.elementLog new below),
          .surface ⟨.whole 50, .whole 10⟩ ⟨.whole 101, .whole 21⟩ (c.elementLog new top)]⟩)⟩ := by
  intro c new wide narrow top below former
  have hbuild : (Layout.build [wide, narrow]).1 = .ok [top, below] := by rfl
  have hsort : Layout.sort [top, below] = [below, top] := by
    rw [Layout.sort]
    simp [top, below, List.mergeSort, List.MergeSort.Internal.splitInTwo]
  have hlayout : (Layout.ofRecords [wide, narrow]).1 = .ok [below, top] := by
    rw [← hsort]
    exact congrArg (Except.map Layout.sort) hbuild
  exact (render_eq_elementLogs (FontLibrary.uniform_inDoubles _)
    (FontStock.holds_new Metrics.standardFonts) rfl rfl [[narrow]] hlayout).1

end UmlDrawing.Compositor
