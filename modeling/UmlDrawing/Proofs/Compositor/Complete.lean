import UmlDrawing.Proofs.Color.Range
import UmlDrawing.Proofs.Compositor.Alone
import UmlDrawing.Proofs.Compositor.Passes
import UmlDrawing.Proofs.Element.Layout
import UmlDrawing.Proofs.Path.Pen
import UmlDrawing.Proofs.Renderer.Confined

/-! When a pass with the built-in renderers has a result. A renderer that fails takes no other
element with it, but the layers are read before anything is drawn, and outlines are drawn
unguarded. -/
open UmlDrawing.Action

namespace UmlDrawing

/-- Whether the size of a box can be measured in doubles. -/
def Bounds.Measurable (b : Bounds) : Prop :=
  (∃ x, Binary64.ofInt? b.w = some x) ∧ ∃ y, Binary64.ofInt? b.h = some y

namespace Compositor

open Studio

section Outline

lemma exists_add_iff (x : Float) (n : Int) :
    (∃ v, Scalar.add (.real x) (.whole n) = .ok v) ↔ ∃ y, Binary64.ofInt? n = some y := by
  cases h : Binary64.ofInt? n with
  | none => simp [Scalar.add, Scalar.lift, Scalar.toFloat, h, orFault, bind, Except.bind]
  | some y =>
    simp [Scalar.add, Scalar.lift, Scalar.toFloat, h, orFault, bind, Except.bind, pure, Except.pure]

lemma exists_located_iff (m n : Int) :
    (∃ u, strokeOffset.add ⟨.whole m, .whole n⟩ = .ok u) ↔
      (∃ x, Binary64.ofInt? m = some x) ∧ ∃ y, Binary64.ofInt? n = some y := by
  rw [← exists_add_iff 0.5 m, ← exists_add_iff 0.5 n]
  simp only [Vec.add, bind_eq_ok_iff, pure_eq_ok_iff]
  constructor
  · rintro ⟨u, x, hx, y, hy, -⟩
    exact ⟨⟨x, hx⟩, y, hy⟩
  · rintro ⟨⟨x, hx⟩, y, hy⟩
    exact ⟨⟨x, y⟩, x, hx, y, hy, rfl⟩

/-- The outline of a box can be built if and only if the size of the box can be measured. -/
lemma exists_rect_iff {b : Bounds} {p : Pen Scalar} (hp : p.offset = strokeOffset) :
    (∃ q, Pen.rect (.whole 0) (.whole 0) (.whole b.w) (.whole b.h) p = .ok () q) ↔
      b.Measurable := by
  have hzero : ∃ x, Binary64.ofInt? 0 = some x := ⟨0.0, Binary64.ofInt?_zero⟩
  rw [Pen.exists_rect_iff (Scalar.add_whole 0 b.w) (Scalar.add_whole 0 b.h), hp]
  simp only [List.forall_mem_cons, exists_located_iff, Int.zero_add, Bounds.Measurable]
  constructor
  · rintro ⟨-, -, h, -⟩
    exact h
  · intro h
    exact ⟨⟨hzero, hzero⟩, ⟨h.1, hzero⟩, h, ⟨hzero, h.2⟩, fun v hv => (by cases hv)⟩

lemma exists_onPen_iff {t : Studio Recording Unit Unit} {x : Surface Recording Unit} {on : Nat}
    (hx : t.surfaces[on]? = some x) (action : Action (Pen Scalar) Unit) :
    (∃ u, onSurface on (Surface.onPen action) t = .ok () u) ↔ ∃ p, action x.pen = .ok () p := by
  rw [onSurface_apply, hx]
  simp only [Surface.onPen]
  cases action x.pen with
  | ok a p => exact iff_of_true ⟨_, rfl⟩ ⟨p, rfl⟩
  | error fault p => exact iff_of_false not_ok_of_error not_ok_of_error

/-- A stroke in a colour that can be written comes to an end. -/
lemma exists_stroke {t : Studio Recording Unit Unit} {x : Surface Recording Unit}
    (hx : t.surfaces[0]? = some x) {color : Color} (hcolor : color.inRange = true) :
    ∃ u, Studio.perform 0 0 (.stroke color []) t = .ok () u := by
  obtain ⟨written, hwritten⟩ := (Color.text_isOk_iff color).2 hcolor
  obtain ⟨hlt, -⟩ := List.getElem?_eq_some_iff.1 hx
  have hstroke (path : List (Subpath Scalar)) (canvas : Canvas Recording Unit) :
      Medium.stroke path color [] canvas =
        .ok () ((), ⟨canvas.2.calls ++ [.stroke (Outline.ofPath path) written []]⟩) := by
    refine bind_of_ok (a := written) ?_
    rw [hwritten]
    rfl
  simp only [Studio.perform, Command.onPen?, Nat.add_zero]
  rw [bind_apply, onSurface_apply, hx]
  simp only [Surface.onPen, Pen.path_apply]
  rw [onCanvas_apply]
  simp only [List.getElem?_set_self hlt, hstroke]
  exact ⟨_, rfl⟩

/-- The outline of an element can be drawn if and only if its size can be measured. -/
lemma exists_outline_iff {b : Bounds} {t : Studio Recording Unit Unit}
    {x : Surface Recording Unit} (hx : t.surfaces[0]? = some x)
    (hoffset : x.pen.offset = strokeOffset) :
    (∃ u, outline 0 b t = .ok () u) ↔ b.Measurable := by
  obtain ⟨hlt, -⟩ := List.getElem?_eq_some_iff.1 hx
  have hbegin : Studio.perform 0 0 .beginPath t =
      .ok () { t with surfaces :=
        t.surfaces.set 0 { x with pen := { x.pen with finished := [], current := [] } } } := by
    simp only [Studio.perform, Command.onPen?, Nat.add_zero]
    rw [onSurface_apply, hx]
    rfl
  rw [outline, bind_of_ok hbegin, exists_bind_iff]
  · simp only [Studio.perform, Command.onPen?, Nat.add_zero]
    rw [exists_onPen_iff (List.getElem?_set_self hlt)]
    exact exists_rect_iff hoffset
  · intro u hu
    have hkept := perform_keeps 0 0 (.rect (.whole 0) (.whole 0) (.whole b.w) (.whole b.h))
      (s := { t with surfaces :=
        t.surfaces.set 0 { x with pen := { x.pen with finished := [], current := [] } } })
    obtain ⟨y, hy, -⟩ := hkept 0 _ (List.getElem?_set_self hlt)
    rw [hu] at hy
    exact exists_stroke hy (by rfl)

end Outline

/-- A built-in renderer draws an element to the end, unless an outline is due that cannot be
drawn. -/
lemma exists_alone_iff (config : Config Scalar) (outlines : Bool) (e : Element) (m : Metrics) :
    (∃ t, alone ((builtin config).withOutlines outlines) m e = .ok () t) ↔
      (outlines = true → e.bounds.Measurable) := by
  obtain ⟨renderer, notes, hfind⟩ := exists_find (contains_builtin config outlines) e.kind
  obtain ⟨kind, hkind⟩ := exists_get?_of_find hfind
  obtain ⟨b, rfl⟩ := exists_of_get?_map hkind
  rw [alone, hfind]
  dsimp only
  rw [drawElement_fresh]
  obtain ⟨t, ht, hsurfaces⟩ := sketchElement_eq_ok
    ((builtin config).withOutlines outlines) b.draw 0 e (solo m (blank e.bounds))
  obtain ⟨x, hx, hoffset, -⟩ := saved_restores (b.confined e.localized config)
    (surface_solo m (blank e.bounds))
  rw [bind_of_ok ht]
  cases outlines with
  | false => exact iff_of_true ⟨t, rfl⟩ fun h => (by cases h)
  | true =>
    have hfirst : t.surfaces[0]? = some x := (congrArg (fun l => l[0]?) hsurfaces).trans hx
    exact (exists_outline_iff hfirst hoffset).trans ⟨fun h _ => h, fun h => h rfl⟩

/-- Records with integers for coordinates give a pass with one surface for each of them if and only
if none of their layers has too many digits, and their sizes can be measured where outlines are
due. -/
theorem render_surfaces_iff (config : Config Scalar) (outlines : Bool) (metrics : Metrics)
    (earlier : List (List ElementRecord)) {records : List ElementRecord}
    (hexact : ∀ r ∈ records, r.IsExact) :
    let c := (builtin config).withOutlines outlines
    let former := history Recording c metrics earlier
    (∃ d, (c.render former.1 former.2 records : Pass (Canvas Recording Unit)).result = .ok d ∧
        d.artwork.2.calls.map Call.name = List.replicate records.length "surface".toList) ↔
      ∀ r ∈ records, ¬ r.LayerOverlong ∧
        (outlines = true → ∀ x y width height : Int,
          r.coordinates = ⟨.number x, .number y, .number width, .number height⟩ →
          (Bounds.clamped x y width height).Measurable) := by
  intro c former
  have hdefault := contains_builtin config outlines
  have hends := exists_alone_iff config outlines
  have hlayout : (∃ es, (Layout.ofRecords records).1 = .ok es) ↔
      ∀ r ∈ records, ¬ r.LayerOverlong :=
    Layout.exists_ofRecords_iff.trans
      (forall₂_congr fun r hr => Element.exists_build_iff (hexact r hr))
  constructor
  · rintro ⟨d, hd, -⟩
    obtain ⟨es, hes, hdrawn⟩ := (exists_render_iff hdefault hends _ _).1 ⟨d, hd⟩
    intro r hr
    refine ⟨hlayout.1 ⟨es, hes⟩ r hr, fun houtlines x y width height hbox => ?_⟩
    obtain ⟨e, he⟩ := Layout.exists_ofRecords_iff.1 ⟨es, hes⟩ r hr
    rw [← Element.bounds_of_build he hbox]
    exact hdrawn e ((Layout.mem_ofRecords hes).2 ⟨r, hr, he⟩) houtlines
  · intro hall
    obtain ⟨es, hes⟩ := hlayout.2 fun r hr => (hall r hr).1
    have hdrawn : ∀ e ∈ es, ∀ m, ∃ t, alone c m e = .ok () t := by
      intro e he m
      obtain ⟨r, hr, hbuild⟩ := (Layout.mem_ofRecords hes).1 he
      obtain ⟨x, y, width, height, hbox⟩ := hexact r hr
      refine (hends e m).2 fun houtlines => ?_
      rw [Element.bounds_of_build hbuild hbox]
      exact (hall r hr).2 houtlines x y width height hbox
    obtain ⟨calls, hresult, hnames⟩ := render_surfaces hdefault former.1 former.2 hes hdrawn
    exact ⟨_, hresult, by rw [← hnames, List.map_const', Layout.length_ofRecords hes]⟩

/-- Two elements with outlines, one of them on a layer with as many digits as are read. -/
theorem render_surfaces_greatest_layer :
    let c := (builtin .standard).withOutlines true
    let deep : ElementRecord :=
      { id := "UMLClass".toList, coordinates := ⟨.number 5, .number 5, .number 40, .number (-1)⟩,
        panel := ElementRecord.layerPanel 4300 }
    let empty : ElementRecord := {}
    let former := history Recording c { installed := .blocks FontFiles.standard } [[empty]]
    ∃ d, (c.render former.1 former.2 [deep, empty] : Pass (Canvas Recording Unit)).result = .ok d ∧
        d.artwork.2.calls.map Call.name = List.replicate 2 "surface".toList := by
  intro c deep empty former
  have hexact : ∀ r ∈ [deep, empty], r.IsExact := by
    simp only [List.forall_mem_cons]
    exact ⟨⟨5, 5, 40, -1, rfl⟩, ⟨0, 0, 0, 0, rfl⟩, fun r hr => (by cases hr)⟩
  refine (render_surfaces_iff .standard true { installed := .blocks FontFiles.standard } [[empty]]
    hexact).2 ?_
  have hzero : ∃ x, Binary64.ofInt? 0 = some x := ⟨0.0, Binary64.ofInt?_zero⟩
  have hforty : ∃ x, Binary64.ofInt? 40 = some x := ⟨40.0, by rfl⟩
  simp only [List.forall_mem_cons]
  refine ⟨⟨?_, fun _ x y width height hbox => ?_⟩, ⟨?_, fun _ x y width height hbox => ?_⟩,
    fun r hr => (by cases hr)⟩
  · rw [ElementRecord.layerOverlong_iff rfl]
    decide
  · cases hbox
    exact ⟨hforty, hzero⟩
  · rintro ⟨value, negative, digits, hvalue, -⟩
    cases hvalue
  · cases hbox
    exact ⟨hzero, hzero⟩

/-- One more digit, and the layer ends the pass before anything is drawn. -/
theorem render_layer_overlong :
    let overlong : ElementRecord := { panel := ElementRecord.layerPanel 4301 }
    overlong.IsExact ∧
      ¬ ∃ d, ((builtin .standard).render ⟨0, 0⟩ { installed := .blocks FontFiles.standard } [overlong] :
          Pass (Canvas Recording Unit)).result = .ok d := by
  intro overlong
  have hexact : overlong.IsExact := ⟨0, 0, 0, 0, rfl⟩
  refine ⟨hexact, ?_⟩
  intro hresult
  obtain ⟨es, hes, -⟩ := (exists_render_iff (contains_builtin .standard false)
    (exists_alone_iff .standard false) ⟨0, 0⟩ _).1 hresult
  have hbuild := Layout.exists_ofRecords_iff.1 ⟨es, hes⟩ overlong (List.mem_singleton_self _)
  refine (Element.exists_build_iff hexact).1 hbuild ?_
  exact (ElementRecord.layerOverlong_iff rfl).2 (by decide)

end Compositor

end UmlDrawing
