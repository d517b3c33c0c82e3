import UmlDrawing.Proofs.Compositor.Alone
import UmlDrawing.Proofs.Compositor.Sharing
import UmlDrawing.Proofs.Fault
import UmlDrawing.Proofs.Raster.Picture

/-! The footprint of an element on an image. What an element adds to the image of a diagram does not
depend on the image: it is painted to a surface of its own and laid over the pixels that its box
covers, each on its own. So elements that cover no common pixel can be drawn in any order, as long
as neither changes the font that the other gets. -/
open UmlDrawing.Action

namespace UmlDrawing

/-- Whether a pixel belongs to the surface of a box. -/
def Bounds.Covers (b : Bounds) (x y : Int) : Prop :=
  b.x ≤ x ∧ x ≤ b.x + b.w ∧ b.y ≤ y ∧ y ≤ b.y + b.h

namespace Compositor

open Studio Raster

/-- A drawing on images. -/
abbrev PictureStudio := Studio Picture Unit (Option (Grid Level))

/-- A drawing with nothing but one picture. -/
def pictureAlone (m : Metrics) (b : Bounds) (p : Picture) : PictureStudio :=
  { shared := (), surfaces := [{ size := surfaceSize b, content := p }], metrics := m }

/-- A drawing with one more picture. -/
def withPicture (s : PictureStudio) (b : Bounds) (p : Picture) : PictureStudio :=
  { s with surfaces := s.surfaces ++ [{ size := surfaceSize b, content := p }] }

/-- The image that a drawing leaves on the first surface. -/
def imageOf : EStateM.Result Fault PictureStudio Unit → Except Fault (Grid Pixel)
  | .error fault _ => .error fault
  | .ok _ s => (canvasOf s).map fun canvas => canvas.2.image

/-- The image of an element that is drawn in a studio of its own. -/
def sprite (c : Compositor) (m : Metrics) (e : Element) : Except Fault (Grid Pixel) := do
  let p ← Picture.start (surfaceSize e.bounds)
  let renderer ← (c.registry.find e.kind).1
  imageOf (drawElement c renderer [] 0 e (pictureAlone m e.bounds p))

/-- What an element is laid over an image as. -/
def overlayOf (c : Compositor) (m : Metrics) (e : Element) :
    Except Fault Picture.Overlay := do
  let image ← sprite c m e
  Picture.imagePaint image (e.bounds.pos.map Scalar.whole)

/-- An image with paint laid over it, if there is any. -/
def laid (overlay : Except Fault Picture.Overlay) (image : Grid Pixel) : Grid Pixel :=
  match overlay with
  | .error _ => image
  | .ok overlay => (({ image := image } : Picture).lay overlay).image

/-- An image with an element laid over it, if the element can be drawn. -/
def painted (c : Compositor) (m : Metrics) (e : Element) (image : Grid Pixel) :
    Grid Pixel :=
  laid (overlayOf c m e) image

/-- How a drawing ends that needs some result: with the fault, if there is one. -/
def ended {α σ : Type} (result : Except Fault α) (s : σ) : EStateM.Result Fault σ Unit :=
  match result with
  | .error fault => .error fault s
  | .ok _ => .ok () s

section Size

variable {Content Shared Saved : Type} [Medium Content Shared Saved] {P : Content → Prop} {i : Nat}
  {s : Studio Content Shared Saved}

end Size

variable {c : Compositor} {m : Metrics} {e e' : Element} {image : Grid Pixel} {s : PictureStudio}

/-- A drawing between two elements: an image without a mask, in its place. -/
def Clear (image : Grid Pixel) (s : PictureStudio) : Prop :=
  ∃ x, s.surfaces[0]? = some x ∧ x.pen.offset = Vec.origin ∧ x.content = { image := image }

namespace Clear

variable {p : Picture} {t u : PictureStudio}

/-- What is drawn to later surfaces does not show. -/
lemma of_hosts (h : Clear image s) (hhosts : Hosts s.surfaces [] 0 t u) : Clear image t := by
  obtain ⟨x, hx, hclear⟩ := h
  obtain ⟨hlt, -⟩ := List.getElem?_eq_some_iff.1 hx
  exact ⟨x, by rw [hhosts.surfaces, List.getElem?_append_left hlt, hx], hclear⟩

lemma create (h : Clear image s) {b : Bounds} (hstart : Picture.start (surfaceSize b) = .ok p) :
    Studio.perform 0 0 (.create (surfaceSize b).x (surfaceSize b).y) s =
      .ok () (withPicture s b p) := by
  obtain ⟨x, hx, -⟩ := h
  have hcreate : (Medium.create (surfaceSize b) s.shared : Except Fault (Canvas Picture Unit)) =
      .ok ((), p) := by
    change (Picture.start (surfaceSize b)).bind _ = _
    rw [hstart]
    rfl
  rw [perform_create_apply, Nat.add_zero, hx]
  dsimp only
  rw [create_apply]
  simp only [hcreate]
  rfl

lemma create_error (h : Clear image s) {b : Bounds} {fault : Fault}
    (hstart : Picture.start (surfaceSize b) = .error fault) :
    Studio.perform 0 0 (.create (surfaceSize b).x (surfaceSize b).y) s = .error fault s := by
  obtain ⟨x, hx, -⟩ := h
  have hcreate : (Medium.create (surfaceSize b) s.shared : Except Fault (Canvas Picture Unit)) =
      .error fault := by
    change (Picture.start (surfaceSize b)).bind _ = _
    rw [hstart]
    rfl
  rw [perform_create_apply, Nat.add_zero, hx]
  dsimp only
  rw [create_apply]
  simp only [hcreate]

lemma hosts (s : PictureStudio) (b : Bounds) (p : Picture) :
    Hosts s.surfaces [] 0 (withPicture s b p) (pictureAlone s.metrics b p) where
  shared := rfl
  surfaces := rfl
  metrics := rfl
  first := ⟨_, rfl, .inl rfl⟩

/-- The image of an element is laid over that of the diagram, if it can be placed. -/
lemma place (h : Clear image s) (hhosts : Hosts s.surfaces [] 0 t u) {sprite : Grid Pixel}
    (hsprite : imageOf (.ok () u) = .ok sprite) (position : Vec Int) :
    ∃ v, Studio.perform 0 0 (.place s.surfaces.length (position.map Scalar.whole)) t =
        ended (Picture.imagePaint sprite (position.map Scalar.whole)) v ∧
      Clear (laid (Picture.imagePaint sprite (position.map Scalar.whole)) image) v := by
  obtain ⟨x, hx, hoffset, hcontent⟩ := h.of_hosts hhosts
  obtain ⟨hlt, -⟩ := List.getElem?_eq_some_iff.1 hx
  obtain ⟨y, hy, -⟩ := hhosts.first
  have hplaced : t.surfaces[s.surfaces.length]? = some y := by
    have hget := hhosts.getElem? 0
    rw [Nat.add_zero, hy, Option.map_some, Surface.raise_nil] at hget
    exact hget
  obtain rfl : y.content.image = sprite := by
    simp only [imageOf, canvasOf, hy] at hsprite
    exact Except.ok.inj hsprite
  rw [perform_place_apply, Nat.add_zero, Nat.zero_add, hx, hplaced]
  simp only [hoffset, origin_add]
  rw [onCanvas_apply, hx]
  have hpaint : (Medium.place y.size y.content (position.map Scalar.whole) :
      Action (Canvas Picture Unit) Unit) =
      Picture.paint (Picture.imagePaint y.content.image (position.map Scalar.whole)) :=
    rfl
  simp only [hpaint]
  cases Picture.imagePaint y.content.image (position.map Scalar.whole) with
  | error fault => exact ⟨_, rfl, _, List.getElem?_set_self hlt, hoffset, hcontent⟩
  | ok overlay =>
    refine ⟨_, rfl, _, List.getElem?_set_self hlt, hoffset, ?_⟩
    rw [hcontent]
    rfl

/-- Lines are put on pixels, whatever the picture. -/
lemma exists_translate (m : Metrics) (b : Bounds) (p : Picture) :
    ∃ t, Studio.perform 0 0 (.translate strokeOffset) (pictureAlone m b p) = .ok () t := by
  have htranslate : Pen.translate strokeOffset (Pen.initial : Pen Scalar) =
      .ok () { offset := strokeOffset } := by
    rw [Pen.translate, bind_apply, Pen.located_apply, Pen.initial, origin_add_strokeOffset]
    rfl
  have hfirst : (pictureAlone m b p).surfaces[0]? =
      some { size := surfaceSize b, content := p } :=
    rfl
  simp only [Studio.perform, Command.onPen?, Nat.add_zero]
  rw [onSurface_apply, hfirst]
  simp only [Surface.onPen, htranslate]
  exact ⟨_, rfl⟩

/-- Without a renderer nothing is drawn. -/
lemma renderElement_error (h : Clear image s) (hstart : Picture.start (surfaceSize e.bounds) = .ok p)
    {fault : Fault} {notes : List Note} (hfind : c.registry.find e.kind = (.error fault, notes)) :
    ∃ t, Compositor.renderElement c e s = .error fault t ∧ Clear image t := by
  have hstep := perform_alike 0 (.translate strokeOffset) (hosts s e.bounds p) (.inl rfl)
  obtain ⟨u, hu⟩ := exists_translate s.metrics e.bounds p
  rw [hu] at hstep
  cases hresult :
      Studio.perform s.surfaces.length 0 (.translate strokeOffset) (withPicture s e.bounds p) with
  | error fault t =>
    rw [hresult] at hstep
    cases hstep
  | ok b t =>
    rw [hresult] at hstep
    cases hstep with
    | ok b hhosts =>
      have hclear := h.of_hosts hhosts
      refine ⟨{ t with notes := t.notes ++ notes }, ?_, hclear⟩
      refine (bind_of_ok (get_apply s)).trans ?_
      refine (bind_of_ok (h.create hstart)).trans ?_
      refine (bind_of_ok hresult).trans ?_
      rw [hfind]
      rfl

/-- What is drawn of an element alone is laid over the image, if it can be drawn. -/
lemma renderElement_drawn (h : Clear image s)
    (hstart : Picture.start (surfaceSize e.bounds) = .ok p) {renderer : Renderer Scalar}
    {notes : List Note} (hfind : c.registry.find e.kind = (.ok renderer, notes)) :
    let overlay := do
      let image ← imageOf (drawElement c renderer [] 0 e (pictureAlone s.metrics e.bounds p))
      Picture.imagePaint image (e.bounds.pos.map Scalar.whole)
    ∃ t, Compositor.renderElement c e s = ended overlay t ∧ Clear (laid overlay image) t := by
  have hdrawn : Alike (Hosts s.surfaces [] 0)
      (drawElement c renderer notes s.surfaces.length e (withPicture s e.bounds p))
      (drawElement c renderer [] 0 e (pictureAlone s.metrics e.bounds p)) :=
    drawElement_alike c renderer notes [] e (hosts s e.bounds p)
  rw [renderElement_eq hfind, bind_of_ok (h.create hstart), bind_apply]
  generalize drawElement c renderer notes s.surfaces.length e (withPicture s e.bounds p) = result
    at hdrawn
  generalize drawElement c renderer [] 0 e (pictureAlone s.metrics e.bounds p) = result' at hdrawn
  cases hdrawn with
  | error fault hhosts => exact ⟨_, rfl, h.of_hosts hhosts⟩
  | @ok b t u hhosts =>
    obtain ⟨y, hy, -⟩ := hhosts.first
    have hsprite : imageOf (.ok () u) = .ok y.content.image := by
      simp only [imageOf, canvasOf, hy]
      rfl
    rw [hsprite]
    exact h.place hhosts hsprite e.bounds.pos

/-- An element is laid over the image, or its drawing fails and nothing is. -/
theorem renderElement (h : Clear image s) (c : Compositor) (e : Element) :
    ∃ t, Compositor.renderElement c e s = ended (overlayOf c s.metrics e) t ∧
      Clear (painted c s.metrics e image) t := by
  unfold painted overlayOf sprite
  cases hstart : Picture.start (surfaceSize e.bounds) with
  | error fault =>
    refine ⟨s, ?_, h⟩
    refine (bind_of_ok (get_apply s)).trans ?_
    exact bind_of_error (h.create_error hstart)
  | ok p =>
    obtain ⟨found, notes, hfind⟩ : ∃ found notes, c.registry.find e.kind = (found, notes) :=
      ⟨_, _, rfl⟩
    rw [hfind]
    cases found with
    | error fault => exact h.renderElement_error hstart hfind
    | ok renderer => exact h.renderElement_drawn hstart hfind

lemma final_renderElement (h : Clear image s) (c : Compositor) (e : Element) :
    Clear (painted c s.metrics e image) (final (Compositor.renderElement c e s)) := by
  obtain ⟨t, ht, hclear⟩ := h.renderElement c e
  rw [ht]
  cases overlayOf c s.metrics e with
  | error fault => exact hclear
  | ok overlay => exact hclear

/-- A pass starts with a clear drawing. -/
lemma start {size : Vec Scalar} {metrics : Metrics} (hstart : Studio.start size metrics = .ok s) :
    ∃ image, Clear image s := by
  obtain ⟨canvas, hroot, hs⟩ := bind_eq_ok_iff.1 hstart
  obtain ⟨p, hp, hcanvas⟩ := bind_eq_ok_iff.1 hroot
  obtain ⟨columns, -, hp⟩ := bind_eq_ok_iff.1 hp
  obtain ⟨rows, -, hp⟩ := bind_eq_ok_iff.1 hp
  obtain ⟨dimensions, -, hp⟩ := bind_eq_ok_iff.1 hp
  cases hs
  cases hcanvas
  cases hp
  exact ⟨_, _, rfl, rfl, rfl⟩

end Clear

section Uniform

variable {library : FontLibrary} {n : Metrics} (hlibrary : library.Uniform)

include hlibrary

/-- What an element is laid over an image as does not depend on what the metrics remember. -/
lemma overlayOf_of_reliable (hm : m.Reliable library) (hn : n.Reliable library) (c : Compositor)
    (e : Element) : overlayOf c m e = overlayOf c n e := by
  have hdrawn (p : Picture) (renderer : Renderer Scalar) :
      imageOf (drawElement c renderer [] 0 e (pictureAlone m e.bounds p)) =
        imageOf (drawElement c renderer [] 0 e (pictureAlone n e.bounds p)) := by
    have htwins : Twins (Metrics.BothReliable library) (pictureAlone m e.bounds p) (pictureAlone n e.bounds p) :=
      .intro (s := pictureAlone m e.bounds p) ⟨hm, hn⟩
    have hdrawn := drawElement_twins (c := c) (Metrics.agreement_reliable hlibrary) htwins renderer
      [] 0 e
    generalize drawElement c renderer [] 0 e (pictureAlone m e.bounds p) = result at hdrawn ⊢
    generalize drawElement c renderer [] 0 e (pictureAlone n e.bounds p) = result' at hdrawn ⊢
    cases hdrawn with
    | ok b h =>
      obtain ⟨_⟩ := h
      rfl
    | error fault h => rfl
  unfold overlayOf sprite
  simp only [hdrawn]

variable (hm : m.Reliable library)

include hm

/-- With fonts that are reliable, what is laid over the image is up to the element. -/
lemma Clear.final_of_reliable (h : Clear image s) (hs : s.metrics.Reliable library) (c : Compositor)
    (e : Element) : Clear (painted c m e image) (final (Compositor.renderElement c e s)) := by
  have hclear := h.final_renderElement c e
  rwa [painted, overlayOf_of_reliable hlibrary hs hm] at hclear

/-- A pass comes to an end if and only if every element can be drawn, and lays them over the image
one after the other. -/
theorem Clear.renderElements (h : Clear image s) (hs : s.metrics.Reliable library)
    (es : List Element) :
    ((∃ t, Compositor.renderElements c es s = .ok () t) ↔
      ∀ e ∈ es, ∃ overlay, overlayOf c m e = .ok overlay) ∧
    ∀ t, Compositor.renderElements c es s = .ok () t →
      Clear (es.foldl (fun image e => painted c m e image) image) t := by
  induction es generalizing s image with
  | nil =>
    refine ⟨iff_of_true ⟨s, rfl⟩ (by simp), fun t ht => ?_⟩
    cases ht
    exact h
  | cons e es ih =>
    obtain ⟨u, hu, -⟩ := h.renderElement c e
    have hclear := h.final_of_reliable hlibrary hm hs c e
    have hreliable := renderElement_reliable hlibrary hs c e
    rw [overlayOf_of_reliable hlibrary hs hm] at hu
    rw [Compositor.renderElements]
    cases hoverlay : overlayOf c m e with
    | error fault =>
      rw [hoverlay] at hu
      rw [bind_of_error hu]
      refine ⟨iff_of_false not_ok_of_error fun hall => ?_, fun t ht => by cases ht⟩
      obtain ⟨overlay, hfound⟩ := hall e (by simp)
      rw [hoverlay] at hfound
      cases hfound
    | ok overlay =>
      rw [hoverlay] at hu
      rw [hu] at hclear hreliable
      rw [bind_of_ok hu]
      obtain ⟨hends, hlaid⟩ := ih (s := u) hclear hreliable
      refine ⟨?_, hlaid⟩
      rw [hends, List.forall_mem_cons, and_iff_right ⟨overlay, hoverlay⟩]

end Uniform

end Compositor

end UmlDrawing
