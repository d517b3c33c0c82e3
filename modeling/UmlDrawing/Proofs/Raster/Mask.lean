import UmlDrawing.Proofs.Fault
import UmlDrawing.Proofs.Surface.Action
import UmlDrawing.Raster.Picture

/-! What the masks of pictures are made of. The mask of clips one inside the other is full at the
pixels that the polygons of all their paths paint, and zero at all others. -/
open UmlDrawing.Action

namespace UmlDrawing.Raster.Picture

variable {path : List (Subpath Scalar)} {paths : List (List (Subpath Scalar))} {s : Stencil}
  {width height px py : Nat}

/-- Whether the polygons of a path paint a pixel. -/
def covers (path : List (Subpath Scalar)) (px py : Nat) : Bool :=
  match polygons path with
  | .ok s => s.contains px py
  | .error _ => false

/-- A mask of some paths: none without any path, else full where the polygons of all of them paint
and zero elsewhere. -/
def Restricts (width height : Nat) (paths : List (List (Subpath Scalar))) :
    Option (Grid Level) → Prop
  | none => paths = []
  | some mask =>
    paths ≠ [] ∧ mask.width = width ∧ mask.height = height ∧
      ∀ px < width, ∀ py < height,
        mask.get? px py = some (if ∀ path ∈ paths, covers path px py = true then 255 else 0)

lemma get?_maskOf (s : Stencil) (hx : px < width) (hy : py < height) :
    (maskOf width height s).get? px py = some (if s.contains px py then 255 else 0) := by
  rw [maskOf, Grid.get?_change, Grid.get?_replicate hx hy, Stencil.contains]
  cases s py with
  | nil => rfl
  | cons span spans => rfl

lemma get?_within {mask former : Grid Level} {a b : Level} (ha : mask.get? px py = some a)
    (hb : former.get? px py = some b) :
    (within mask (some former)).get? px py = some (scaleLevel a b) := by
  simp only [within]
  rw [Grid.get?_change, ha]
  simp [hb]

/-- A clip adds its path to those that the mask is made of. -/
theorem restricts_restrict {p : Picture}
    (h : Restricts p.image.width p.image.height paths p.clip) (hs : polygons path = .ok s) :
    Restricts p.image.width p.image.height (path :: paths) (p.restrict s).clip := by
  have hcovers (px py : Nat) : covers path px py = s.contains px py := by rw [covers, hs]
  obtain ⟨image, clip⟩ := p
  cases clip with
  | none =>
    obtain rfl : paths = [] := h
    refine ⟨List.cons_ne_nil _ _, rfl, rfl, fun px hx py hy => ?_⟩
    refine (get?_maskOf s hx hy).trans ?_
    simp only [List.forall_mem_singleton, hcovers]
  | some former =>
    obtain ⟨-, -, -, hformer⟩ := h
    refine ⟨List.cons_ne_nil _ _, rfl, rfl, fun px hx py hy => ?_⟩
    refine (get?_within (get?_maskOf s hx hy) (hformer px hx py hy)).trans ?_
    simp only [List.forall_mem_cons, hcovers]
    by_cases hpaths : ∀ path ∈ paths, covers path px py = true
    · rw [if_pos hpaths, scaleLevel_full]
      simp only [and_iff_left hpaths]
    · rw [if_neg hpaths, scaleLevel_zero, if_neg fun h => hpaths h.2]

lemma clipTo_ok {path : List (Subpath Scalar)} {s : Stencil} (h : polygons path = .ok s)
    (shared : Unit) (p : Picture) : clipTo path (shared, p) = .ok () (shared, p.restrict s) := by
  rw [clipTo, h]
  rfl

lemma clipTo_error {path : List (Subpath Scalar)} {fault : Fault}
    (h : polygons path = .error fault) (shared : Unit) (p : Picture) :
    clipTo path (shared, p) = .error fault (shared, p) := by
  rw [clipTo, h]
  rfl

lemma exists_clipTo_iff {path : List (Subpath Scalar)} {canvas : Canvas Picture Unit} :
    (∃ after, clipTo path canvas = .ok () after) ↔ ∃ s, polygons path = .ok s := by
  cases h : polygons path with
  | ok s => exact iff_of_true ⟨_, clipTo_ok h canvas.1 canvas.2⟩ ⟨s, rfl⟩
  | error fault =>
    rw [clipTo_error h canvas.1 canvas.2]
    exact iff_of_false not_ok_of_error not_ok_of_fault

end UmlDrawing.Raster.Picture
