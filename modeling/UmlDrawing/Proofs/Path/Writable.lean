import UmlDrawing.Proofs.Path.Pen
import UmlDrawing.Proofs.Svg.Written
import UmlDrawing.Surface.Command

/-! Paths that can be written. A pen that is only led to finite points collects pieces that can be
written, and never fails. -/
open UmlDrawing.Action

namespace UmlDrawing

/-- A point that is finite once it is moved by the offset. -/
def Vec.Reaches (offset v : Vec Scalar) : Prop := ∃ u, offset.add v = .ok u ∧ u.Measurable

namespace Pen

/-- A pen with pieces that can be written and finite points. -/
def Writable (p : Pen Scalar) : Prop :=
  (∀ s ∈ p.finished, s.Writable) ∧ ∀ v ∈ p.current, v.Measurable

variable {p : Pen Scalar}

lemma writable_initial : (initial : Pen Scalar).Writable := by
  constructor <;> simp [initial]

lemma Writable.flushed (h : p.Writable) : (flushed p).Writable := by
  refine ⟨?_, by simp [Pen.flushed]⟩
  unfold Pen.flushed
  dsimp only
  split
  · next hlength =>
    intro s hs
    obtain hs | hs := List.mem_append.1 hs
    · exact h.1 s hs
    · obtain rfl := List.mem_singleton.1 hs
      exact ⟨List.ne_nil_of_length_pos (Nat.lt_trans Nat.zero_lt_one hlength), h.2⟩
  · exact h.1

lemma Writable.lineTo (h : p.Writable) {v : Vec Scalar} (hv : p.offset.Reaches v) :
    ∃ q, Pen.lineTo v p = .ok () q ∧ q.Writable ∧ q.offset = p.offset := by
  obtain ⟨u, hu, hmeasurable⟩ := hv
  rw [lineTo_apply, hu]
  refine ⟨_, rfl, ⟨h.1, ?_⟩, rfl⟩
  simp only [List.mem_append, List.mem_singleton]
  rintro w (hw | rfl)
  · exact h.2 w hw
  · exact hmeasurable

lemma Writable.moveTo (h : p.Writable) {v : Vec Scalar} (hv : p.offset.Reaches v) :
    ∃ q, Pen.moveTo v p = .ok () q ∧ q.Writable ∧ q.offset = p.offset := by
  obtain ⟨u, hu, hmeasurable⟩ := hv
  rw [moveTo_apply, hu]
  refine ⟨_, rfl, ⟨h.flushed.1, ?_⟩, rfl⟩
  simp [hmeasurable]

lemma Writable.closePath (h : p.Writable) : ∃ q, Pen.closePath p = .ok () q ∧ q.Writable := by
  refine ⟨_, rfl, ?_⟩
  dsimp only
  split
  · exact h
  · next first rest hcurrent =>
    have hpoints := h.2
    rw [hcurrent] at hpoints
    refine ⟨?_, by simp [hpoints first]⟩
    intro s hs
    obtain hs | hs := List.mem_append.1 hs
    · exact h.1 s hs
    · obtain rfl := List.mem_singleton.1 hs
      refine ⟨by rw [hcurrent]; exact List.cons_ne_nil _ _, ?_⟩
      rw [hcurrent]
      exact hpoints

lemma Writable.linesTo (h : p.Writable) {vs : List (Vec Scalar)}
    (hvs : ∀ v ∈ vs, p.offset.Reaches v) : ∃ q, Pen.linesTo vs p = .ok () q ∧ q.Writable := by
  induction vs generalizing p with
  | nil => exact ⟨p, rfl, h⟩
  | cons v vs ih =>
    obtain ⟨q, hq, hwritable, hoffset⟩ := h.lineTo (hvs v (by simp))
    obtain ⟨r, hr, hwritable⟩ := ih hwritable fun w hw => hoffset ▸ hvs w (by simp [hw])
    exact ⟨r, (bind_of_ok hq).trans hr, hwritable⟩

lemma Writable.polyline (h : p.Writable) {points : List (Vec Scalar)}
    (hpoints : ∀ v ∈ points, p.offset.Reaches v) (closed : Bool) :
    ∃ q, Pen.polyline points closed p = .ok () q ∧ q.Writable := by
  cases points with
  | nil => exact ⟨p, rfl, h⟩
  | cons first rest =>
    obtain ⟨q, hq, hwritable, hoffset⟩ := h.moveTo (hpoints first (by simp))
    have hrest : ∀ v ∈ rest, q.offset.Reaches v := fun v hv =>
      hoffset ▸ hpoints v (List.mem_cons_of_mem _ hv)
    obtain ⟨r, hr, hwritable⟩ := hwritable.linesTo hrest
    rw [Pen.polyline, bind_of_ok hq, bind_of_ok hr]
    cases closed with
    | false => exact ⟨r, rfl, hwritable⟩
    | true => exact hwritable.closePath

lemma Writable.rect (h : p.Writable) {x y w l right bottom : Scalar}
    (hright : Arithmetic.add x w = .ok right) (hbottom : Arithmetic.add y l = .ok bottom)
    (hcorners : ∀ v ∈ [(⟨x, y⟩ : Vec Scalar), ⟨right, y⟩, ⟨right, bottom⟩, ⟨x, bottom⟩],
      p.offset.Reaches v) : ∃ q, Pen.rect x y w l p = .ok () q ∧ q.Writable := by
  obtain ⟨q, hq, hwritable⟩ := h.polyline hcorners false
  obtain ⟨r, hr, hwritable⟩ := hwritable.closePath
  rw [Pen.rect, hright, hbottom, bind_of_ok (ofExcept_ok right p), bind_of_ok (ofExcept_ok bottom p),
    bind_of_ok hq, bind_of_ok hr]
  exact ⟨_, rfl, hwritable.1, by simp⟩

/-- The angle of a corner of an ellipse. -/
def cornerAngle (i : Nat) : Except Fault Scalar := do
  let circle ← Scalar.mul (.whole 2) Arithmetic.pi
  let turns ← Scalar.mul circle (.whole i)
  Scalar.div turns (.whole Ellipse.corners)

/-- Whether an angle is a double that is not infinite. -/
def isAngle : Except Fault Scalar → Bool
  | .ok (.real x) => !x.isInf
  | _ => false

lemma isAngle_cornerAngle : ∀ i : Fin Ellipse.corners, isAngle (cornerAngle i) = true := by
  decide +kernel

/-- The corners of an ellipse that was measured in doubles can be found. -/
lemma corner_real (a b c d : Float) {i : Nat} (hi : i < Ellipse.corners) :
    ∃ v, Ellipse.corner (Vec.ofReals a b) (.ofReals c d) Ellipse.corners i = .ok v := by
  have hangle := isAngle_cornerAngle ⟨i, hi⟩
  dsimp only at hangle
  have hcorner : Ellipse.corner (Vec.ofReals a b) (.ofReals c d) Ellipse.corners i = (do
        let theta ← cornerAngle i
        let x ← Arithmetic.cos theta
        let dx ← Scalar.mul (.real c) x
        let x ← Scalar.add (.real a) dx
        let y ← Arithmetic.sin theta
        let dy ← Scalar.mul (.real d) y
        let y ← Scalar.add (.real b) dy
        pure ⟨x, y⟩) := by
    simp only [Ellipse.corner, cornerAngle, bind_assoc]
    rfl
  rw [hcorner]
  unfold isAngle at hangle
  split at hangle
  · next x hx =>
    rw [hx]
    have hfinite : x.isInf = false := by simpa using hangle
    have hcos : (Arithmetic.cos (Scalar.real x) : Except Fault Scalar) = .ok (.real x.cos) := by
      change (if x.isInf = true then _ else _) = _
      rw [hfinite]
      rfl
    have hsin : (Arithmetic.sin (Scalar.real x) : Except Fault Scalar) = .ok (.real x.sin) := by
      change (if x.isInf = true then _ else _) = _
      rw [hfinite]
      rfl
    change ∃ v, ((Arithmetic.cos (Scalar.real x) : Except Fault Scalar) >>= _) = _
    rw [hcos]
    change ∃ v, ((Arithmetic.sin (Scalar.real x) : Except Fault Scalar) >>= _) = _
    rw [hsin]
    exact ⟨_, rfl⟩
  · cases hangle

lemma polygon_real (a b c d : Float) :
    ∃ points, Ellipse.polygon (Vec.ofReals a b) (.ofReals c d) Ellipse.corners = .ok points :=
  exists_mapM fun _ hi => corner_real a b c d (List.mem_range.1 hi)

lemma exists_real_of_half {w r : Scalar} (h : Arithmetic.half w = .ok r) : ∃ x, r = .real x := by
  have hdiv : Scalar.div w (.whole 2) = .ok r := h
  have htwo : Scalar.toFloat (.whole 2) = .ok 2.0 := by rfl
  cases w with
  | whole m =>
    simp only [Scalar.div] at hdiv
    split at hdiv
    · cases hdiv
    · split at hdiv
      · cases hdiv
        exact ⟨_, rfl⟩
      · cases hdiv
  | real x =>
    simp only [Scalar.div, htwo] at hdiv
    obtain ⟨y, -, hdiv⟩ := bind_eq_ok_iff.1 hdiv
    obtain ⟨z, -, hdiv⟩ := bind_eq_ok_iff.1 hdiv
    split at hdiv
    · cases hdiv
    · cases hdiv
      exact ⟨_, rfl⟩

lemma exists_real_of_add {u r : Scalar} {x : Float} (h : Scalar.add u (.real x) = .ok r) :
    ∃ y, r = .real y := by
  have hlift : (do
      let y ← Scalar.toFloat u
      let z ← Scalar.toFloat (.real x)
      pure (.real (y + z)) : Except Fault Scalar) = .ok r := by
    cases u <;> exact h
  obtain ⟨y, -, hlift⟩ := bind_eq_ok_iff.1 hlift
  obtain ⟨z, -, hlift⟩ := bind_eq_ok_iff.1 hlift
  cases hlift
  exact ⟨_, rfl⟩

/-- The axes of an ellipse are measured in doubles. -/
lemma ellipseAxes_real {offset center radii : Vec Scalar} {x y w h : Scalar}
    (haxes : ellipseAxes offset x y w h = .ok (center, radii)) :
    ∃ a b c d, center = .ofReals a b ∧ radii = .ofReals c d := by
  obtain ⟨rx, hrx, haxes⟩ := bind_eq_ok_iff.1 haxes
  obtain ⟨cx, hcx, haxes⟩ := bind_eq_ok_iff.1 haxes
  obtain ⟨ry, hry, haxes⟩ := bind_eq_ok_iff.1 haxes
  obtain ⟨cy, hcy, haxes⟩ := bind_eq_ok_iff.1 haxes
  obtain ⟨v, hv, haxes⟩ := bind_eq_ok_iff.1 haxes
  obtain ⟨px, hpx, hv⟩ := bind_eq_ok_iff.1 hv
  obtain ⟨py, hpy, hv⟩ := bind_eq_ok_iff.1 hv
  cases hv
  cases haxes
  obtain ⟨c, rfl⟩ := exists_real_of_half hrx
  obtain ⟨d, rfl⟩ := exists_real_of_half hry
  obtain ⟨a, rfl⟩ := exists_real_of_add hcx
  obtain ⟨b, rfl⟩ := exists_real_of_add hcy
  obtain ⟨a, rfl⟩ := exists_real_of_add hpx
  obtain ⟨b, rfl⟩ := exists_real_of_add hpy
  exact ⟨a, b, c, d, rfl, rfl⟩

lemma Writable.ellipse (hp : p.Writable) {x y w h : Scalar}
    (haxes : ∃ axes, ellipseAxes p.offset x y w h = .ok axes) :
    ∃ q, Pen.ellipse x y w h p = .ok () q ∧ q.Writable := by
  obtain ⟨⟨center, radii⟩, haxes⟩ := haxes
  obtain ⟨a, b, c, d, rfl, rfl⟩ := ellipseAxes_real haxes
  obtain ⟨points, hpoints⟩ := polygon_real a b c d
  have hflush : (flush : Action (Pen Scalar) Unit) p = .ok () (Pen.flushed p) := rfl
  have hoffset : (Pen.flushed p).offset = p.offset := rfl
  rw [Pen.ellipse, bind_of_ok hflush, bind_of_ok (get_apply _), hoffset, haxes,
    bind_of_ok (ofExcept_ok _ _)]
  dsimp only
  rw [hpoints, bind_of_ok (ofExcept_ok _ _)]
  refine ⟨_, rfl, ?_, hp.flushed.2⟩
  intro s hs
  obtain hs | hs := List.mem_append.1 hs
  · exact hp.flushed.1 s hs
  · obtain rfl := List.mem_singleton.1 hs
    exact ⟨a, b, c, d, rfl, rfl⟩

end Pen

end UmlDrawing
