import UmlDrawing.Proofs.Path.Writable

/-! The polygons that ellipses are drawn as. Whatever a pen is asked to do, all corners of the
ellipses of its path are doubles. -/
open UmlDrawing.Action

namespace UmlDrawing

lemma exists_real_of_cos {theta c : Scalar} (h : Arithmetic.cos theta = .ok c) :
    ∃ x, c = .real x := by
  obtain ⟨y, -, h⟩ := bind_eq_ok_iff.1 h
  split at h
  · cases h
  · cases h
    exact ⟨_, rfl⟩

lemma exists_real_of_sin {theta c : Scalar} (h : Arithmetic.sin theta = .ok c) :
    ∃ x, c = .real x := by
  obtain ⟨y, -, h⟩ := bind_eq_ok_iff.1 h
  split at h
  · cases h
  · cases h
    exact ⟨_, rfl⟩

/-- The corners of an ellipse that was measured in doubles are doubles. -/
lemma eq_ofReals_of_corner {a b c d : Float} {count i : Nat} {v : Vec Scalar}
    (h : Ellipse.corner (Vec.ofReals a b) (.ofReals c d) count i = .ok v) :
    ∃ x y, v = .ofReals x y := by
  obtain ⟨circle, -, h⟩ := bind_eq_ok_iff.1 h
  obtain ⟨turns, -, h⟩ := bind_eq_ok_iff.1 h
  obtain ⟨theta, -, h⟩ := bind_eq_ok_iff.1 h
  obtain ⟨cosine, hcos, h⟩ := bind_eq_ok_iff.1 h
  obtain ⟨dx, hdx, h⟩ := bind_eq_ok_iff.1 h
  obtain ⟨x, hx, h⟩ := bind_eq_ok_iff.1 h
  obtain ⟨sine, hsin, h⟩ := bind_eq_ok_iff.1 h
  obtain ⟨dy, hdy, h⟩ := bind_eq_ok_iff.1 h
  obtain ⟨y, hy, h⟩ := bind_eq_ok_iff.1 h
  cases h
  obtain ⟨_, rfl⟩ := exists_real_of_cos hcos
  obtain ⟨_, rfl⟩ := exists_real_of_sin hsin
  cases hdx
  cases hdy
  cases hx
  cases hy
  exact ⟨_, _, rfl⟩

/-- A piece of a path whose corners are doubles if it is an ellipse. -/
def Subpath.Rounded (s : Subpath Scalar) : Prop :=
  s.ellipse ≠ none → ∀ v ∈ s.points, ∃ x y, v = Vec.ofReals x y

namespace Svg

/-- The coordinates of a piece that can be written are within the doubles. -/
lemma hasDouble_of_subpathSteps {s : Subpath Scalar} (hs : s.Rounded) {ts : List Text}
    (h : subpathSteps s = .ok ts) : ∀ v ∈ s.points, v.x.HasDouble ∧ v.y.HasDouble := by
  intro v hv
  unfold subpathSteps at h
  cases hellipse : s.ellipse with
  | some axes =>
    have hne : s.ellipse ≠ none := by simp [hellipse]
    obtain ⟨x, y, rfl⟩ := hs hne v hv
    exact ⟨⟨x, rfl⟩, ⟨y, rfl⟩⟩
  | none =>
    rw [hellipse] at h
    cases hpoints : s.points with
    | nil =>
      rw [hpoints] at hv
      cases hv
    | cons first rest =>
      rw [hpoints] at h hv
      obtain ⟨t, ht, h⟩ := bind_eq_ok_iff.1 h
      obtain ⟨us, hus, -⟩ := bind_eq_ok_iff.1 h
      obtain rfl | hv := List.mem_cons.1 hv
      · exact hasDouble_of_point ht
      · obtain ⟨u, hu⟩ := exists_of_mapM hus v hv
        exact hasDouble_of_point hu

end Svg

namespace Pen

/-- A pen whose ellipses have doubles as corners. -/
def Rounded (p : Pen Scalar) : Prop := ∀ s ∈ p.finished, s.Rounded

variable {p : Pen Scalar}

lemma rounded_initial : (initial : Pen Scalar).Rounded := by
  simp [Rounded, initial]

lemma Rounded.concat {q : Pen Scalar} (h : p.Rounded) {s : Subpath Scalar} (hs : s.Rounded)
    (hq : q.finished = p.finished ++ [s]) : q.Rounded := by
  intro t ht
  rw [hq] at ht
  obtain ht | ht := List.mem_append.1 ht
  · exact h t ht
  · obtain rfl := List.mem_singleton.1 ht
    exact hs

lemma rounded_of_ellipse_eq_none {s : Subpath Scalar} (h : s.ellipse = none) : s.Rounded :=
  fun hne => absurd h hne

lemma Rounded.flushed (h : p.Rounded) : (flushed p).Rounded := by
  by_cases hlength : 1 < p.current.length
  · refine h.concat (s := { points := p.current }) (rounded_of_ellipse_eq_none rfl) ?_
    simp only [Pen.flushed, if_pos hlength]
  · intro s hs
    simp only [Pen.flushed, if_neg hlength] at hs
    exact h s hs

lemma Rounded.lineTo (h : p.Rounded) (v : Vec Scalar) : (final (lineTo v p)).Rounded := by
  rw [lineTo_apply]
  cases p.offset.add v with
  | error fault => exact h
  | ok u => exact h

lemma Rounded.moveTo (h : p.Rounded) (v : Vec Scalar) : (final (moveTo v p)).Rounded := by
  rw [moveTo_apply]
  cases p.offset.add v with
  | error fault => exact h.flushed
  | ok u => exact h.flushed

lemma Rounded.linesTo (h : p.Rounded) (vs : List (Vec Scalar)) : (final (linesTo vs p)).Rounded := by
  induction vs generalizing p with
  | nil => exact h
  | cons v vs ih => exact final_bind (h.lineTo v) fun _ _ _ h => ih h

lemma Rounded.closePath (h : p.Rounded) : (final (closePath p)).Rounded := by
  rw [Pen.closePath, modify_apply, final]
  split
  · exact h
  · exact h.concat (s := { points := p.current, closed := true }) (rounded_of_ellipse_eq_none rfl)
      rfl

lemma Rounded.polyline (h : p.Rounded) (points : List (Vec Scalar)) (closed : Bool) :
    (final (polyline points closed p)).Rounded := by
  cases points with
  | nil => exact h
  | cons first rest =>
    refine final_bind (h.moveTo first) fun _ _ _ h => ?_
    refine final_bind (h.linesTo rest) fun _ _ _ h => ?_
    cases closed with
    | false => exact h
    | true => exact h.closePath

lemma Rounded.rect (h : p.Rounded) (x y w l : Scalar) : (final (rect x y w l p)).Rounded := by
  refine final_ofExcept_bind h fun right _ => ?_
  refine final_ofExcept_bind h fun bottom _ => ?_
  refine final_bind (h.polyline _ false) fun _ _ _ h => ?_
  refine final_bind h.closePath fun _ _ _ h => ?_
  exact h

lemma Rounded.ellipse (h : p.Rounded) (x y w l : Scalar) :
    (final (ellipse x y w l p)).Rounded := by
  refine final_bind h.flushed fun _ q _ h => ?_
  refine final_bind h fun r q' hr h => ?_
  cases hr
  refine final_ofExcept_bind h fun axes haxes => ?_
  obtain ⟨center, radii⟩ := axes
  obtain ⟨a, b, c, d, rfl, rfl⟩ := ellipseAxes_real haxes
  refine final_ofExcept_bind h fun points hpoints => ?_
  refine h.concat (s := { points := points, closed := true, ellipse := some _ }) ?_ rfl
  intro _ v hv
  obtain ⟨i, -, hi⟩ := exists_of_mem_mapM hpoints hv
  exact eq_ofReals_of_corner hi

/-- No command about the path draws an ellipse with other corners, not even one that fails. -/
theorem Rounded.onPen (h : p.Rounded) {c : Command Scalar} {action : Action (Pen Scalar) Unit}
    (haction : c.onPen? = some action) : (final (action p)).Rounded := by
  cases c with
  | beginPath =>
    cases haction
    exact fun s hs => absurd hs List.not_mem_nil
  | moveTo v =>
    cases haction
    exact h.moveTo v
  | lineTo v =>
    cases haction
    exact h.lineTo v
  | closePath =>
    cases haction
    exact h.closePath
  | polyline points closed =>
    cases haction
    exact h.polyline points closed
  | rect x y w l =>
    cases haction
    exact h.rect x y w l
  | ellipse x y w l =>
    cases haction
    exact h.ellipse x y w l
  | readPath =>
    cases haction
    exact h.flushed
  | translate d =>
    cases haction
    refine final_bind ?_ fun _ _ _ h => h
    rw [located_apply]
    cases p.offset.add d with
    | error fault => exact h
    | ok u => exact h
  | _ => cases haction

end Pen

end UmlDrawing
