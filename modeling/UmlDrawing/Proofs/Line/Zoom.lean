import Mathlib
import UmlDrawing.Line.Relation
import UmlDrawing.Proofs.Fault
import UmlDrawing.Proofs.Geometry.Exact
import UmlDrawing.Proofs.Line.Arrowhead

/-! Relations at different zooms, in exact arithmetic. The zoom stretches the points of a line and,
in another place, the outlines of its arrowheads, which are then turned along points that are
stretched already. A direction does not depend on how far it goes, and a turn stretches with what is
turned, so all of the geometry is stretched alike. -/
namespace UmlDrawing

namespace ArrowHead

/-- The arrowhead with every corner multiplied by a number. -/
noncomputable def scaled (k : ℝ) (head : ArrowHead ℝ) : ArrowHead ℝ :=
  { head with points := head.points.map (Vec.map (k * ·)) }

/-- The place of a corner of the template that is turned by an angle and moved to the tip. -/
noncomputable def turned (tip : Vec ℝ) (theta : ℝ) (corner : Vec ℝ) : Vec ℝ :=
  ⟨tip.x + (corner.x * Real.cos theta - corner.y * Real.sin theta),
    tip.y + (corner.x * Real.sin theta + corner.y * Real.cos theta)⟩

variable {zoom : ℝ} (tip toward : Vec ℝ)

lemma place_real (theta : ℝ) (corner : Vec ℝ) :
    place tip theta corner = .ok (turned tip theta corner) := by
  rw [place, Vec.real_rotate, ok_bind, Vec.real_add, turned]

lemma turned_scaled (k theta : ℝ) (corner : Vec ℝ) :
    turned (tip.map (k * ·)) theta (corner.map (k * ·)) =
      (turned tip theta corner).map (k * ·) := by
  simp only [turned, Vec.map]
  congr 1 <;> ring

/-- A stretched line has the direction it had, and none if it had none. -/
lemma turn_scaled (hzoom : 0 < zoom) :
    turn (tip.map (zoom * ·)) (toward.map (zoom * ·)) = turn tip toward := by
  have hdirection : (⟨zoom * toward.x - zoom * tip.x, zoom * toward.y - zoom * tip.y⟩ : ℂ) =
      zoom * ⟨toward.x - tip.x, toward.y - tip.y⟩ := by
    apply Complex.ext
    · simp [mul_sub]
    · simp [mul_sub]
  simp only [turn_eq, Vec.map_x, Vec.map_y, hdirection, Complex.arg_real_mul _ hzoom]

lemma template_scaled {kind : ArrowKind} {length width : ℝ} {corners : List (Vec ℝ)}
    (h : template kind length width = .ok corners) (k : ℝ) :
    template kind (k * length) (k * width) = .ok (corners.map (Vec.map (k * ·))) := by
  have hneg : Arithmetic.neg (k * width) = k * Arithmetic.neg width := (mul_neg k width).symm
  have htail : k * length * 2 = k * (length * 2) := mul_assoc k length 2
  cases kind with
  | opened | hollowTriangle | filledTriangle =>
    cases h
    simp [template, Vec.map, Vec.origin, hneg, pure_eq_ok_iff]
  | none | hollowDiamond | filledDiamond =>
    cases h
    simp [template, Vec.map, Vec.origin, hneg, htail]

/-- The arrowhead of a stretched line is the stretched arrowhead. -/
lemma build_scaled (hzoom : 0 < zoom) (token : Text) :
    ∃ head, build token tip toward 1 = .ok head ∧
      build token (tip.map (zoom * ·)) (toward.map (zoom * ·)) zoom =
        .ok (head.map (scaled zoom)) := by
  by_cases hkind : ArrowKind.ofToken token = .none
  · refine ⟨none, ?_, ?_⟩
    · exact if_pos hkind
    · exact if_pos hkind
  · obtain ⟨corners, hcorners, -⟩ := exists_template (ArrowKind.ofToken token) (10 * 1) (5 * 1)
    refine ⟨_, build_of_place hkind hcorners (turn_eq tip toward) (place_real tip _), ?_⟩
    have hstretched := template_scaled hcorners zoom
    rw [← mul_assoc, ← mul_assoc, mul_one, mul_one, mul_comm zoom, mul_comm zoom] at hstretched
    have hturn := (turn_scaled tip toward hzoom).trans (turn_eq tip toward)
    rw [build_of_place hkind hstretched hturn (place_real _ _)]
    simp only [Option.map_some, scaled, List.map_map, Function.comp_def, turned_scaled]

end ArrowHead

namespace RelationGeometry

/-- The geometry with every point and every corner of an arrowhead multiplied by a number. -/
noncomputable def scaled (k : ℝ) (g : RelationGeometry ℝ) : RelationGeometry ℝ :=
  { g with points := g.points.map (Vec.map (k * ·)), heads := g.heads.map (ArrowHead.scaled k) }

section

variable {α : Type} [Arithmetic α]

/-- The geometry at the given zoom of a line through any points, not only through such as have
integers for coordinates. -/
def ofPoints (style : LineStyle) (points : List (Vec α)) (zoom : α) :
    Except Fault (RelationGeometry α) := do
  let points ← points.mapM (·.scale zoom)
  let left ← headAt style.left points zoom
  let right ← headAt style.right points.reverse zoom
  pure ⟨points, style.dash, left.toList ++ right.toList⟩

lemma build_eq_ofPoints (spec : LineSpec) (zoom : α) :
    build spec zoom = ofPoints spec.style (spec.points.map (Vec.map Arithmetic.ofInt)) zoom := by
  rw [build, ofPoints, scalePoints, List.mapM_map]
  rfl

end

variable {zoom : ℝ}

lemma mapM_scale (points : List (Vec ℝ)) (zoom : ℝ) :
    points.mapM (·.scale zoom) = .ok (points.map (Vec.map (zoom * ·))) := by
  rw [mapM_eq_ok_iff, List.map_map]
  refine List.map_congr_left fun p _ => ?_
  rw [Vec.real_scale, mul_comm p.x, mul_comm p.y]
  rfl

/-- The arrowhead at the beginning of stretched points is the stretched one. -/
lemma headAt_scaled (hzoom : 0 < zoom) (token : Text) (points : List (Vec ℝ)) :
    ∃ head, headAt token points 1 = .ok head ∧
      headAt token (points.map (Vec.map (zoom * ·))) zoom =
        .ok (head.map (ArrowHead.scaled zoom)) := by
  rcases points with _ | ⟨tip, _ | ⟨toward, rest⟩⟩
  · exact ⟨none, rfl, rfl⟩
  · exact ⟨none, rfl, rfl⟩
  · exact ArrowHead.build_scaled tip toward hzoom token

lemma ofPoints_scaled (hzoom : 0 < zoom) (style : LineStyle) (points : List (Vec ℝ)) :
    ∃ g, ofPoints style points 1 = .ok g ∧ g.points = points ∧
      ofPoints style points zoom = .ok (g.scaled zoom) := by
  obtain ⟨left, hleft, hleft'⟩ := headAt_scaled hzoom style.left points
  obtain ⟨right, hright, hright'⟩ := headAt_scaled hzoom style.right points.reverse
  have hone : points.map (Vec.map ((1 : ℝ) * ·)) = points := by
    refine (List.map_congr_left fun p _ => ?_).trans points.map_id
    simp only [Vec.map, one_mul, id]
  refine ⟨⟨points, style.dash, left.toList ++ right.toList⟩, ?_, rfl, ?_⟩
  · rw [ofPoints, mapM_scale, hone, ok_bind, hleft, ok_bind, hright, ok_bind]
    rfl
  · rw [List.map_reverse] at hright'
    rw [ofPoints, mapM_scale, ok_bind, hleft', ok_bind, hright', ok_bind]
    simp only [scaled, List.map_append, Option.toList_map]
    rfl

/-- Zoom stretches a relation and does nothing else: its points and the corners of its arrowheads are
those at zoom one, multiplied by the zoom, and dash, kinds and order stay. -/
theorem build_zoomed (hzoom : 0 < zoom) :
    (∀ spec : LineSpec, ∃ g, build spec 1 = .ok g ∧
        g.points = spec.points.map (Vec.map Int.cast) ∧ build spec zoom = .ok (g.scaled zoom)) ∧
      ∀ style points, ∃ g, ofPoints style points 1 = .ok g ∧ g.points = points ∧
        ofPoints style points zoom = .ok (g.scaled zoom) := by
  refine ⟨fun spec => ?_, ofPoints_scaled hzoom⟩
  rw [build_eq_ofPoints, build_eq_ofPoints]
  exact ofPoints_scaled hzoom spec.style _

/-- A line that leaves its first point for the same point: its hollow triangle points to the left at
zoom one, and is twice as large at zoom two. -/
theorem build_zoomed_repeated :
    (0 : ℝ) < 2 ∧
      build ⟨⟨.solid, "<<".toList, []⟩, [⟨3, 4⟩, ⟨3, 4⟩]⟩ (1 : ℝ) =
        .ok ⟨[⟨3, 4⟩, ⟨3, 4⟩], .solid,
          [⟨.hollowTriangle, [⟨3, 4⟩, ⟨13, 9⟩, ⟨13, -1⟩], true, .inverse⟩]⟩ ∧
      build ⟨⟨.solid, "<<".toList, []⟩, [⟨3, 4⟩, ⟨3, 4⟩]⟩ (2 : ℝ) =
        .ok ⟨[⟨6, 8⟩, ⟨6, 8⟩], .solid,
          [⟨.hollowTriangle, [⟨6, 8⟩, ⟨26, 18⟩, ⟨26, -2⟩], true, .inverse⟩]⟩ := by
  have htwo : (0 : ℝ) < 2 := by norm_num
  have hturn : ArrowHead.turn (⟨3, 4⟩ : Vec ℝ) ⟨3, 4⟩ = .ok (0 - Real.pi / 2) := by
    have hnowhere : (⟨0, 0⟩ : ℂ) = 0 := rfl
    rw [ArrowHead.turn_eq, sub_self, sub_self, hnowhere, Complex.arg_zero]
  have hcorners : [Vec.origin, ⟨Arithmetic.neg (5 * 1), 10 * 1⟩, ⟨5 * 1, 10 * 1⟩].map
      (ArrowHead.turned ⟨3, 4⟩ (0 - Real.pi / 2)) = [⟨3, 4⟩, ⟨13, 9⟩, ⟨13, -1⟩] := by
    simp only [ArrowHead.turned, Real.cos_sub_pi_div_two, Real.sin_sub_pi_div_two, Real.sin_zero,
      Real.cos_zero, Vec.origin, Arithmetic.neg, Arithmetic.real_ofInt, List.map_cons, List.map_nil]
    norm_num
  have hhead : headAt "<<".toList [(⟨3, 4⟩ : Vec ℝ), ⟨3, 4⟩] 1 =
      .ok (some ⟨.hollowTriangle, [⟨3, 4⟩, ⟨13, 9⟩, ⟨13, -1⟩], true, .inverse⟩) := by
    rw [headAt, ArrowHead.build_of_place (by decide) rfl hturn (ArrowHead.place_real _ _), hcorners]
    rfl
  obtain ⟨g, hone, -, hzoomed⟩ :=
    (build_zoomed htwo).1 ⟨⟨.solid, "<<".toList, []⟩, [⟨3, 4⟩, ⟨3, 4⟩]⟩
  have hbuilt : build ⟨⟨.solid, "<<".toList, []⟩, [⟨3, 4⟩, ⟨3, 4⟩]⟩ (1 : ℝ) =
      .ok ⟨[⟨3, 4⟩, ⟨3, 4⟩], .solid,
        [⟨.hollowTriangle, [⟨3, 4⟩, ⟨13, 9⟩, ⟨13, -1⟩], true, .inverse⟩]⟩ := by
    have hplaces : ([⟨3, 4⟩, ⟨3, 4⟩].map (Vec.map Arithmetic.ofInt)).map (Vec.map ((1 : ℝ) * ·)) =
        [⟨3, 4⟩, ⟨3, 4⟩] := by
      norm_num [Vec.map]
    rw [build_eq_ofPoints, ofPoints, mapM_scale, ok_bind, hplaces, hhead]
    rfl
  cases hone.symm.trans hbuilt
  refine ⟨htwo, hone, hzoomed.trans ?_⟩
  norm_num [scaled, ArrowHead.scaled, Vec.map]

end RelationGeometry

end UmlDrawing
