import UmlDrawing.Line.Relation
import UmlDrawing.Proofs.Fault
import UmlDrawing.Proofs.Line.Style

/-! Relations seen from their other end. A style read backwards has its arrowheads swapped, and an
arrowhead does not depend on the direction its token is read in, so the picture stays as it is. -/
namespace UmlDrawing

lemma Dash.ofBody_reverse (body : Text) : Dash.ofBody body.reverse = Dash.ofBody body := by
  simp [Dash.ofBody, List.reverse_eq_iff]

namespace ArrowKind

lemma ofToken_reverse (token : Text) : ofToken token.reverse = ofToken token := by
  have huniform : uniform token.reverse = uniform token := by
    rw [Bool.eq_iff_iff, uniform_iff, uniform_iff]
    simp only [List.mem_reverse]
  have hsupported : supported token.reverse = supported token := by
    rw [supported, supported, huniform, List.length_reverse]
  rw [ofToken, ofToken, hsupported, List.length_reverse]

end ArrowKind

namespace RelationGeometry

variable {α : Type}

/-- The geometry with its points and its arrowheads in the opposite order. -/
def reverse (g : RelationGeometry α) : RelationGeometry α :=
  ⟨g.points.reverse, g.dash, g.heads.reverse⟩

@[simp] lemma reverse_reverse (g : RelationGeometry α) : g.reverse.reverse = g := by
  simp [reverse]

variable [Arithmetic α]

/-- An arrowhead does not depend on the direction in which its token is read. -/
lemma headAt_reverse (token : Text) (points : List (Vec α)) (zoom : α) :
    headAt token.reverse points zoom = headAt token points zoom := by
  rcases points with _ | ⟨tip, _ | ⟨toward, rest⟩⟩
  · rfl
  · rfl
  · simp only [headAt, ArrowHead.build, ArrowKind.ofToken_reverse]

lemma scalePoints_reverse {points : List (Vec Int)} {zoom : α} {scaled : List (Vec α)}
    (h : scalePoints points zoom = .ok scaled) :
    scalePoints points.reverse zoom = .ok scaled.reverse := by
  unfold scalePoints at h ⊢
  induction points generalizing scaled with
  | nil =>
    cases h
    rfl
  | cons p points ih =>
    rw [List.mapM_cons] at h
    obtain ⟨q, hq, h⟩ := bind_eq_ok_iff.1 h
    obtain ⟨qs, hqs, h⟩ := bind_eq_ok_iff.1 h
    cases h
    rw [List.reverse_cons, List.mapM_append, ih hqs, ok_bind, List.mapM_cons, hq, List.reverse_cons]
    rfl

/-- A geometry is built of the scaled points and of the arrowheads at either end. -/
lemma build_eq_ok_iff {spec : LineSpec} {zoom : α} {g : RelationGeometry α} :
    build spec zoom = .ok g ↔
      ∃ points left right, scalePoints spec.points zoom = .ok points ∧
        headAt spec.style.left points zoom = .ok left ∧
        headAt spec.style.right points.reverse zoom = .ok right ∧
        g = ⟨points, spec.style.dash, left.toList ++ right.toList⟩ := by
  constructor
  · intro h
    obtain ⟨points, hpoints, h⟩ := bind_eq_ok_iff.1 h
    obtain ⟨left, hleft, h⟩ := bind_eq_ok_iff.1 h
    obtain ⟨right, hright, h⟩ := bind_eq_ok_iff.1 h
    exact ⟨points, left, right, hpoints, hleft, hright, (pure_eq_ok_iff.1 h).symm⟩
  · rintro ⟨points, left, right, hpoints, hleft, hright, rfl⟩
    rw [build, hpoints, ok_bind, hleft, ok_bind, hright, ok_bind]
    rfl

lemma build_reverse_of_build {spec : LineSpec} {zoom : α} {g : RelationGeometry α}
    (h : build spec zoom = .ok g) : build spec.reverse zoom = .ok g.reverse := by
  obtain ⟨points, left, right, hpoints, hleft, hright, rfl⟩ := build_eq_ok_iff.1 h
  refine build_eq_ok_iff.2 ⟨points.reverse, right, left, scalePoints_reverse hpoints, ?_, ?_, ?_⟩
  · exact (headAt_reverse ..).trans hright
  · rw [List.reverse_reverse]
    exact (headAt_reverse ..).trans hleft
  · cases left <;> cases right <;> rfl

/-- The relation seen from its other end has the geometry in the opposite order, and it has one if
the relation itself has one. -/
theorem build_reverse_eq_ok_iff (spec : LineSpec) {zoom : α} {g : RelationGeometry α} :
    build spec.reverse zoom = .ok g.reverse ↔ build spec zoom = .ok g := by
  constructor
  · intro h
    have hback := build_reverse_of_build h
    have hspec : spec.reverse.reverse = spec := by simp [LineSpec.reverse]
    rwa [hspec, reverse_reverse] at hback
  · exact build_reverse_of_build

/-- Drawing a relation from its other end, with the style read backwards and the points in the
opposite order, gives the same dash, the points in the opposite order and the same arrowheads in
the opposite order; and it fails only where drawing the relation itself fails. -/
theorem build_decode_reverse {left body right : Text}
    (hleft : ∀ c ∈ left, LineStyle.isHead c = true)
    (hbody : ∀ c ∈ body, LineStyle.isBody c = true)
    (hright : ∀ c ∈ right, LineStyle.isHead c = true) (hne : body ≠ [])
    (points : List (Vec Int)) (zoom : α) (g : RelationGeometry α) :
    build ⟨LineStyle.decode (some (left ++ body ++ right).reverse), points.reverse⟩ zoom =
        .ok ⟨g.points.reverse, g.dash, g.heads.reverse⟩ ↔
      build ⟨LineStyle.decode (some (left ++ body ++ right)), points⟩ zoom = .ok g := by
  have hback : LineStyle.decode (some (left ++ body ++ right).reverse) =
      ⟨.ofBody body, right.reverse, left.reverse⟩ := by
    have hswap : (left ++ body ++ right).reverse =
        right.reverse ++ body.reverse ++ left.reverse := by
      simp [List.append_assoc]
    rw [hswap, LineStyle.decode_append
      (fun c hc => hright c (List.mem_reverse.1 hc)) (fun c hc => hbody c (List.mem_reverse.1 hc))
      (fun c hc => hleft c (List.mem_reverse.1 hc)) (by simpa using hne), Dash.ofBody_reverse]
  rw [hback, LineStyle.decode_append hleft hbody hright hne]
  exact build_reverse_eq_ok_iff ⟨⟨.ofBody body, left, right⟩, points⟩

/-- Exact arithmetic for lines along the axes: integers, with angles in quarter turns. -/
@[reducible] def rightAngled : Arithmetic Int where
  ofInt n := n
  zero := 0
  pi := 2
  add a b := .ok (a + b)
  sub a b := .ok (a - b)
  mul a b := .ok (a * b)
  div a b := if b = 0 then .error .divisionByZero else .ok (a / b)
  neg a := -a
  inexact a := .ok a
  hypot a b := .ok (a.natAbs + b.natAbs)
  direction rise run := .ok (if rise < 0 then -1 else if 0 < rise then 1 else if run < 0 then 2 else 0)
  cos turns := .ok (if turns % 2 = 0 then 1 - turns % 4 else 0)
  sin turns := .ok (if turns % 2 = 0 then 0 else 2 - turns % 4)
  ceil a := .ok a
  lt a b := decide (a < b)
  le a b := decide (a ≤ b)

/-- A dashed line around a corner, with a filled triangle at its left end and an open head at its
right end. -/
def corner : RelationGeometry Int :=
  ⟨[⟨0, 0⟩, ⟨50, 0⟩, ⟨50, 30⟩], .long,
    [⟨.filledTriangle, [⟨0, 0⟩, ⟨10, 5⟩, ⟨10, -5⟩], true, .foreground⟩,
      ⟨.opened, [⟨55, 20⟩, ⟨50, 30⟩, ⟨45, 20⟩], false, .none⟩]⟩

/-- The line around the corner, drawn from the left and from the right. -/
theorem build_decode_reverse_corner :
    (∀ c ∈ "<<<".toList, LineStyle.isHead c = true) ∧
      (∀ c ∈ ".".toList, LineStyle.isBody c = true) ∧
      (∀ c ∈ ">".toList, LineStyle.isHead c = true) ∧
      @build Int rightAngled
        ⟨LineStyle.decode (some "<<<.>".toList), [⟨0, 0⟩, ⟨50, 0⟩, ⟨50, 30⟩]⟩ 1 = .ok corner ∧
      @build Int rightAngled
        ⟨LineStyle.decode (some ">.<<<".toList), [⟨50, 30⟩, ⟨50, 0⟩, ⟨0, 0⟩]⟩ 1 =
          .ok ⟨corner.points.reverse, corner.dash, corner.heads.reverse⟩ := by
  have hleft : ∀ c ∈ "<<<".toList, LineStyle.isHead c = true := List.all_eq_true.1 rfl
  have hbody : ∀ c ∈ ".".toList, LineStyle.isBody c = true := List.all_eq_true.1 rfl
  have hright : ∀ c ∈ ">".toList, LineStyle.isHead c = true := List.all_eq_true.1 rfl
  have hbuilt : @build Int rightAngled
      ⟨LineStyle.decode (some "<<<.>".toList), [⟨0, 0⟩, ⟨50, 0⟩, ⟨50, 30⟩]⟩ 1 = .ok corner := rfl
  exact ⟨hleft, hbody, hright, hbuilt,
    (@build_decode_reverse Int rightAngled "<<<".toList ".".toList ">".toList hleft hbody hright
      (by decide) [⟨0, 0⟩, ⟨50, 0⟩, ⟨50, 30⟩] 1 corner).2 hbuilt⟩

end RelationGeometry

end UmlDrawing
