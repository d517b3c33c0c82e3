import Mathlib
import UmlDrawing.Line.Arrowhead
import UmlDrawing.Proofs.Fault
import UmlDrawing.Proofs.Geometry.Exact

/-! Arrowheads in exact arithmetic. The turn of the template puts its second axis on the line,
towards the rest of it, and its first axis across the line, on one side of it whatever the direction.
So the tip of the template lies on the end of the line, the rest of it on the line's own side, and the
line halves the head. -/
namespace UmlDrawing.ArrowHead

/-- The directions along a line that leaves its tip, and across it. -/
structure IsFrame (tip toward along across : Vec ℝ) : Prop where
  along_unit : along.x ^ 2 + along.y ^ 2 = 1
  /-- the line leaves the tip along the first direction -/
  leaves : ∃ d > 0, toward.x - tip.x = d * along.x ∧ toward.y - tip.y = d * along.y
  across_unit : across.x ^ 2 + across.y ^ 2 = 1
  perpendicular : along.x * across.x + along.y * across.y = 0
  /-- the second direction is on the same side of every line -/
  side : along.x * across.y - along.y * across.x = -1

/-- The place of a corner of the template: its second coordinate counts along the line, its first one
across. -/
def placed (tip along across corner : Vec ℝ) : Vec ℝ :=
  ⟨tip.x + corner.y * along.x + corner.x * across.x, tip.y + corner.y * along.y + corner.x * across.y⟩

/-- How far a point lies from the tip in the direction of the line. -/
def ahead (tip along p : Vec ℝ) : ℝ := (p.x - tip.x) * along.x + (p.y - tip.y) * along.y

/-- The point on the other side of the line, at the same distance from it. -/
def mirrored (tip along p : Vec ℝ) : Vec ℝ :=
  let d := ahead tip along p
  ⟨tip.x + (d + d) * along.x - (p.x - tip.x), tip.y + (d + d) * along.y - (p.y - tip.y)⟩

/-- Whether the line halves a head: mirrored, it is the same outline the other way round. An outline
that is not closed has to begin where the other one ends. -/
structure IsHalved (tip along : Vec ℝ) (head : ArrowHead ℝ) : Prop where
  rotated : head.points.map (mirrored tip along) ~r head.points.reverse
  opened : head.closed = false → head.points.map (mirrored tip along) = head.points.reverse

variable {tip toward along across p : Vec ℝ}

/-! The directions of a line. -/

lemma IsFrame.across_eq (h : IsFrame tip toward along across) : across = ⟨along.y, -along.x⟩ := by
  obtain ⟨x, y⟩ := across
  have hx : x = along.y := by
    linear_combination along.x * h.perpendicular - along.y * h.side - x * h.along_unit
  have hy : y = -along.x := by
    linear_combination along.x * h.side + along.y * h.perpendicular - y * h.along_unit
  rw [hx, hy]

lemma exists_isFrame (h : toward ≠ tip) : ∃ along across, IsFrame tip toward along across := by
  obtain ⟨x, y⟩ := tip
  obtain ⟨z, w⟩ := toward
  set d : ℝ := √((z - x) ^ 2 + (w - y) ^ 2) with hd
  have hpos : 0 < (z - x) ^ 2 + (w - y) ^ 2 := by
    by_contra hnot
    obtain rfl : z = x := by nlinarith [sq_nonneg (z - x), sq_nonneg (w - y)]
    obtain rfl : w = y := by nlinarith [sq_nonneg (w - y)]
    exact h rfl
  have hdpos : 0 < d := Real.sqrt_pos.2 hpos
  have hsq : d ^ 2 = (z - x) ^ 2 + (w - y) ^ 2 := Real.sq_sqrt hpos.le
  have hunit : ((z - x) / d) ^ 2 + ((w - y) / d) ^ 2 = 1 := by
    rw [div_pow, div_pow, ← add_div, ← hsq, div_self (pow_ne_zero 2 hdpos.ne')]
  refine ⟨⟨(z - x) / d, (w - y) / d⟩, ⟨(w - y) / d, -((z - x) / d)⟩, hunit, ⟨d, hdpos, ?_, ?_⟩, ?_, ?_, ?_⟩
  · exact (mul_div_cancel₀ _ hdpos.ne').symm
  · exact (mul_div_cancel₀ _ hdpos.ne').symm
  · linear_combination hunit
  · ring
  · linear_combination -hunit

/-! The turn of the template. -/

lemma turn_eq (tip toward : Vec ℝ) :
    turn tip toward =
      .ok (Complex.arg ⟨toward.x - tip.x, toward.y - tip.y⟩ - Real.pi / 2) := by
  have hquarter : Arithmetic.half (Arithmetic.pi : ℝ) = .ok (Real.pi / 2) := by
    rw [Arithmetic.half, Arithmetic.real_ofInt, Arithmetic.real_div _ (by norm_num)]
    norm_num [Arithmetic.pi]
  rw [turn, Vec.real_sub, ok_bind, hquarter]
  rfl

/-- The direction of a line is the angle of the direction along it. -/
lemma IsFrame.cos_sin_arg (h : IsFrame tip toward along across) :
    Real.cos (Complex.arg ⟨toward.x - tip.x, toward.y - tip.y⟩) = along.x ∧
      Real.sin (Complex.arg ⟨toward.x - tip.x, toward.y - tip.y⟩) = along.y := by
  obtain ⟨d, hd, hx, hy⟩ := h.leaves
  rw [hx, hy]
  set z : ℂ := ⟨d * along.x, d * along.y⟩ with hz
  have hnorm : ‖z‖ = d := by
    rw [Complex.norm_def, Complex.normSq_mk, Real.sqrt_eq_iff_mul_self_eq_of_pos hd]
    linear_combination -d ^ 2 * h.along_unit
  have hcos := Complex.norm_mul_cos_arg z
  have hsin := Complex.norm_mul_sin_arg z
  rw [hnorm] at hcos hsin
  exact ⟨mul_left_cancel₀ hd.ne' hcos, mul_left_cancel₀ hd.ne' hsin⟩

/-- A turned corner lies along and across the line. -/
lemma IsFrame.place_eq (h : IsFrame tip toward along across) (corner : Vec ℝ) :
    place tip (Complex.arg ⟨toward.x - tip.x, toward.y - tip.y⟩ - Real.pi / 2) corner =
      .ok (placed tip along across corner) := by
  obtain ⟨hcos, hsin⟩ := h.cos_sin_arg
  rw [place, Vec.real_rotate, ok_bind, Vec.real_add, Real.cos_sub_pi_div_two, Real.sin_sub_pi_div_two, hcos,
    hsin, placed, h.across_eq]
  congr 2 <;> ring

/-! The template. -/

/-- A corner on the other side of the axis of the template. -/
def flipped (corner : Vec ℝ) : Vec ℝ := ⟨-corner.x, corner.y⟩

/-- What the corners of a template have in common. -/
structure IsOutline (kind : ArrowKind) (length : ℝ) (corners : List (Vec ℝ)) : Prop where
  tip : Vec.origin ∈ corners
  behind : ∀ corner ∈ corners, corner = Vec.origin ∨ corner.y = length ∨ corner.y = length * 2
  rotated : corners.map flipped ~r corners.reverse
  opened : kind = .opened → corners.map flipped = corners.reverse

lemma exists_template (kind : ArrowKind) (length width : ℝ) :
    ∃ corners, template kind length width = .ok corners ∧ IsOutline kind length corners := by
  have horigin : flipped Vec.origin = Vec.origin := by simp [flipped, Vec.origin]
  have hleft : flipped ⟨Arithmetic.neg width, length⟩ = ⟨width, length⟩ := by
    simp [flipped, Arithmetic.neg]
  have hright : flipped ⟨width, length⟩ = ⟨Arithmetic.neg width, length⟩ := rfl
  have htail : flipped ⟨Arithmetic.ofInt 0, length * 2⟩ = ⟨Arithmetic.ofInt 0, length * 2⟩ := by
    simp [flipped]
  have htwo : length * Arithmetic.ofInt 2 = length * 2 := by simp
  cases kind with
  | opened =>
    refine ⟨_, rfl, by simp, by simp, ?_, fun _ => ?_⟩
    all_goals simp only [List.map_cons, List.map_nil, horigin, hleft, hright]
    · exact ⟨0, rfl⟩
    · rfl
  | hollowTriangle | filledTriangle =>
    refine ⟨_, rfl, by simp, by simp, ?_, fun h => absurd h (by decide)⟩
    simp only [List.map_cons, List.map_nil, horigin, hleft, hright]
    exact ⟨1, rfl⟩
  | none | hollowDiamond | filledDiamond =>
    refine ⟨_, rfl, by simp, by simp, ?_, fun h => absurd h (by decide)⟩
    simp only [List.map_cons, List.map_nil, htwo, horigin, hleft, hright, htail]
    exact ⟨1, rfl⟩

/-! The corners in their places. -/

lemma placed_origin (tip along across : Vec ℝ) : placed tip along across Vec.origin = tip := by
  simp [placed, Vec.origin]

/-- A corner lies as far ahead of the tip as its second coordinate says. -/
lemma IsFrame.ahead_placed (h : IsFrame tip toward along across) (corner : Vec ℝ) :
    ahead tip along (placed tip along across corner) = corner.y := by
  simp only [ahead, placed]
  linear_combination corner.y * h.along_unit + corner.x * h.perpendicular

lemma IsFrame.mirrored_placed (h : IsFrame tip toward along across) (corner : Vec ℝ) :
    mirrored tip along (placed tip along across corner) = placed tip along across (flipped corner) := by
  rw [mirrored, h.ahead_placed]
  simp only [placed, flipped]
  congr 1 <;> ring

lemma IsFrame.map_mirrored (h : IsFrame tip toward along across) (corners : List (Vec ℝ)) :
    (corners.map (placed tip along across)).map (mirrored tip along) =
      (corners.map flipped).map (placed tip along across) := by
  rw [List.map_map, List.map_map]
  exact List.map_congr_left fun corner _ => h.mirrored_placed corner

/-- A head is its template with every corner where the turn and the move to the tip put it. -/
lemma build_of_place {token : Text} {zoom theta : ℝ} (hkind : ArrowKind.ofToken token ≠ .none)
    {corners : List (Vec ℝ)}
    (hcorners : template (ArrowKind.ofToken token) (10 * zoom) (5 * zoom) = .ok corners)
    (hturn : turn tip toward = .ok theta) {position : Vec ℝ → Vec ℝ}
    (hplace : ∀ corner, place tip theta corner = .ok (position corner)) :
    build token tip toward zoom =
      .ok (some ⟨ArrowKind.ofToken token, corners.map position,
        decide (ArrowKind.ofToken token ≠ .opened), (ArrowKind.ofToken token).fill⟩) := by
  have hlength : (Arithmetic.ofInt baseLength : ℝ) * zoom = 10 * zoom := by norm_num [baseLength]
  have hwidth : (Arithmetic.ofInt baseWidth : ℝ) * zoom = 5 * zoom := by norm_num [baseWidth]
  have hplaces : corners.mapM (place tip theta) = .ok (corners.map position) := by
    rw [mapM_eq_ok_iff, List.map_map]
    exact List.map_congr_left fun corner _ => hplace corner
  simp only [build, if_neg hkind, hturn, Arithmetic.real_mul, hlength, hwidth, ok_bind, hcorners,
    hplaces]
  rfl

/-- The head of a token is its template with every corner in its place. -/
lemma build_eq (h : IsFrame tip toward along across) {token : Text} {zoom : ℝ}
    (hkind : ArrowKind.ofToken token ≠ .none) {corners : List (Vec ℝ)}
    (hcorners : template (ArrowKind.ofToken token) (10 * zoom) (5 * zoom) = .ok corners) :
    build token tip toward zoom =
      .ok (some ⟨ArrowKind.ofToken token, corners.map (placed tip along across),
        decide (ArrowKind.ofToken token ≠ .opened), (ArrowKind.ofToken token).fill⟩) :=
  build_of_place hkind hcorners (turn_eq tip toward) h.place_eq

/-- The head of a token of one to five equal characters has every corner `(a, b)` of its template at
`b` along the line and `a` across it. So the tip is a corner, the other ones lie ahead of it, and the
line halves the head. -/
theorem build_placed {c : Char} {n : ℕ} (hone : 1 ≤ n) (hfive : n ≤ 5) (hne : toward ≠ tip) {zoom : ℝ}
    (hzoom : 0 < zoom) :
    ∃ along across corners head, IsFrame tip toward along across ∧
      template (ArrowKind.ofLength n) (10 * zoom) (5 * zoom) = .ok corners ∧
      build (List.replicate n c) tip toward zoom = .ok (some head) ∧
      head.points = corners.map (placed tip along across) ∧
      tip ∈ head.points ∧ (∀ p ∈ head.points, p ≠ tip → 0 < ahead tip along p) ∧
      IsHalved tip along head := by
  obtain ⟨along, across, hframe⟩ := exists_isFrame hne
  obtain ⟨corners, hcorners, houtline⟩ :=
    exists_template (ArrowKind.ofLength n) (10 * zoom) (5 * zoom)
  have htoken : ArrowKind.ofToken (List.replicate n c) = ArrowKind.ofLength n :=
    ArrowKind.ofToken_replicate c hfive
  have hkind : ArrowKind.ofLength n ≠ .none := by
    interval_cases n <;> decide
  have hbuild := build_eq hframe (htoken ▸ hkind) (htoken ▸ hcorners)
  rw [htoken] at hbuild
  refine ⟨along, across, corners, _, hframe, hcorners, hbuild, rfl, ?_, ?_, ?_⟩
  · exact List.mem_map.2 ⟨Vec.origin, houtline.tip, placed_origin tip along across⟩
  · intro p hp hother
    obtain ⟨corner, hcorner, rfl⟩ := List.mem_map.1 hp
    rw [hframe.ahead_placed]
    obtain rfl | hy | hy := houtline.behind corner hcorner
    · exact absurd (placed_origin tip along across) hother
    · rw [hy]
      positivity
    · rw [hy]
      positivity
  · refine ⟨?_, fun hopen => ?_⟩
    · rw [hframe.map_mirrored, ← List.map_reverse]
      exact houtline.rotated.map _
    · rw [hframe.map_mirrored, ← List.map_reverse]
      congr 1
      exact houtline.opened (by simpa using hopen)

/-- A hollow triangle on a line that comes from above and from the left. -/
theorem build_placed_triangle :
    1 ≤ 2 ∧ 2 ≤ 5 ∧ (⟨97, 46⟩ : Vec ℝ) ≠ ⟨100, 50⟩ ∧ (0 : ℝ) < 2 ∧
      ∃ head : ArrowHead ℝ, build ">>".toList ⟨100, 50⟩ ⟨97, 46⟩ 2 = .ok (some head) ∧
        head.points = [⟨100, 50⟩, ⟨96, 28⟩, ⟨80, 40⟩] := by
  have hne : (⟨97, 46⟩ : Vec ℝ) ≠ ⟨100, 50⟩ := by simp
  have htwo : (0 : ℝ) < 2 := by norm_num
  obtain ⟨along, across, corners, head, hframe, hcorners, hbuild, hpoints, -, -, -⟩ :=
    build_placed (c := '>') (n := 2) (by decide) (by decide) hne htwo
  refine ⟨by decide, by decide, hne, htwo, head, hbuild, ?_⟩
  obtain ⟨d, hd, hx, hy⟩ := hframe.leaves
  have hunit := hframe.along_unit
  have hfive : d = 5 := by
    have hsq : d ^ 2 = 25 := by
      linear_combination d ^ 2 * -hunit - (d * along.x - 3) * hx - (d * along.y - 4) * hy
    nlinarith
  subst hfive
  have halong : along = ⟨-3 / 5, -4 / 5⟩ := by
    obtain ⟨x, y⟩ := along
    have hx' : x = -3 / 5 := by linarith
    have hy' : y = -4 / 5 := by linarith
    rw [hx', hy']
  cases hcorners
  rw [hpoints, hframe.across_eq, halong]
  norm_num [placed, Vec.origin, Arithmetic.neg]

end UmlDrawing.ArrowHead
