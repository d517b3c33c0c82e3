import UmlDrawing.Line.Dashes
import UmlDrawing.Proofs.Geometry.Exact

/-! Places on a line by their distance from its beginning, measured along the line. On each straight
piece the place moves evenly from one end to the other; where two pieces meet they agree. -/
namespace UmlDrawing

open Dashes (Segment segments)

namespace Segment

/-- The length of a straight piece. -/
noncomputable def span (s : Segment ℝ) : ℝ := √((s.2.x - s.1.x) ^ 2 + (s.2.y - s.1.y) ^ 2)

/-- The place on a straight piece at a distance from its start. -/
noncomputable def along (s : Segment ℝ) (d : ℝ) : Vec ℝ :=
  ⟨s.1.x + (s.2.x - s.1.x) / span s * d, s.1.y + (s.2.y - s.1.y) / span s * d⟩

variable {s : Segment ℝ}

lemma span_nonneg (s : Segment ℝ) : 0 ≤ span s := Real.sqrt_nonneg _

lemma along_zero (s : Segment ℝ) : along s 0 = s.1 := by
  simp [along]

lemma span_of_level (x z y : ℝ) : span (⟨x, y⟩, ⟨z, y⟩) = |z - x| := by
  simp [span, Real.sqrt_sq_eq_abs]

lemma span_of_upright (x y w : ℝ) : span (⟨x, y⟩, ⟨x, w⟩) = |w - y| := by
  simp [span, Real.sqrt_sq_eq_abs]

/-- A piece without length begins and ends at one point. -/
lemma eq_of_span_eq_zero (h : span s = 0) : s.2 = s.1 := by
  obtain ⟨⟨x, y⟩, ⟨z, w⟩⟩ := s
  have hsum : (z - x) ^ 2 + (w - y) ^ 2 = 0 := (Real.sqrt_eq_zero (by positivity)).1 h
  obtain rfl : z = x := by nlinarith
  obtain rfl : w = y := by nlinarith
  rfl

lemma along_span (s : Segment ℝ) : along s (span s) = s.2 := by
  by_cases h : span s = 0
  · rw [h, along_zero, eq_of_span_eq_zero h]
  · simp [along, h]

end Segment

open Segment (span along)

namespace Polyline

variable {points : List (Vec ℝ)} {i : ℕ} {s : ℝ}

/-- The distance of the beginning of a straight piece from the beginning of the line. -/
noncomputable def arc (points : List (Vec ℝ)) (i : ℕ) : ℝ := (((segments points).take i).map span).sum

/-- The length of a line. -/
noncomputable def length (points : List (Vec ℝ)) : ℝ := ((segments points).map span).sum

/-- The place on a line at a distance from its beginning. -/
noncomputable def pointAt : List (Vec ℝ) → ℝ → Vec ℝ
  | [], _ => Vec.origin
  | [p], _ => p
  | p :: q :: rest, s =>
    if s ≤ span (p, q) then along (p, q) s else pointAt (q :: rest) (s - span (p, q))

@[simp] lemma arc_zero (points : List (Vec ℝ)) : arc points 0 = 0 := rfl

lemma arc_succ (hi : i < (segments points).length) :
    arc points (i + 1) = arc points i + span (segments points)[i] := by
  rw [arc, List.take_add_one, List.getElem?_eq_getElem hi, Option.toList_some, List.map_append,
    List.sum_append, List.map_singleton, List.sum_singleton, arc]

lemma arc_of_length_le (hi : (segments points).length ≤ i) : arc points i = length points := by
  rw [arc, List.take_of_length_le hi, length]

lemma arc_mono (points : List (Vec ℝ)) : Monotone (arc points) := by
  refine monotone_nat_of_le_succ fun i => ?_
  by_cases hi : i < (segments points).length
  · rw [arc_succ hi]
    exact le_add_of_nonneg_right (Segment.span_nonneg _)
  · rw [arc_of_length_le (by omega), arc_of_length_le (by omega)]

lemma arc_nonneg (points : List (Vec ℝ)) (i : ℕ) : 0 ≤ arc points i := arc_mono points (Nat.zero_le i)

lemma arc_le_length (points : List (Vec ℝ)) (i : ℕ) : arc points i ≤ length points := by
  rw [← arc_of_length_le (le_max_right i _)]
  exact arc_mono points (le_max_left i _)

/-- Every distance that is less than the length falls into a straight piece. -/
lemma exists_arc (hs : 0 ≤ s) (hlt : s < length points) :
    ∃ i < (segments points).length, arc points i ≤ s ∧ s < arc points (i + 1) := by
  have hup (n : ℕ) (hn : s < arc points n) : ∃ i < n, arc points i ≤ s ∧ s < arc points (i + 1) := by
    induction n with
    | zero => exact absurd hs (not_le.2 hn)
    | succ n ih =>
      by_cases hlast : s < arc points n
      · obtain ⟨i, hi, hplace⟩ := ih hlast
        exact ⟨i, by omega, hplace⟩
      · exact ⟨n, by omega, not_lt.1 hlast, hn⟩
  exact hup _ (by rwa [arc_of_length_le le_rfl])

lemma arc_cons_cons (p q : Vec ℝ) (rest : List (Vec ℝ)) (i : ℕ) :
    arc (p :: q :: rest) (i + 1) = span (p, q) + arc (q :: rest) i := rfl

lemma pointAt_zero (p : Vec ℝ) (rest : List (Vec ℝ)) : pointAt (p :: rest) 0 = p := by
  cases rest with
  | nil => rfl
  | cons q rest =>
    rw [pointAt, if_pos (Segment.span_nonneg _)]
    exact Segment.along_zero (p, q)

/-- On a straight piece the place moves from its start to its end. -/
theorem pointAt_arc_add (hi : i < (segments points).length) {d : ℝ} (hd : 0 ≤ d)
    (hle : d ≤ span (segments points)[i]) :
    pointAt points (arc points i + d) = along (segments points)[i] d := by
  induction points generalizing i with
  | nil => exact absurd hi (Nat.not_lt_zero i)
  | cons p rest ih =>
    cases rest with
    | nil => exact absurd hi (Nat.not_lt_zero i)
    | cons q rest =>
      cases i with
      | zero =>
        have hd' : d ≤ span (p, q) := hle
        rw [arc_zero, zero_add, pointAt, if_pos hd']
        rfl
      | succ i =>
        have hrest := ih (Nat.lt_of_succ_lt_succ hi) hle
        rw [arc_cons_cons, add_assoc, pointAt]
        split
        · next hmeet =>
          -- a place that is no farther than the first piece is where this piece meets the rest
          have hnone : arc (q :: rest) i + d = 0 := by
            have := arc_nonneg (q :: rest) i
            linarith
          rw [hnone, pointAt_zero] at hrest
          rw [hnone, add_zero, Segment.along_span]
          exact hrest
        · rw [add_sub_cancel_left]
          exact hrest

end Polyline

end UmlDrawing
