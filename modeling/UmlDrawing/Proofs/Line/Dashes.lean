import UmlDrawing.Proofs.Fault
import UmlDrawing.Proofs.Line.Distance
import UmlDrawing.Proofs.Line.Overlap
import UmlDrawing.Proofs.Line.Pattern

/-! The visible pieces of a dashed line. The corners of the line and the marks of its pattern are two
subdivisions of one distance; a walk goes from each mark to the next and collects what the straight
pieces have in common with the entries that are drawn. -/
namespace UmlDrawing.Dashes

open Polyline Segment Stretch

variable {points : List (Vec ℝ)} {pattern : List ℝ} {i k : ℕ} {s : ℝ}

/-- The piece of a line between the ends of a stretch. -/
noncomputable def pieceOf (points : List (Vec ℝ)) (a : Stretch) : Segment ℝ :=
  (pointAt points a.start, pointAt points a.stop)

lemma piece_real {e : Segment ℝ} (he : span e ≠ 0) (start stop : ℝ) :
    piece e (span e) start stop = .ok (along e start, along e stop) := by
  simp only [piece, Vec.real_sub, ok_bind, Vec.real_divide _ he]
  rfl

/-- The phase after a step, and the pieces with the one that was stepped over if it is drawn. -/
noncomputable def stepped (pattern : List ℝ) (e : Segment ℝ) (done step : ℝ)
    (state : Phase ℝ × List (Segment ℝ)) : Phase ℝ × List (Segment ℝ) :=
  (if state.1.remaining - step ≤ 0 then
      ⟨(state.1.index + 1) % pattern.length,
        pattern.getD ((state.1.index + 1) % pattern.length) 0⟩
    else ⟨state.1.index, state.1.remaining - step⟩,
    if state.1.index % 2 = 0 ∧ 0 < step then
      state.2 ++ [(along e done, along e (done + step))]
    else state.2)

lemma advance_real (pattern : List ℝ) (phase : Phase ℝ) (step : ℝ) :
    phase.advance pattern step = .ok
      (if phase.remaining - step ≤ 0 then
        ⟨(phase.index + 1) % pattern.length, pattern.getD ((phase.index + 1) % pattern.length) 0⟩
      else ⟨phase.index, phase.remaining - step⟩) := by
  simp only [Phase.advance, Arithmetic.real_sub, ok_bind, Arithmetic.real_ofInt, Int.cast_zero,
    Arithmetic.real_le_iff]
  split <;> rfl

/-- A walk goes on by a step, to the end of the entry or of the straight piece. -/
lemma walk_of_lt {e : Segment ℝ} {done step : ℝ} (hdone : done < span e) (hnonneg : 0 ≤ done)
    (state : Phase ℝ × List (Segment ℝ)) (hstep : step = min state.1.remaining (span e - done))
    (fuel : ℕ) :
    walk pattern e (span e) (fuel + 1) done state.1 state.2 =
      walk pattern e (span e) fuel (done + step) (stepped pattern e done step state).1
        (stepped pattern e done step state).2 := by
  have hspan : span e ≠ 0 := by linarith
  have hmin : Arithmetic.min state.1.remaining (span e - done) = step := by
    rw [Arithmetic.real_min, hstep]
  rw [walk, if_pos (Arithmetic.real_lt_iff.2 hdone), Arithmetic.real_sub, ok_bind]
  simp only [hmin, Arithmetic.real_add, ok_bind, advance_real, Arithmetic.real_lt_iff,
    Arithmetic.real_zero, piece_real hspan]
  by_cases hdrawn : state.1.index % 2 = 0 ∧ 0 < step
  · simp only [if_pos hdrawn, stepped]
    rfl
  · simp only [if_neg hdrawn, stepped]
    rfl

lemma walk_of_not_lt {e : Segment ℝ} {done : ℝ} (hdone : ¬ done < span e) (phase : Phase ℝ)
    (pieces : List (Segment ℝ)) (fuel : ℕ) :
    walk pattern e (span e) (fuel + 1) done phase pieces = .ok (phase, pieces) := by
  rw [walk, if_neg (mt Arithmetic.real_lt_iff.1 hdone)]
  rfl

/-- How far entries reach that are not negative. -/
lemma reach_real (hnonneg : ∀ l ∈ pattern, 0 ≤ l) (start : ℝ) :
    pattern.foldlM (fun r p => Arithmetic.add r
      (if Arithmetic.lt p Arithmetic.zero then Arithmetic.neg p else p)) start =
      .ok (start + pattern.sum) := by
  induction pattern generalizing start with
  | nil => exact congrArg Except.ok (add_zero start).symm
  | cons l pattern ih =>
    obtain ⟨hl, hrest⟩ := List.forall_mem_cons.1 hnonneg
    have hlt : ¬ Arithmetic.lt l Arithmetic.zero = true :=
      mt Arithmetic.real_lt_iff.1 (not_lt.2 hl)
    rw [List.foldlM_cons, if_neg hlt, Arithmetic.real_add, ok_bind, ih hrest, List.sum_cons, add_assoc]

lemma stepBound_real (hnonneg : ∀ l ∈ pattern, 0 ≤ l) (hsum : 0 < pattern.sum) (length : ℝ) :
    stepBound pattern pattern.sum length =
      (⌈(length + pattern.sum) / pattern.sum⌉.toNat + 4) * (pattern.length + 1) := by
  simp only [stepBound, reach_real hnonneg, ok_bind, Arithmetic.real_div _ hsum.ne',
    Arithmetic.real_ceil]
  rfl

/-- Where a walk stands: at the later one of the beginnings of a straight piece and of an entry, with
all overlaps up to there collected. -/
structure Stands (points : List (Vec ℝ)) (pattern : List ℝ) (i k : ℕ) (s : ℝ)
    (state : Phase ℝ × List (Segment ℝ)) : Prop where
  place : s = max (arc points i) (mark pattern k)
  le_mark : s ≤ mark pattern (k + 1)
  index : state.1.index = k % pattern.length
  remaining : state.1.remaining = mark pattern (k + 1) - s
  collected : ∃ as, UpTo (arc points) (mark pattern) (IsDrawn pattern) s as ∧
    state.2 = as.map (pieceOf points)

namespace Stands

variable {state : Phase ℝ × List (Segment ℝ)}

lemma arc_le (h : Stands points pattern i k s state) : arc points i ≤ s :=
  h.place ▸ le_max_left _ _

lemma mark_le (h : Stands points pattern i k s state) : mark pattern k ≤ s :=
  h.place ▸ le_max_right _ _

/-- At the end of a straight piece the next one begins. -/
lemma next (h : Stands points pattern i k s state) (hend : s = arc points (i + 1)) :
    Stands points pattern (i + 1) k s state :=
  ⟨by rw [← hend, max_eq_left h.mark_le], h.le_mark, h.index, h.remaining, h.collected⟩

variable (hpattern : pattern ≠ []) (hnonneg : ∀ l ∈ pattern, 0 ≤ l)
include hpattern hnonneg

/-- What is stepped over is collected. -/
lemma collect (h : Stands points pattern i k s state) (hi : i < (segments points).length)
    (hs : s ≤ arc points (i + 1)) {stop : ℝ}
    (hstop : stop = min (arc points (i + 1)) (mark pattern (k + 1))) :
    ∃ as, UpTo (arc points) (mark pattern) (IsDrawn pattern) stop as ∧
      (stepped pattern (segments points)[i] (s - arc points i) (stop - s) state).2 =
        as.map (pieceOf points) := by
  obtain ⟨as, has, hpieces⟩ := h.collected
  have hle : s ≤ stop := hstop ▸ le_min hs h.le_mark
  have hstopArc : stop ≤ arc points (i + 1) := hstop ▸ min_le_left _ _
  have hspan := arc_succ hi
  have hnext := has
  rw [h.place] at hnext
  have hnext := hnext.step (s := stop) (arc_mono points) (mark_mono hpattern hnonneg)
    (by rw [← h.place, ← hstop]; exact hle) hstop
  rw [← h.place] at hnext
  have hpiece : pieceOf points ⟨s, stop⟩ =
      (along (segments points)[i] (s - arc points i),
        along (segments points)[i] (s - arc points i + (stop - s))) := by
    have harc := h.arc_le
    rw [← pointAt_arc_add hi (by linarith) (by linarith),
      ← pointAt_arc_add hi (by linarith) (by linarith), pieceOf]
    congr 2 <;> ring
  refine ⟨_, hnext, ?_⟩
  rw [stepped, h.index, hpieces, ← hpiece]
  simp only [sub_pos]
  by_cases hdrawn : IsDrawn pattern k ∧ s < stop
  · rw [if_pos hdrawn, if_pos (show k % pattern.length % 2 = 0 ∧ s < stop from hdrawn)]
    simp
  · rw [if_neg hdrawn, if_neg (show ¬ (k % pattern.length % 2 = 0 ∧ s < stop) from hdrawn)]

/-- A step to the end of the entry. -/
lemma step_entry (h : Stands points pattern i k s state) (hi : i < (segments points).length)
    (hle : mark pattern (k + 1) ≤ arc points (i + 1)) :
    Stands points pattern i (k + 1) (mark pattern (k + 1))
      (stepped pattern (segments points)[i] (s - arc points i) (mark pattern (k + 1) - s) state) := by
  have hmono := mark_mono hpattern hnonneg
  have hend : state.1.remaining - (mark pattern (k + 1) - s) ≤ 0 := by rw [h.remaining]; linarith
  have hindex : (state.1.index + 1) % pattern.length = (k + 1) % pattern.length := by
    rw [h.index, Nat.mod_add_mod]
  refine ⟨(max_eq_right (h.arc_le.trans h.le_mark)).symm, hmono (Nat.le_succ _), ?_, ?_,
    h.collect hpattern hnonneg hi (h.le_mark.trans hle) (min_eq_right hle).symm⟩
  · simp only [stepped, if_pos hend, hindex]
  · simp only [stepped, if_pos hend, hindex, mark_succ hpattern (k + 1), add_sub_cancel_left]
    rfl

/-- A step to the end of the straight piece. -/
lemma step_piece (h : Stands points pattern i k s state) (hi : i < (segments points).length)
    (hs : s ≤ arc points (i + 1)) (hlt : arc points (i + 1) < mark pattern (k + 1)) :
    Stands points pattern (i + 1) k (arc points (i + 1))
      (stepped pattern (segments points)[i] (s - arc points i) (arc points (i + 1) - s) state) := by
  have hleft : ¬ state.1.remaining - (arc points (i + 1) - s) ≤ 0 := by rw [h.remaining]; linarith
  refine ⟨(max_eq_left (h.mark_le.trans hs)).symm, hlt.le, ?_, ?_,
    h.collect hpattern hnonneg hi hs (min_eq_left hlt.le).symm⟩
  · simp only [stepped, if_neg hleft, h.index]
  · simp only [stepped, if_neg hleft]
    rw [h.remaining]
    ring

/-- A walk along a straight piece comes to its end if it may take a step for every entry that begins
before. -/
theorem walk_stands (h : Stands points pattern i k s state) (hi : i < (segments points).length)
    (hs : s ≤ arc points (i + 1)) {fuel : ℕ} (hfuel : arc points (i + 1) < mark pattern (k + fuel)) :
    ∃ l state', walk pattern (segments points)[i] (span (segments points)[i]) (fuel + 1)
        (s - arc points i) state.1 state.2 = .ok state' ∧
      Stands points pattern (i + 1) l (arc points (i + 1)) state' := by
  have hspan := arc_succ hi
  have harc := h.arc_le
  induction fuel generalizing k s state with
  | zero => exact absurd (hs.trans_lt hfuel) (not_lt.2 h.mark_le)
  | succ fuel ih =>
    obtain hend | hlt := hs.eq_or_lt
    · refine ⟨k, state, walk_of_not_lt (by linarith) _ _ _, ?_⟩
      rw [← hend]
      exact h.next hend
    · have hdone : s - arc points i < span (segments points)[i] := by linarith
      have hleft : span (segments points)[i] - (s - arc points i) = arc points (i + 1) - s := by
        linarith
      obtain hle | hgt := le_or_gt (mark pattern (k + 1)) (arc points (i + 1))
      · have hstep : mark pattern (k + 1) - s =
            min state.1.remaining (span (segments points)[i] - (s - arc points i)) := by
          rw [h.remaining, hleft, min_eq_left (by linarith)]
        have hplace : s - arc points i + (mark pattern (k + 1) - s) =
            mark pattern (k + 1) - arc points i := by ring
        rw [walk_of_lt hdone (by linarith) state hstep, hplace]
        refine ih (h.step_entry hpattern hnonneg hi hle) hle ?_ (harc.trans h.le_mark)
        rwa [Nat.add_assoc, Nat.add_comm 1]
      · have hstep : arc points (i + 1) - s =
            min state.1.remaining (span (segments points)[i] - (s - arc points i)) := by
          rw [h.remaining, hleft, min_eq_right (by linarith)]
        rw [walk_of_lt hdone (by linarith) state hstep]
        exact ⟨k, _, walk_of_not_lt (by linarith) _ _ _, h.step_piece hpattern hnonneg hi hs hgt⟩

/-- The bound on the number of steps allows one for every entry that begins before the end of a
straight piece. -/
lemma lt_mark_stepBound (h : Stands points pattern i k s state) (hsum : 0 < pattern.sum)
    (hi : i < (segments points).length) :
    ∃ fuel, stepBound pattern pattern.sum (span (segments points)[i]) = fuel + 1 ∧
      arc points (i + 1) < mark pattern (k + fuel) := by
  rw [stepBound_real hnonneg hsum]
  obtain ⟨m, hm⟩ : ∃ m, m = ⌈(span (segments points)[i] + pattern.sum) / pattern.sum⌉.toNat :=
    ⟨_, rfl⟩
  have hrounds : span (segments points)[i] + pattern.sum ≤ m * pattern.sum := by
    have hceil : (span (segments points)[i] + pattern.sum) / pattern.sum ≤ m := by
      rw [hm]
      exact (Int.le_ceil _).trans (by exact_mod_cast Int.self_le_toNat _)
    rwa [div_le_iff₀ hsum] at hceil
  have hfuel : (m + 4) * (pattern.length + 1) =
      1 + pattern.length * m + (m + 4 * pattern.length + 2) + 1 := by ring
  refine ⟨1 + pattern.length * m + (m + 4 * pattern.length + 2), by rw [← hm, hfuel], ?_⟩
  have harc := h.arc_le
  have hmark := h.le_mark
  calc arc points (i + 1) = arc points i + span (segments points)[i] := arc_succ hi
    _ < mark pattern (k + 1) + m * pattern.sum := by linarith
    _ = mark pattern (k + 1 + pattern.length * m) := (mark_add_rounds hpattern _ _).symm
    _ ≤ mark pattern (k + (1 + pattern.length * m + (m + 4 * pattern.length + 2))) :=
        mark_mono hpattern hnonneg (by omega)

end Stands

/-- Along one straight piece the overlaps are collected. -/
lemma walkSegment_stands {state : Phase ℝ × List (Segment ℝ)}
    (h : Stands points pattern i k (arc points i) state) (hpattern : pattern ≠ [])
    (hnonneg : ∀ l ∈ pattern, 0 ≤ l) (hsum : 0 < pattern.sum) (hi : i < (segments points).length) :
    ∃ l state', walkSegment pattern pattern.sum state (segments points)[i] = .ok state' ∧
      Stands points pattern (i + 1) l (arc points (i + 1)) state' := by
  have hspan := arc_succ hi
  have hlength : (Vec.length ⟨(segments points)[i].2.x - (segments points)[i].1.x,
      (segments points)[i].2.y - (segments points)[i].1.y⟩ : Except Fault ℝ) =
      .ok (span (segments points)[i]) := rfl
  rw [walkSegment, Vec.real_sub, ok_bind, hlength, ok_bind, Arithmetic.real_zero]
  by_cases hpos : 0 < span (segments points)[i]
  · rw [if_pos (Arithmetic.real_lt_iff.2 hpos)]
    obtain ⟨fuel, hbound, hfuel⟩ := h.lt_mark_stepBound hpattern hnonneg hsum hi
    have hwalk := h.walk_stands hpattern hnonneg hi (by linarith) hfuel
    rw [hbound]
    rwa [sub_self] at hwalk
  · -- a piece without length is left out, and begins where the next one does
    have hzero : span (segments points)[i] = 0 := le_antisymm (not_lt.1 hpos) (span_nonneg _)
    have hend : arc points (i + 1) = arc points i := by rw [hspan, hzero, add_zero]
    rw [if_neg (mt Arithmetic.real_lt_iff.1 hpos), hend]
    exact ⟨k, state, rfl, h.next hend.symm⟩

/-- Along all straight pieces the overlaps are collected, one piece after the other. -/
theorem foldlM_stands (points : List (Vec ℝ)) (hpattern : pattern ≠ [])
    (hnonneg : ∀ l ∈ pattern, 0 ≤ l) (hsum : 0 < pattern.sum) (hi : i ≤ (segments points).length) :
    ∃ k state, ((segments points).take i).foldlM (walkSegment pattern pattern.sum)
        (⟨0, pattern.headD 0⟩, []) = .ok state ∧
      Stands points pattern i k (arc points i) state := by
  induction i with
  | zero =>
    have hmono := mark_mono hpattern hnonneg
    have hfirst : pattern.headD 0 = mark pattern 1 := by
      rw [mark_succ hpattern, mark_zero, zero_add, entry, Nat.zero_mod]
      cases pattern <;> rfl
    have hplace : max (arc points 0) (mark pattern 0) = 0 := by simp
    refine ⟨0, _, rfl, ⟨hplace.symm, ?_, (Nat.zero_mod _).symm, ?_, [], ?_, rfl⟩⟩
    · rw [arc_zero, ← mark_zero pattern]
      exact hmono (Nat.zero_le 1)
    · rw [arc_zero, sub_zero, hfirst]
    · rw [arc_zero, ← hplace]
      exact upTo_first (arc_mono points) hmono
  | succ i ih =>
    obtain ⟨k, state, hstate, h⟩ := ih (Nat.le_of_succ_le hi)
    obtain ⟨l, state', hwalk, hnext⟩ := walkSegment_stands h hpattern hnonneg hsum hi
    refine ⟨l, state', ?_, hnext⟩
    rw [List.take_add_one, List.getElem?_eq_getElem hi, Option.toList_some, List.foldlM_append,
      hstate, ok_bind, List.foldlM_cons, hwalk]
    rfl

/-- The visible pieces are what the straight pieces of the line have in common with the entries of the
pattern that are drawn, from the left to the right. -/
theorem exists_ofPolyline (points : List (Vec ℝ)) (hnonneg : ∀ l ∈ pattern, 0 ≤ l)
    (hsum : 0 < pattern.sum) :
    ∃ as : List Stretch, ofPolyline points pattern = .ok (as.map (pieceOf points)) ∧
      as.Pairwise (fun a b => a.stop ≤ b.start) ∧
      ∀ a, a ∈ as ↔ IsOverlap (arc points) (mark pattern) (IsDrawn pattern) a := by
  have hpattern := ne_nil_of_sum_pos hsum
  obtain ⟨k, state, hstate, h⟩ := foldlM_stands points hpattern hnonneg hsum le_rfl
  obtain ⟨as, has, hpieces⟩ := h.collected
  refine ⟨as, ?_, has.ordered, fun a => (has.mem_iff a).trans (and_iff_left_of_imp ?_)⟩
  · have hempty : pattern.isEmpty = false := by simpa using hpattern
    have hle : Arithmetic.le pattern.sum (Arithmetic.ofInt 0) = false := by
      rw [← Bool.not_eq_true, Arithmetic.real_le_iff]
      simpa using hsum
    rw [List.take_length] at hstate
    simp only [ofPolyline, Arithmetic.real_sum, ok_bind, hempty, hle, Bool.or_self,
      Arithmetic.real_inexact, Arithmetic.real_zero, hstate, hpieces]
    rfl
  · rintro ⟨i, k, -, -, hstop, -⟩
    rw [hstop, arc_of_length_le le_rfl]
    exact (min_le_left _ _).trans (arc_le_length points _)

section Overlaps

variable {g : ℕ → ℝ} {counts : ℕ → Prop} {a : Stretch}

/-- An overlap with the straight pieces lies on one of them. -/
lemma exists_arc_of_isOverlap (h : IsOverlap (arc points) g counts a) :
    ∃ i < (segments points).length, arc points i ≤ a.start ∧ a.stop ≤ arc points (i + 1) := by
  obtain ⟨i, k, -, hstart, hstop, hlt⟩ := h
  have hlow : arc points i ≤ a.start := hstart ▸ le_max_left _ _
  have hhigh : a.stop ≤ arc points (i + 1) := hstop ▸ min_le_left _ _
  refine ⟨i, ?_, hlow, hhigh⟩
  -- behind the last straight piece nothing has a length
  by_contra hi
  rw [arc_of_length_le (by omega)] at hlow hhigh
  linarith

lemma mem_of_isOverlap (h : IsOverlap (arc points) g counts a) :
    a.start ∈ Set.Icc 0 (length points) ∧ a.stop ∈ Set.Icc 0 (length points) := by
  obtain ⟨i, -, hlow, hhigh⟩ := exists_arc_of_isOverlap h
  have hlt := h.start_lt_stop
  have hbegin := arc_nonneg points i
  have hend := arc_le_length points (i + 1)
  constructor <;> constructor <;> linarith

/-- Every distance that falls into an entry that counts lies in an overlap. -/
lemma exists_isOverlap_iff (hs : 0 ≤ s) (hlt : s < length points) :
    (∃ a, IsOverlap (arc points) g counts a ∧ a.start ≤ s ∧ s < a.stop) ↔
      ∃ k, counts k ∧ g k ≤ s ∧ s < g (k + 1) := by
  constructor
  · rintro ⟨a, ⟨i, k, hcounts, hstart, hstop, -⟩, hlow, hhigh⟩
    rw [hstart, max_le_iff] at hlow
    rw [hstop, lt_min_iff] at hhigh
    exact ⟨k, hcounts, hlow.2, hhigh.2⟩
  · rintro ⟨k, hcounts, hlow, hhigh⟩
    obtain ⟨i, -, harc, hnext⟩ := exists_arc hs hlt
    have hbegin := max_le harc hlow
    have hend := lt_min hnext hhigh
    exact ⟨⟨_, _⟩, ⟨i, k, hcounts, rfl, rfl, hbegin.trans_lt hend⟩, hbegin, hend⟩

end Overlaps

/-- The visible pieces of a line, by the distances of their ends: they come in order, every one of them
lies on one straight piece, and together they show a place exactly if its distance, with all whole
rounds of the pattern taken off, falls into an entry that is drawn. -/
theorem ofPolyline_covers (points : List (Vec ℝ)) (pattern : List ℝ)
    (hnonneg : ∀ l ∈ pattern, 0 ≤ l) (hsum : 0 < pattern.sum) :
    ∃ as : List Stretch, ofPolyline points pattern = .ok (as.map (pieceOf points)) ∧
      as.Pairwise (fun a b => a.stop ≤ b.start) ∧
      (∀ a ∈ as, a.start < a.stop ∧
        ∃ i < (segments points).length, arc points i ≤ a.start ∧ a.stop ≤ arc points (i + 1)) ∧
      ∀ s, 0 ≤ s → s < length points →
        ((∃ a ∈ as, a.start ≤ s ∧ s < a.stop) ↔ IsOn pattern s) := by
  have hpattern := ne_nil_of_sum_pos hsum
  obtain ⟨as, heq, hordered, hmem⟩ := exists_ofPolyline points hnonneg hsum
  refine ⟨as, heq, hordered, fun a ha => ?_, fun s hs hlt => ?_⟩
  · have hover := (hmem a).1 ha
    exact ⟨hover.start_lt_stop, exists_arc_of_isOverlap hover⟩
  · rw [isOn_iff hpattern hnonneg hsum hs, ← exists_isOverlap_iff hs hlt]
    exact exists_congr fun a => and_congr_left fun _ => hmem a

/-- A line that turns a corner, where a point is repeated. -/
def turn : List (Vec ℝ) := [⟨0, 0⟩, ⟨3, 0⟩, ⟨3, 0⟩, ⟨3, 4⟩]

lemma length_turn : length turn = 7 := by
  simp only [length, turn, segments, List.zip_cons_cons, List.tail_cons, List.zip_nil_right,
    List.map_cons, List.map_nil, span_of_level, span_of_upright, List.sum_cons, List.sum_nil]
  norm_num

theorem ofPolyline_covers_turn :
    (∀ l ∈ [2, 2], (0 : ℝ) ≤ l) ∧ (0 : ℝ) < [2, 2].sum ∧
      ∃ as : List Stretch, ofPolyline turn [2, 2] = .ok (as.map (pieceOf turn)) ∧
        (¬ ∃ a ∈ as, a.start ≤ 5 / 2 ∧ 5 / 2 < a.stop) ∧
          ∃ a ∈ as, a.start ≤ 9 / 2 ∧ 9 / 2 < a.stop := by
  have hnonneg : ∀ l ∈ [2, 2], (0 : ℝ) ≤ l := by simp
  have hsum : (0 : ℝ) < [2, 2].sum := by norm_num
  obtain ⟨as, heq, -, -, hcover⟩ := ofPolyline_covers turn [2, 2] hnonneg hsum
  refine ⟨hnonneg, hsum, as, heq, ?_, ?_⟩
  · rw [hcover _ (by norm_num) (by rw [length_turn]; norm_num)]
    have hfloor : ⌊(5 / 2 : ℝ) / [2, 2].sum⌋ = 0 := by norm_num
    rintro ⟨j, hj, heven, -, hhigh⟩
    obtain rfl : j = 0 := by
      have hj : j < 2 := hj
      have := Nat.even_iff.1 heven
      omega
    rw [hfloor] at hhigh
    norm_num at hhigh
  · rw [hcover _ (by norm_num) (by rw [length_turn]; norm_num)]
    have hfloor : ⌊(9 / 2 : ℝ) / [2, 2].sum⌋ = 1 := by norm_num
    exact ⟨0, by simp, Even.zero, by rw [hfloor]; norm_num, by rw [hfloor]; norm_num⟩

end UmlDrawing.Dashes
