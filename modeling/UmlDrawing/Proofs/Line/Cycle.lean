import UmlDrawing.Proofs.Line.Dashes

/-! A pattern and the same pattern written twice. Their marks are the same, but the parity that says
which entries are drawn starts over after the last one: a pattern with an odd number of entries, when
it is taken again, does not go on with the alternation of drawn and blank entries. -/
namespace UmlDrawing.Dashes

open Polyline Stretch

variable {points : List (Vec ℝ)} {pattern : List ℝ}

lemma entry_twice (hpattern : pattern ≠ []) (k : ℕ) :
    entry (pattern ++ pattern) k = entry pattern k := by
  have hmod : k % (pattern.length + pattern.length) % pattern.length = k % pattern.length :=
    Nat.mod_mod_of_dvd _ ⟨2, by ring⟩
  have hpos := List.length_pos_iff.2 hpattern
  have hlt := Nat.mod_lt k (Nat.add_pos_left hpos pattern.length)
  rw [entry, entry, List.length_append, ← hmod]
  generalize k % (pattern.length + pattern.length) = r at hlt
  by_cases hfirst : r < pattern.length
  · rw [Nat.mod_eq_of_lt hfirst, List.getD_append _ _ _ _ hfirst]
  · have hsecond := not_lt.1 hfirst
    rw [List.getD_append_right _ _ _ _ hsecond, Nat.mod_eq_sub_mod hsecond,
      Nat.mod_eq_of_lt (by omega)]

/-- Written twice, a pattern has the same marks. -/
lemma mark_twice (hpattern : pattern ≠ []) : mark (pattern ++ pattern) = mark pattern := by
  funext k
  induction k with
  | zero => rw [mark_zero, mark_zero]
  | succ k ih =>
    rw [mark_succ hpattern, mark_succ (List.append_ne_nil_of_left_ne_nil hpattern _), ih,
      entry_twice hpattern]

/-- Written twice, a pattern is drawn in turns, one entry and one not. -/
lemma isDrawn_twice {k : ℕ} : IsDrawn (pattern ++ pattern) k ↔ k % 2 = 0 := by
  rw [IsDrawn, List.length_append, Nat.mod_mod_of_dvd _ ⟨pattern.length, by ring⟩]

lemma isDrawn_of_even (heven : Even pattern.length) {k : ℕ} : IsDrawn pattern k ↔ k % 2 = 0 := by
  rw [IsDrawn, Nat.mod_mod_of_dvd _ heven.two_dvd]

lemma isDrawn_of_lt {k : ℕ} (hk : k < pattern.length) : IsDrawn pattern k ↔ k % 2 = 0 := by
  rw [IsDrawn, Nat.mod_eq_of_lt hk]

/-- Every round begins with an entry that is drawn. -/
lemma isDrawn_length (pattern : List ℝ) : IsDrawn pattern pattern.length := by
  simp [IsDrawn]

/-- The first round ends at the sum of the pattern. -/
lemma mark_length (hpattern : pattern ≠ []) : mark pattern pattern.length = pattern.sum := by
  have hround := mark_add_rounds hpattern 0 1
  simpa using hround

lemma entry_pos (hpattern : pattern ≠ []) (hpos : ∀ l ∈ pattern, 0 < l) (k : ℕ) :
    0 < entry pattern k := by
  have hk := Nat.mod_lt k (List.length_pos_iff.2 hpattern)
  rw [entry, List.getD_eq_getElem _ _ hk]
  exact hpos _ (List.getElem_mem hk)

/-- The pieces of a pattern that is written twice, by the marks of the pattern itself. -/
lemma exists_ofPolyline_twice (points : List (Vec ℝ)) (hpattern : pattern ≠ [])
    (hnonneg : ∀ l ∈ pattern, 0 ≤ l) (hsum : 0 < pattern.sum) :
    ∃ as : List Stretch, ofPolyline points (pattern ++ pattern) = .ok (as.map (pieceOf points)) ∧
      as.Pairwise (fun a b => a.stop ≤ b.start) ∧
      ∀ a, a ∈ as ↔ IsOverlap (arc points) (mark pattern) (IsDrawn (pattern ++ pattern)) a := by
  rw [← mark_twice hpattern]
  refine exists_ofPolyline points (fun l hl => ?_) ?_
  · exact hnonneg l ((List.mem_append.1 hl).elim id id)
  · rw [List.sum_append]
    exact add_pos hsum hsum

/-- The pieces are those of the pattern written twice if no entry is reached whose parity differs. -/
lemma ofPolyline_twice_of_even_or_le (hpattern : pattern ≠ []) (hpos : ∀ l ∈ pattern, 0 < l)
    (hsame : Even pattern.length ∨ length points ≤ pattern.sum) :
    ofPolyline points (pattern ++ pattern) = ofPolyline points pattern := by
  have hnonneg : ∀ l ∈ pattern, 0 ≤ l := fun l hl => (hpos l hl).le
  have hsum : 0 < pattern.sum := List.sum_pos pattern hpos hpattern
  obtain ⟨as, has, hordered, hmem⟩ := exists_ofPolyline points hnonneg hsum
  obtain ⟨bs, hbs, hordered', hmem'⟩ :=
    exists_ofPolyline_twice points hpattern hnonneg hsum
  have hover (a : Stretch) : IsOverlap (arc points) (mark pattern) (IsDrawn pattern) a ↔
      IsOverlap (arc points) (mark pattern) (IsDrawn (pattern ++ pattern)) a := by
    refine exists₂_congr fun i k => and_congr_left fun ⟨hstart, hstop, hlt⟩ => ?_
    rw [isDrawn_twice]
    obtain heven | hle := hsame
    · exact isDrawn_of_even heven
    · have hbegin : mark pattern k ≤ a.start := hstart ▸ le_max_right _ _
      have hend : a.stop ≤ arc points (i + 1) := hstop ▸ min_le_left _ _
      have hk : mark pattern k < mark pattern pattern.length := by
        have := arc_le_length points (i + 1)
        rw [mark_length hpattern]
        linarith
      exact isDrawn_of_lt ((mark_mono hpattern hnonneg).reflect_lt hk)
  have hsame : bs = as := by
    refine eq_of_mem_iff hordered' hordered (fun a ha => ((hmem' a).1 ha).start_lt_stop) fun a => ?_
    rw [hmem, hmem', hover]
  rw [has, hbs, hsame]

/-- The pieces differ from those of the pattern written twice as soon as a second round begins with an
entry that is drawn for one and blank for the other, on a line that passes every place once. -/
lemma even_or_le_of_ofPolyline_twice (hpattern : pattern ≠ []) (hpos : ∀ l ∈ pattern, 0 < l)
    (honce : Set.InjOn (pointAt points) (Set.Icc 0 (length points)))
    (htwice : ofPolyline points (pattern ++ pattern) = ofPolyline points pattern) :
    Even pattern.length ∨ length points ≤ pattern.sum := by
  have hnonneg : ∀ l ∈ pattern, 0 ≤ l := fun l hl => (hpos l hl).le
  have hsum : 0 < pattern.sum := List.sum_pos pattern hpos hpattern
  have hmono := mark_mono hpattern hnonneg
  obtain ⟨as, has, -, hmem⟩ := exists_ofPolyline points hnonneg hsum
  obtain ⟨bs, hbs, -, hmem'⟩ :=
    exists_ofPolyline_twice points hpattern hnonneg hsum
  rw [has, hbs, Except.ok.injEq] at htwice
  by_contra! hnot
  obtain ⟨hodd, hlong⟩ := hnot
  have hbegin := mark_length hpattern
  have hend : pattern.sum < mark pattern (pattern.length + 1) := by
    rw [mark_succ hpattern, hbegin]
    exact lt_add_of_pos_right _ (entry_pos hpattern hpos _)
  -- the first entry of the second round begins a piece of the one pattern and none of the other
  obtain ⟨a, ha, hlow, hhigh⟩ := (exists_isOverlap_iff hsum.le hlong).2
    ⟨pattern.length, isDrawn_length pattern, hbegin.le, hend⟩
  obtain ⟨b, hb, hpiece⟩ := List.mem_map.1 (htwice ▸ List.mem_map_of_mem ((hmem a).2 ha))
  obtain ⟨hstart, hstop⟩ := Prod.mk.inj hpiece
  have hlineA := mem_of_isOverlap ha
  have hlineB := mem_of_isOverlap ((hmem' b).1 hb)
  rw [← honce hlineB.1 hlineA.1 hstart] at hlow
  rw [← honce hlineB.2 hlineA.2 hstop] at hhigh
  obtain ⟨k, hdrawn, hbefore, hbehind⟩ :=
    (exists_isOverlap_iff hsum.le hlong).1 ⟨b, (hmem' b).1 hb, hlow, hhigh⟩
  rw [← hbegin] at hbefore hbehind
  obtain rfl := index_eq_of_lt hmono hbehind (hbefore.trans_lt (hbegin.trans_lt hend))
  exact hodd (Nat.even_iff.2 (isDrawn_twice.1 hdrawn))

/-- A pattern with an even number of entries may be written twice, and so may any other one on a line
that is no longer than one round of it. On no other line that passes every place once does a pattern
show the same pieces when it is written twice. -/
theorem ofPolyline_twice (points : List (Vec ℝ)) (hpattern : pattern ≠ [])
    (hpos : ∀ l ∈ pattern, 0 < l) :
    (Even pattern.length ∨ length points ≤ pattern.sum →
        ofPolyline points (pattern ++ pattern) = ofPolyline points pattern) ∧
      (Set.InjOn (pointAt points) (Set.Icc 0 (length points)) →
        ofPolyline points (pattern ++ pattern) = ofPolyline points pattern →
          Even pattern.length ∨ length points ≤ pattern.sum) :=
  ⟨ofPolyline_twice_of_even_or_le hpattern hpos, even_or_le_of_ofPolyline_twice hpattern hpos⟩

/-- A line from the origin to the right. -/
def level (l : ℝ) : List (Vec ℝ) := [⟨0, 0⟩, ⟨l, 0⟩]

lemma length_level {l : ℝ} (hl : 0 ≤ l) : length (level l) = l := by
  simp [length, level, segments, Segment.span_of_level, abs_of_nonneg hl]

lemma pointAt_level {l s : ℝ} (hl : 0 < l) (hs : s ≤ l) : pointAt (level l) s = ⟨s, 0⟩ := by
  have hspan : Segment.span ((⟨0, 0⟩, ⟨l, 0⟩) : Segment ℝ) = l := by
    rw [Segment.span_of_level, sub_zero, abs_of_pos hl]
  rw [level, pointAt, hspan, if_pos hs, Segment.along, hspan]
  simp [hl.ne']

theorem ofPolyline_twice_short :
    ([1, 2, 3] : List ℝ) ≠ [] ∧ (∀ l ∈ [1, 2, 3], (0 : ℝ) < l) ∧
      ofPolyline (level 5) ([1, 2, 3] ++ [1, 2, 3]) = ofPolyline (level 5) [1, 2, 3] := by
  have hpattern : ([1, 2, 3] : List ℝ) ≠ [] := by simp
  have hpos : ∀ l ∈ [1, 2, 3], (0 : ℝ) < l := by simp
  refine ⟨hpattern, hpos, (ofPolyline_twice (level 5) hpattern hpos).1 (.inr ?_)⟩
  rw [length_level (by norm_num)]
  norm_num

/-- A pattern of one entry draws the whole line, and written twice every other stretch of it. -/
theorem ofPolyline_twice_solid :
    ofPolyline (level 10) ([3] ++ [3]) ≠ ofPolyline (level 10) [3] := by
  intro htwice
  have honce : Set.InjOn (pointAt (level 10)) (Set.Icc 0 (length (level 10))) := by
    rw [length_level (by norm_num)]
    intro s hs t ht hsame
    rw [pointAt_level (by norm_num) hs.2, pointAt_level (by norm_num) ht.2] at hsame
    exact congrArg Vec.x hsame
  have hshort := even_or_le_of_ofPolyline_twice (by simp) (by simp) honce htwice
  rw [length_level (by norm_num)] at hshort
  norm_num at hshort

end UmlDrawing.Dashes
