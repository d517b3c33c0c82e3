import UmlDrawing.Line.Dashes
import UmlDrawing.Proofs.Geometry.Exact

/-! Patterns without end. The entries of a pattern are taken in turn and from the first one again
after the last; where they begin is counted from the beginning of the line. -/
namespace UmlDrawing.Dashes

variable {pattern : List ℝ} {k : ℕ} {s : ℝ}

/-- An entry of the pattern repeated without end. -/
def entry (pattern : List ℝ) (k : ℕ) : ℝ := pattern.getD (k % pattern.length) 0

/-- Where an entry of the repeated pattern begins. -/
noncomputable def mark (pattern : List ℝ) (k : ℕ) : ℝ :=
  (k / pattern.length : ℕ) * pattern.sum + (pattern.take (k % pattern.length)).sum

/-- An entry that is drawn: it has an even place in the pattern. -/
def IsDrawn (pattern : List ℝ) (k : ℕ) : Prop := k % pattern.length % 2 = 0

instance (pattern : List ℝ) (k : ℕ) : Decidable (IsDrawn pattern k) :=
  inferInstanceAs (Decidable (_ = _))

/-- Whether a distance falls into an entry with an even place once all whole rounds of the pattern are
taken off. -/
def IsOn (pattern : List ℝ) (s : ℝ) : Prop :=
  ∃ j < pattern.length, Even j ∧ (pattern.take j).sum ≤ s - ⌊s / pattern.sum⌋ * pattern.sum ∧
    s - ⌊s / pattern.sum⌋ * pattern.sum < (pattern.take (j + 1)).sum

lemma ne_nil_of_sum_pos (hsum : 0 < pattern.sum) : pattern ≠ [] := by
  rintro rfl
  simp at hsum

@[simp] lemma mark_zero (pattern : List ℝ) : mark pattern 0 = 0 := by
  simp [mark]

lemma take_sum_succ {j : ℕ} (hj : j < pattern.length) :
    (pattern.take (j + 1)).sum = (pattern.take j).sum + pattern.getD j 0 := by
  rw [List.take_add_one, List.getElem?_eq_getElem hj, Option.toList_some, List.sum_append,
    List.sum_singleton, List.getD_eq_getElem _ _ hj]

/-- Within a round of the pattern the marks are those of the first round. -/
lemma mark_round (q : ℕ) {j : ℕ} (hj : j < pattern.length) :
    mark pattern (pattern.length * q + j) = q * pattern.sum + (pattern.take j).sum := by
  have hpos : 0 < pattern.length := by omega
  rw [mark, Nat.mul_add_div hpos, Nat.mul_add_mod, Nat.div_eq_of_lt hj, Nat.mod_eq_of_lt hj, add_zero]

lemma mark_round_succ (q : ℕ) {j : ℕ} (hj : j < pattern.length) :
    mark pattern (pattern.length * q + j + 1) = q * pattern.sum + (pattern.take (j + 1)).sum := by
  by_cases hlast : j + 1 < pattern.length
  · rw [Nat.add_assoc]
    exact mark_round q hlast
  · -- the last entry ends where the next round begins
    have hround : pattern.length * q + j + 1 = pattern.length * (q + 1) + 0 := by
      rw [Nat.mul_succ]
      omega
    rw [hround, mark_round _ (Nat.zero_lt_of_lt hj), List.take_zero, List.sum_nil,
      List.take_of_length_le (show pattern.length ≤ j + 1 by omega)]
    push_cast
    ring

/-- The round of an entry, and its place in the pattern. -/
lemma exists_round (hpattern : pattern ≠ []) (k : ℕ) :
    ∃ q, ∃ j < pattern.length, k = pattern.length * q + j :=
  ⟨_, _, Nat.mod_lt k (List.length_pos_iff.2 hpattern), (Nat.div_add_mod k _).symm⟩

lemma mark_succ (hpattern : pattern ≠ []) (k : ℕ) :
    mark pattern (k + 1) = mark pattern k + entry pattern k := by
  obtain ⟨q, j, hj, rfl⟩ := exists_round hpattern k
  rw [mark_round_succ q hj, mark_round q hj, entry, Nat.mul_add_mod, Nat.mod_eq_of_lt hj,
    take_sum_succ hj, add_assoc]

lemma entry_nonneg (hnonneg : ∀ l ∈ pattern, 0 ≤ l) (k : ℕ) : 0 ≤ entry pattern k := by
  rw [entry, List.getD_eq_getElem?_getD]
  cases h : pattern[k % pattern.length]? with
  | none => exact le_rfl
  | some l => exact hnonneg l (List.mem_of_getElem? h)

lemma mark_mono (hpattern : pattern ≠ []) (hnonneg : ∀ l ∈ pattern, 0 ≤ l) :
    Monotone (mark pattern) := by
  refine monotone_nat_of_le_succ fun k => ?_
  rw [mark_succ hpattern]
  exact le_add_of_nonneg_right (entry_nonneg hnonneg k)

/-- Every round moves the marks on by the length of the pattern. -/
lemma mark_add_rounds (hpattern : pattern ≠ []) (k m : ℕ) :
    mark pattern (k + pattern.length * m) = mark pattern k + m * pattern.sum := by
  rw [mark, mark, Nat.add_mul_div_left _ _ (List.length_pos_iff.2 hpattern), Nat.add_mul_mod_self_left]
  push_cast
  ring

/-- A distance falls into an entry that is drawn if and only if it does so once whole rounds are
taken off. -/
theorem isOn_iff (hpattern : pattern ≠ []) (hnonneg : ∀ l ∈ pattern, 0 ≤ l) (hsum : 0 < pattern.sum)
    (hs : 0 ≤ s) :
    IsOn pattern s ↔ ∃ k, IsDrawn pattern k ∧ mark pattern k ≤ s ∧ s < mark pattern (k + 1) := by
  constructor
  · rintro ⟨j, hj, heven, hlow, hhigh⟩
    have hfloor : 0 ≤ ⌊s / pattern.sum⌋ := Int.floor_nonneg.2 (by positivity)
    obtain ⟨q, hq⟩ := Int.eq_ofNat_of_zero_le hfloor
    rw [hq, Int.cast_natCast] at hlow hhigh
    refine ⟨pattern.length * q + j, ?_, ?_, ?_⟩
    · rw [IsDrawn, Nat.mul_add_mod, Nat.mod_eq_of_lt hj]
      exact Nat.even_iff.1 heven
    · rw [mark_round q hj]
      linarith
    · rw [mark_round_succ q hj]
      linarith
  · rintro ⟨k, hdrawn, hlow, hhigh⟩
    obtain ⟨q, j, hj, rfl⟩ := exists_round hpattern k
    rw [mark_round q hj] at hlow
    rw [mark_round_succ q hj] at hhigh
    rw [IsDrawn, Nat.mul_add_mod, Nat.mod_eq_of_lt hj] at hdrawn
    have hstart : 0 ≤ (pattern.take j).sum :=
      List.sum_nonneg fun l hl => hnonneg l (List.mem_of_mem_take hl)
    have hrest : 0 ≤ (pattern.drop (j + 1)).sum :=
      List.sum_nonneg fun l hl => hnonneg l (List.mem_of_mem_drop hl)
    have hsplit := List.sum_take_add_sum_drop pattern (j + 1)
    have hfloor : ⌊s / pattern.sum⌋ = q := by
      rw [Int.floor_eq_iff, le_div_iff₀ hsum, div_lt_iff₀ hsum]
      push_cast
      constructor <;> linarith
    refine ⟨j, hj, Nat.even_iff.2 hdrawn, ?_, ?_⟩ <;> rw [hfloor, Int.cast_natCast] <;> linarith

end UmlDrawing.Dashes
