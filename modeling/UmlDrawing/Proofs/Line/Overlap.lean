import Mathlib

/-! Two subdivisions of one line laid over each other. Both are given by rising marks, and some of the
entries of the second one count. The stretches that lie in one entry of either are found from the left
by going from each mark to the next, whichever of the two it belongs to. -/
namespace UmlDrawing

/-- A stretch of a line, by the distances of its ends from the beginning. -/
structure Stretch where
  start : ℝ
  stop : ℝ

namespace Stretch

/-- What an entry of one subdivision and an entry that counts of another one have in common. -/
def IsOverlap (f g : ℕ → ℝ) (counts : ℕ → Prop) (a : Stretch) : Prop :=
  ∃ i k, counts k ∧ a.start = max (f i) (g k) ∧ a.stop = min (f (i + 1)) (g (k + 1)) ∧
    a.start < a.stop

/-- All overlaps up to a place, from the left to the right. -/
structure UpTo (f g : ℕ → ℝ) (counts : ℕ → Prop) (s : ℝ) (as : List Stretch) : Prop where
  ordered : as.Pairwise fun a b => a.stop ≤ b.start
  mem_iff : ∀ a, a ∈ as ↔ IsOverlap f g counts a ∧ a.stop ≤ s

variable {f g : ℕ → ℝ} {counts : ℕ → Prop} {i k : ℕ} {s : ℝ} {as bs : List Stretch} {a : Stretch}

lemma IsOverlap.start_lt_stop (h : IsOverlap f g counts a) : a.start < a.stop := by
  obtain ⟨i, k, -, -, -, hlt⟩ := h
  exact hlt

/-- Two entries of a subdivision that overlap are one. -/
lemma index_eq_of_lt (hf : Monotone f) {j : ℕ} (hij : f i < f (j + 1)) (hji : f j < f (i + 1)) :
    j = i := by
  have hle := hf.reflect_lt hij
  have hge := hf.reflect_lt hji
  omega

/-- Between the later of two marks and the earlier of the next two there is at most one stretch more. -/
lemma isOverlap_le_step (hf : Monotone f) (hg : Monotone g)
    (hle : max (f i) (g k) ≤ min (f (i + 1)) (g (k + 1))) :
    IsOverlap f g counts a ∧ a.stop ≤ min (f (i + 1)) (g (k + 1)) ↔
      IsOverlap f g counts a ∧ a.stop ≤ max (f i) (g k) ∨
        counts k ∧ max (f i) (g k) < min (f (i + 1)) (g (k + 1)) ∧
          a = ⟨max (f i) (g k), min (f (i + 1)) (g (k + 1))⟩ := by
  constructor
  · rintro ⟨hover, hstop⟩
    by_cases hold : a.stop ≤ max (f i) (g k)
    · exact .inl ⟨hover, hold⟩
    · right
      obtain ⟨j, l, hcounts, hstart, hend, hlt⟩ := hover
      rw [not_le, hend, max_lt_iff, lt_min_iff, lt_min_iff] at hold
      rw [hend] at hstop
      rw [hstart, hend] at hlt
      obtain ⟨⟨hfi, -⟩, -, hgk⟩ := hold
      obtain ⟨hfj, hgl⟩ := max_lt_iff.1 (hlt.trans_le hstop)
      obtain rfl := index_eq_of_lt hf hfi (lt_min_iff.1 hfj).1
      obtain rfl := index_eq_of_lt hg hgk (lt_min_iff.1 hgl).2
      exact ⟨hcounts, hlt, by rw [← hstart, ← hend]⟩
  · rintro (⟨hover, hstop⟩ | ⟨hcounts, hlt, rfl⟩)
    · exact ⟨hover, hstop.trans hle⟩
    · exact ⟨⟨i, k, hcounts, rfl, rfl, hlt⟩, le_rfl⟩

/-- Nothing overlaps before the first marks. -/
lemma upTo_first (hf : Monotone f) (hg : Monotone g) : UpTo f g counts (max (f 0) (g 0)) [] := by
  refine ⟨List.Pairwise.nil, fun a => iff_of_false List.not_mem_nil ?_⟩
  rintro ⟨⟨i, k, -, hstart, -, hlt⟩, hstop⟩
  have hbegin : max (f 0) (g 0) ≤ a.start := by
    rw [hstart]
    exact max_le_max (hf (Nat.zero_le i)) (hg (Nat.zero_le k))
  linarith

/-- From the later of two marks to the earlier of the next two. -/
lemma UpTo.step (h : UpTo f g counts (max (f i) (g k)) as) (hf : Monotone f) (hg : Monotone g)
    (hle : max (f i) (g k) ≤ min (f (i + 1)) (g (k + 1))) (hmark : s = min (f (i + 1)) (g (k + 1)))
    [Decidable (counts k ∧ max (f i) (g k) < s)] :
    UpTo f g counts s
      (if counts k ∧ max (f i) (g k) < s then as ++ [⟨max (f i) (g k), s⟩] else as) := by
  subst hmark
  split
  · next hnew =>
    constructor
    · refine List.pairwise_append.2 ⟨h.ordered, List.pairwise_singleton .., ?_⟩
      intro a ha b hb
      rw [List.mem_singleton.1 hb]
      exact ((h.mem_iff a).1 ha).2
    · intro a
      rw [isOverlap_le_step hf hg hle, ← h.mem_iff]
      simp [hnew]
  · next hnone =>
    refine ⟨h.ordered, fun a => ?_⟩
    rw [isOverlap_le_step hf hg hle, ← h.mem_iff]
    refine ⟨.inl, fun ha => ha.resolve_right ?_⟩
    rintro ⟨hcounts, hlt, -⟩
    exact hnone ⟨hcounts, hlt⟩

/-- Lists of overlaps in order are equal if they have the same members. -/
lemma eq_of_mem_iff (has : as.Pairwise fun a b => a.stop ≤ b.start)
    (hbs : bs.Pairwise fun a b => a.stop ≤ b.start) (hlt : ∀ a ∈ as, a.start < a.stop)
    (hmem : ∀ a, a ∈ as ↔ a ∈ bs) : as = bs := by
  have hnodup {cs : List Stretch} (hcs : cs.Pairwise fun a b => a.stop ≤ b.start)
      (hlt : ∀ a ∈ cs, a.start < a.stop) : cs.Nodup := by
    refine hcs.imp_of_mem fun {a b} ha _ hab hsame => ?_
    have := hlt a ha
    rw [hsame] at hab this
    linarith
  have hperm := (List.perm_ext_iff_of_nodup (hnodup has hlt)
    (hnodup hbs fun a ha => hlt a ((hmem a).2 ha))).2 hmem
  refine hperm.eq_of_pairwise (fun a b ha hb hab hba => ?_) has hbs
  have hltA := hlt a ha
  have hltB := hlt b ((hmem b).2 hb)
  linarith

end Stretch

end UmlDrawing
