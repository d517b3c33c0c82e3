import Mathlib.Data.List.DropRight
import Mathlib.Data.List.TakeWhile
import Mathlib.Tactic.Lemma
import UmlDrawing.Text.Blank

/-! Cutting texts by classes of characters, and blanks at the ends of texts in particular. -/
namespace UmlDrawing.Text

variable {p : Char → Bool} {t u : Text}

/-! A part of one class, followed by something that does not go on with it. -/

lemma takeWhile_append_of_boundary (ht : ∀ c ∈ t, p c = true)
    (hu : ∀ c, u.head? = some c → p c = false) : (t ++ u).takeWhile p = t := by
  rw [List.takeWhile_append_of_pos ht]
  cases u with
  | nil => exact List.append_nil t
  | cons c u => rw [List.takeWhile_cons_of_neg (by simp [hu c rfl]), List.append_nil]

lemma dropWhile_append_of_boundary (ht : ∀ c ∈ t, p c = true)
    (hu : ∀ c, u.head? = some c → p c = false) : (t ++ u).dropWhile p = u := by
  rw [List.dropWhile_append_of_pos ht]
  cases u with
  | nil => rfl
  | cons c u => exact List.dropWhile_cons_of_neg (by simp [hu c rfl])

/-- What is left after a part of one class does not go on with it. -/
lemma head?_dropWhile_eq_false (t : Text) :
    ∀ c, (t.dropWhile p).head? = some c → p c = false := by
  intro c hc
  have hstop := List.head?_dropWhile_not p t
  rw [hc] at hstop
  simpa using hstop

lemma dropWhile_of_forall (ht : ∀ c ∈ t, p c = false) : t.dropWhile p = t :=
  List.dropWhile_eq_self_iff.2 fun hlength => by
    rw [ht _ (List.getElem_mem hlength)]
    exact Bool.false_ne_true

/-! Blanks. -/

lemma trimEnd_prefix (t : Text) : trimEnd t <+: t := List.rdropWhile_prefix _ _

/-- At the end of a text only blanks are trimmed. -/
lemma exists_trimEnd_append (t : Text) :
    ∃ blanks, t = trimEnd t ++ blanks ∧ ∀ c ∈ blanks, isBlank c = true :=
  ⟨t.rtakeWhile isBlank, (List.rdropWhile_append_rtakeWhile ..).symm,
    fun _ hc => List.mem_rtakeWhile_imp hc⟩

lemma exists_append_trimStart (t : Text) :
    ∃ blanks, t = blanks ++ trimStart t ∧ ∀ c ∈ blanks, isBlank c = true :=
  ⟨t.takeWhile isBlank, List.takeWhile_append_dropWhile.symm, fun _ hc => List.mem_takeWhile_imp hc⟩

lemma trimStart_append_of_blank (ht : ∀ c ∈ t, isBlank c = true) :
    trimStart (t ++ u) = trimStart u :=
  List.dropWhile_append_of_pos ht

lemma trimEnd_append_of_blank (hu : ∀ c ∈ u, isBlank c = true) : trimEnd (t ++ u) = trimEnd t := by
  rw [trimEnd, List.reverse_append,
    List.dropWhile_append_of_pos fun c hc => hu c (List.mem_reverse.1 hc)]
  rfl

/-- Blanks after a text stay as long as anything but blanks is left of the text. -/
lemma trimStart_append (t u : Text) :
    trimStart (t ++ u) = if trimStart t = [] then trimStart u else trimStart t ++ u := by
  rw [trimStart, List.dropWhile_append]
  simp only [List.isEmpty_iff]
  rfl

lemma trim_append_of_blank_left (ht : ∀ c ∈ t, isBlank c = true) : trim (t ++ u) = trim u := by
  rw [trim, trimStart_append_of_blank ht]
  rfl

lemma trim_append_of_blank_right (hu : ∀ c ∈ u, isBlank c = true) : trim (t ++ u) = trim t := by
  have hnone : trimStart u = [] := List.dropWhile_eq_nil_iff.2 hu
  rw [trim, trimStart_append, hnone]
  split
  · next hstart => rw [trim, hstart]
  · rw [trimEnd_append_of_blank hu]
    rfl

/-- What blanks at either end do not change, trimming does not change. -/
lemma apply_trim {α : Type} {f : Text → α}
    (hleft : ∀ t u, (∀ c ∈ t, isBlank c = true) → f (t ++ u) = f u)
    (hright : ∀ t u, (∀ c ∈ u, isBlank c = true) → f (t ++ u) = f t) (t : Text) :
    f (trim t) = f t := by
  obtain ⟨before, hbefore, hblank⟩ := exists_append_trimStart t
  obtain ⟨after, hafter, hblank'⟩ := exists_trimEnd_append (trimStart t)
  calc f (trim t) = f (trim t ++ after) := (hright _ _ hblank').symm
    _ = f (trimStart t) := congrArg f hafter.symm
    _ = f (before ++ trimStart t) := (hleft _ _ hblank).symm
    _ = f t := congrArg f hbefore.symm

lemma allBlank_iff : allBlank t = true ↔ ∀ c ∈ t, isBlank c = true := List.all_eq_true

lemma allBlank_trim (t : Text) : allBlank (trim t) = allBlank t := by
  refine apply_trim (f := allBlank) (fun t u ht => ?_) (fun t u hu => ?_) t
  · rw [allBlank, List.all_append, List.all_eq_true.2 ht, Bool.true_and]
    rfl
  · rw [allBlank, List.all_append, List.all_eq_true.2 hu, Bool.and_true]
    rfl

lemma allBlank_iff_trim_eq_nil : allBlank t = true ↔ trim t = [] := by
  constructor
  · intro h
    rw [trim, trimStart, List.dropWhile_eq_nil_iff.2 (allBlank_iff.1 h)]
    rfl
  · intro h
    rw [← allBlank_trim, h]
    rfl

/-- Trimming stops at the first and at the last character that is no blank. -/
lemma trim_append_of_forall (hne : t ≠ []) (ht : ∀ c ∈ t, isBlank c = false) :
    trim (t ++ u) = t ++ trimEnd u := by
  have hstart : trimStart t = t := dropWhile_of_forall ht
  have hstop : t.reverse.dropWhile isBlank = t.reverse :=
    dropWhile_of_forall fun c hc => ht c (List.mem_reverse.1 hc)
  rw [trim, trimStart_append, hstart, if_neg hne, trimEnd, List.reverse_append,
    List.dropWhile_append, hstop, trimEnd]
  simp only [List.isEmpty_iff]
  split
  · next hnone => rw [hnone, List.reverse_reverse, List.reverse_nil, List.append_nil]
  · rw [List.reverse_append, List.reverse_reverse]

/-- A text without blanks is not trimmed. -/
lemma trim_of_forall (ht : ∀ c ∈ t, isBlank c = false) : trim t = t := by
  cases t with
  | nil => rfl
  | cons c t =>
    have htrim := trim_append_of_forall (u := []) (List.cons_ne_nil c t) ht
    simpa [trimEnd] using htrim

end UmlDrawing.Text
