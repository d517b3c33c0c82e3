import UmlDrawing.Proofs.Text.Trim

/-! Texts cut at a separator. Pieces that do not have it are found again in what they are joined to,
and blanks at the ends of the text are blanks at the ends of its first and last piece. -/
namespace UmlDrawing.Text

variable {sep : Char} {t u : Text}

/-- A beginning is dropped if and only if the text has it. -/
lemma dropStart?_eq_some_iff {start rest : Text} : dropStart? start t = some rest ↔ t = start ++ rest := by
  induction start generalizing t with
  | nil => simp [dropStart?]
  | cons c start ih =>
    cases t with
    | nil => simp [dropStart?]
    | cons d t =>
      by_cases hcd : c = d
      · simp [dropStart?, hcd, ih]
      · simp [dropStart?, hcd, Ne.symm hcd]

lemma startsWith_iff {start : Text} : startsWith t start = true ↔ start <+: t := by
  rw [startsWith, Option.isSome_iff_exists]
  exact exists_congr fun rest => dropStart?_eq_some_iff.trans eq_comm

lemma cut?_append {before : Text} (h : sep ∉ before) (after : Text) :
    cut? sep (before ++ sep :: after) = some (before, after) := by
  induction before with
  | nil => simp [cut?]
  | cons c before ih =>
    rw [List.mem_cons, not_or] at h
    rw [List.cons_append, cut?, if_neg (Ne.symm h.1), ih h.2]
    rfl

/-- A text is cut at the separator that has none before it. -/
lemma cut?_eq_some_iff {before after : Text} :
    cut? sep t = some (before, after) ↔ sep ∉ before ∧ t = before ++ sep :: after := by
  constructor
  · intro h
    induction t generalizing before with
    | nil => cases h
    | cons c t ih =>
      rw [cut?] at h
      split at h
      · next hc =>
        cases h
        simp [hc]
      · next hc =>
        obtain ⟨⟨before', after'⟩, hcut, hpair⟩ := Option.map_eq_some_iff.1 h
        cases hpair
        obtain ⟨hnot, rfl⟩ := ih hcut
        exact ⟨by simp [Ne.symm hc, hnot], rfl⟩
  · rintro ⟨hnot, rfl⟩
    exact cut?_append hnot after

lemma cut?_eq_none_iff : cut? sep t = none ↔ sep ∉ t := by
  induction t with
  | nil => simp [cut?]
  | cons c t ih =>
    rw [cut?]
    split
    · next hc => simp [hc]
    · next hc => simp [ih, Ne.symm hc]

lemma splitOn_of_notMem (h : sep ∉ t) : splitOn sep t = [t] := by
  induction t with
  | nil => rfl
  | cons c r ih =>
    rw [List.mem_cons, not_or] at h
    rw [splitOn, if_neg (Ne.symm h.1), ih h.2]

/-- What stands before the first separator goes on a piece that follows it at once. -/
lemma splitOn_cons_of_ne {c : Char} {piece : Text} {pieces : List Text} (hc : c ≠ sep)
    (h : splitOn sep t = piece :: pieces) : splitOn sep (c :: t) = (c :: piece) :: pieces := by
  rw [splitOn, if_neg hc, h]

lemma splitOn_append_cons (t u : Text) :
    splitOn sep (t ++ sep :: u) = splitOn sep t ++ splitOn sep u := by
  induction t with
  | nil => simp [splitOn]
  | cons c t ih =>
    by_cases hc : c = sep
    · simp [splitOn, hc, ih]
    · obtain ⟨piece, pieces, hpieces⟩ := List.exists_cons_of_ne_nil (splitOn_ne_nil sep t)
      rw [hpieces, List.cons_append] at ih
      rw [List.cons_append, splitOn_cons_of_ne hc ih, splitOn_cons_of_ne hc hpieces]
      rfl

/-- Cutting undoes joining. -/
lemma splitOn_join {ts : List Text} (hne : ts ≠ []) (h : ∀ t ∈ ts, sep ∉ t) :
    splitOn sep (join [sep] ts) = ts := by
  induction ts with
  | nil => exact absurd rfl hne
  | cons t ts ih =>
    obtain ⟨ht, hts⟩ := List.forall_mem_cons.1 h
    cases ts with
    | nil => exact splitOn_of_notMem ht
    | cons u ts =>
      rw [join, List.append_assoc, List.singleton_append, splitOn_append_cons,
        splitOn_of_notMem ht, ih (List.cons_ne_nil u ts) hts]
      rfl

/-- A text without separators in front of another one belongs to its first piece. -/
lemma splitOn_append_left (h : sep ∉ t) :
    ∃ piece pieces, splitOn sep u = piece :: pieces ∧
      splitOn sep (t ++ u) = (t ++ piece) :: pieces := by
  obtain ⟨piece, pieces, hpieces⟩ := List.exists_cons_of_ne_nil (splitOn_ne_nil sep u)
  refine ⟨piece, pieces, hpieces, ?_⟩
  induction t with
  | nil => exact hpieces
  | cons c t ih =>
    rw [List.mem_cons, not_or] at h
    exact splitOn_cons_of_ne (Ne.symm h.1) (ih h.2)

/-- A text without separators after another one belongs to its last piece. -/
lemma splitOn_append_right (h : sep ∉ u) :
    ∃ pieces piece, splitOn sep t = pieces ++ [piece] ∧
      splitOn sep (t ++ u) = pieces ++ [piece ++ u] := by
  induction t with
  | nil => exact ⟨[], [], rfl, splitOn_of_notMem h⟩
  | cons c t ih =>
    obtain ⟨pieces, piece, hpieces, hmore⟩ := ih
    by_cases hc : c = sep
    · refine ⟨[] :: pieces, piece, ?_, ?_⟩ <;> simp [splitOn, hc, hpieces, hmore]
    · cases pieces with
      | nil => exact ⟨[], c :: piece, splitOn_cons_of_ne hc hpieces, splitOn_cons_of_ne hc hmore⟩
      | cons first pieces =>
        exact ⟨(c :: first) :: pieces, piece, splitOn_cons_of_ne hc hpieces,
          splitOn_cons_of_ne hc hmore⟩

section Blank

variable (hsep : isBlank sep = false)
include hsep

lemma notMem_of_blank (h : ∀ c ∈ t, isBlank c = true) : sep ∉ t := by
  intro hmem
  rw [h sep hmem] at hsep
  cases hsep

lemma map_trim_splitOn_append_left (h : ∀ c ∈ t, isBlank c = true) :
    (splitOn sep (t ++ u)).map trim = (splitOn sep u).map trim := by
  obtain ⟨piece, pieces, hpieces, hmore⟩ := splitOn_append_left (u := u) (notMem_of_blank hsep h)
  rw [hpieces, hmore, List.map_cons, List.map_cons, trim_append_of_blank_left h]

lemma map_trim_splitOn_append_right (h : ∀ c ∈ u, isBlank c = true) :
    (splitOn sep (t ++ u)).map trim = (splitOn sep t).map trim := by
  obtain ⟨pieces, piece, hpieces, hmore⟩ := splitOn_append_right (t := t) (notMem_of_blank hsep h)
  rw [hpieces, hmore, List.map_append, List.map_append, List.map_singleton, List.map_singleton,
    trim_append_of_blank_right h]

/-- Trimming a text before it is cut makes no difference to its trimmed pieces. -/
lemma map_trim_splitOn_trim (t : Text) :
    (splitOn sep (trim t)).map trim = (splitOn sep t).map trim :=
  apply_trim (f := fun t => (splitOn sep t).map trim)
    (fun _ _ => map_trim_splitOn_append_left hsep) (fun _ _ => map_trim_splitOn_append_right hsep) t

/-- Separators and blanks at the end of a text make empty pieces and nothing else. -/
lemma map_trim_splitOn_append (h : ∀ c ∈ u, c = sep ∨ isBlank c = true) :
    ∃ n, (splitOn sep (t ++ u)).map trim = (splitOn sep t).map trim ++ List.replicate n [] := by
  induction u using List.reverseRecOn with
  | nil => exact ⟨0, by simp⟩
  | append_singleton u c ih =>
    obtain ⟨n, hn⟩ := ih fun d hd => h d (List.mem_append_left _ hd)
    rw [← List.append_assoc]
    obtain rfl | hblank := h c (List.mem_append_right _ (List.mem_singleton_self c))
    · refine ⟨n + 1, ?_⟩
      rw [splitOn_append_cons, List.map_append, hn, List.append_assoc, List.replicate_succ']
      rfl
    · refine ⟨n, ?_⟩
      rw [map_trim_splitOn_append_right hsep (by simpa using hblank), hn]

end Blank

end UmlDrawing.Text
