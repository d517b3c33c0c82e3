import Mathlib.Data.List.Chain
import Mathlib.Tactic.Lemma
import UmlDrawing.Markup.Segment

/-! Where the runs of a line are. A run ends at the next delimiter of its kind, so its inside can have
this delimiter only as its first character. What stands before, between and after the runs of a line
has no run of its own: a run in it would be found in the line, too, and earlier. -/
namespace UmlDrawing.Markup

variable {c d : Char} {line t inner rest : Text} {previous : Option Char} {f : FirstRun}

/-! The end of a run. -/

lemma notMem_of_cutAt? (h : cutAt? d t = some (inner, rest)) : d ∉ inner := by
  induction t generalizing inner with
  | nil => cases h
  | cons c t ih =>
    rw [cutAt?] at h
    split at h
    · cases h
      exact List.not_mem_nil
    · next hc =>
      split at h
      · cases h
      · obtain ⟨⟨i, q⟩, hcut, hpair⟩ := Option.map_eq_some_iff.1 h
        cases hpair
        exact List.not_mem_cons_of_ne_of_not_mem (Ne.symm hc) (ih hcut)

lemma cutAt?_append (h : cutAt? d t = some (inner, rest)) (u : Text) :
    cutAt? d (t ++ u) = some (inner, rest ++ u) := by
  induction t generalizing inner with
  | nil => cases h
  | cons c t ih =>
    rw [List.cons_append, cutAt?]
    rw [cutAt?] at h
    split at h
    · next hc =>
      cases h
      rw [if_pos hc]
    · next hc =>
      split at h
      · cases h
      · next hbreak =>
        obtain ⟨⟨i, q⟩, hcut, hpair⟩ := Option.map_eq_some_iff.1 h
        cases hpair
        rw [if_neg hc, if_neg hbreak, ih hcut]
        rfl

/-- A run has an inside, and what follows its first character is cut at the next delimiter. -/
lemma exists_cutAt?_of_closeRun? (h : closeRun? d t = some (inner, rest)) :
    ∃ c u i, t = c :: u ∧ c ≠ '\n' ∧ inner = c :: i ∧ cutAt? d u = some (i, rest) := by
  cases t with
  | nil => cases h
  | cons c u =>
    rw [closeRun?] at h
    split at h
    · cases h
    · next hbreak =>
      obtain ⟨⟨i, q⟩, hcut, hpair⟩ := Option.map_eq_some_iff.1 h
      cases hpair
      exact ⟨c, u, i, rfl, hbreak, rfl, hcut⟩

/-- A run that ends within a text ends there whatever comes after the text. -/
lemma closeRun?_append (h : closeRun? d t = some (inner, rest)) (u : Text) :
    closeRun? d (t ++ u) = some (inner, rest ++ u) := by
  obtain ⟨c, r, i, rfl, hbreak, rfl, hcut⟩ := exists_cutAt?_of_closeRun? h
  rw [List.cons_append, closeRun?, if_neg hbreak, cutAt?_append hcut]
  rfl

/-! The first run of a line. -/

/-- A line has its first run at its start, or one place later than the rest of the line has it. -/
lemma firstRun?_cons_eq_some (h : firstRun? previous (c :: t) = some f) :
    f.before = [] ∧ opensAfter previous = true ∧ c = f.emphasis.delimiter ∧
        closeRun? c t = some (f.inner, f.rest) ∨
      ∃ g, firstRun? (some c) t = some g ∧ f = { g with before := c :: g.before } ∧
        (opensAfter previous = true → (Emphasis.ofChar? c).isSome = true → closeRun? c t = none) := by
  simp only [firstRun?] at h
  split at h
  · next run hrun =>
    cases h
    split at hrun
    · next hopens =>
      obtain ⟨e, he, hrun⟩ := Option.bind_eq_some_iff.1 hrun
      obtain ⟨⟨inner, rest⟩, hclose, rfl⟩ := Option.map_eq_some_iff.1 hrun
      exact .inl ⟨rfl, hopens, Emphasis.ofChar?_eq_some_iff.1 he, hclose⟩
    · cases hrun
  · next hnone =>
    obtain ⟨g, hg, rfl⟩ := Option.map_eq_some_iff.1 h
    refine .inr ⟨g, hg, rfl, fun hopens hdelimiter => ?_⟩
    obtain ⟨e, he⟩ := Option.isSome_iff_exists.1 hdelimiter
    simpa [hopens, he] using hnone

/-- A line has no run if and only if none starts with it and the rest of the line has none. -/
lemma firstRun?_cons_eq_none_iff :
    firstRun? previous (c :: t) = none ↔
      (opensAfter previous = true → (Emphasis.ofChar? c).isSome = true → closeRun? c t = none) ∧
        firstRun? (some c) t = none := by
  simp only [firstRun?]
  cases hopens : opensAfter previous with
  | false => simp
  | true =>
    cases he : Emphasis.ofChar? c with
    | none => simp
    | some e => cases hclose : closeRun? c t <;> simp

lemma closeRun?_of_firstRun? (h : firstRun? previous line = some f) :
    ∃ t, closeRun? f.emphasis.delimiter t = some (f.inner, f.rest) := by
  induction line generalizing previous f with
  | nil => simp [firstRun?] at h
  | cons c t ih =>
    obtain ⟨-, -, rfl, hclose⟩ | ⟨g, hg, rfl, -⟩ := firstRun?_cons_eq_some h
    · exact ⟨t, hclose⟩
    · exact ih (f := g) hg

/-- There is no run before the first run. -/
lemma firstRun?_before_eq_none (h : firstRun? previous line = some f) :
    firstRun? previous f.before = none := by
  induction line generalizing previous f with
  | nil => simp [firstRun?] at h
  | cons c t ih =>
    obtain ⟨hbefore, -⟩ | ⟨g, hg, rfl, hnone⟩ := firstRun?_cons_eq_some h
    · rw [hbefore]
      simp [firstRun?]
    · refine firstRun?_cons_eq_none_iff.2 ⟨fun hopens hdelimiter => ?_, ih hg⟩
      have hline := hnone hopens hdelimiter
      -- a run that ends within the part before the first run would end there in the line, too
      rw [eq_append_of_firstRun? hg, List.append_assoc] at hline
      cases hclose : closeRun? c g.before with
      | none => rfl
      | some pair =>
        obtain ⟨inner, rest⟩ := pair
        rw [closeRun?_append hclose] at hline
        cases hline

/-- Of the character before a line, it only matters whether a run may start after it. -/
lemma firstRun?_none_of_opensAfter (hopens : opensAfter previous = true)
    (h : firstRun? previous line = none) : firstRun? none line = none := by
  cases line with
  | nil => simp [firstRun?]
  | cons c t =>
    obtain ⟨hhere, hlater⟩ := firstRun?_cons_eq_none_iff.1 h
    exact firstRun?_cons_eq_none_iff.2 ⟨fun _ => hhere hopens, hlater⟩

lemma opensAfter_delimiter (e : Emphasis) : opensAfter (some e.delimiter) = true := by
  cases e <;> rfl

lemma length_rest_lt_of_firstRun? (h : firstRun? previous line = some f) :
    f.rest.length < line.length := by
  have hlength := congrArg List.length (eq_append_of_firstRun? h)
  simp only [Segment.source, List.length_append, List.length_cons] at hlength
  omega

/-! The segments of a line. -/

lemma mem_plainPart {part : Segment} (h : part ∈ plainPart t) : t ≠ [] ∧ part = .plain t := by
  unfold plainPart at h
  split at h
  · cases h
  · next hne => exact ⟨hne, List.mem_singleton.1 h⟩

/-- A text without a run is one segment, if any. -/
lemma segments_of_firstRun?_eq_none (h : firstRun? none t = none) : segments t = plainPart t := by
  unfold segments
  cases t with
  | nil => rfl
  | cons c t => rw [List.length_cons, segmentsFrom, h]

/-- What the segments of a line are like: no plain stretch is empty or has a run in it, no run is
empty or has its delimiter in it after the first character. -/
def Segment.Sound : Segment → Prop
  | plain text => text ≠ [] ∧ segments text = [plain text]
  | run e inner => inner ≠ [] ∧ e.delimiter ∉ inner.tail

lemma sound_of_mem_plainPart {part : Segment} (hopens : opensAfter previous = true)
    (hnone : firstRun? previous t = none) (h : part ∈ plainPart t) : part.Sound := by
  obtain ⟨hne, rfl⟩ := mem_plainPart h
  have halone := segments_of_firstRun?_eq_none (firstRun?_none_of_opensAfter hopens hnone)
  rw [plainPart, if_neg hne] at halone
  exact ⟨hne, halone⟩

lemma sound_run_of_firstRun? (h : firstRun? previous line = some f) :
    (Segment.run f.emphasis f.inner).Sound := by
  obtain ⟨t, hclose⟩ := closeRun?_of_firstRun? h
  obtain ⟨c, u, i, -, -, hinner, hcut⟩ := exists_cutAt?_of_closeRun? hclose
  rw [hinner]
  exact ⟨List.cons_ne_nil c i, notMem_of_cutAt? hcut⟩

/-- Enough fuel and a start where runs may start. After a run this is so again, since a delimiter is
no letter or digit; hence every stretch sees the same runs in its line as it does alone. -/
lemma sound_of_mem_segmentsFrom {fuel : Nat} (hfuel : line.length ≤ fuel)
    (hopens : opensAfter previous = true) : ∀ part ∈ segmentsFrom fuel previous line, part.Sound := by
  induction fuel generalizing previous line with
  | zero =>
    obtain rfl := List.length_eq_zero_iff.1 (Nat.le_zero.1 hfuel)
    exact fun part hpart => absurd rfl (mem_plainPart hpart).1
  | succ fuel ih =>
    intro part hpart
    rw [segmentsFrom] at hpart
    split at hpart
    · next hnone => exact sound_of_mem_plainPart hopens hnone hpart
    · next f hf =>
      have hrest := length_rest_lt_of_firstRun? hf
      obtain hgap | hrun | hlater : part ∈ plainPart f.before ∨ part = .run f.emphasis f.inner ∨
          part ∈ segmentsFrom fuel (some f.emphasis.delimiter) f.rest := by
        simpa using hpart
      · exact sound_of_mem_plainPart hopens (firstRun?_before_eq_none hf) hgap
      · rw [hrun]
        exact sound_run_of_firstRun? hf
      · exact ih (by omega) (opensAfter_delimiter _) part hlater

theorem sound_of_mem_segments : ∀ part ∈ segments line, part.Sound :=
  sound_of_mem_segmentsFrom (Nat.le_refl _) rfl

/-- Whether at least one of two segments is a run. -/
def Segment.Apart : Segment → Segment → Prop
  | plain _, plain _ => False
  | _, _ => True

lemma isChain_apart_run_cons {e : Emphasis} {parts : List Segment}
    (h : parts.IsChain Segment.Apart) : (.run e inner :: parts).IsChain Segment.Apart := by
  refine List.isChain_cons.2 ⟨fun part _ => ?_, h⟩
  cases part <;> exact trivial

lemma isChain_apart_segmentsFrom (fuel : Nat) (previous : Option Char) (line : Text) :
    (segmentsFrom fuel previous line).IsChain Segment.Apart := by
  have hplain (t : Text) : (plainPart t).IsChain Segment.Apart := by
    unfold plainPart
    split <;> simp
  induction fuel generalizing previous line with
  | zero => exact hplain line
  | succ fuel ih =>
    rw [segmentsFrom]
    split
    · exact hplain line
    · next f hf =>
      refine List.isChain_append.2 ⟨hplain _, isChain_apart_run_cons (ih _ _), ?_⟩
      intro first _ second hsecond
      obtain rfl : second = .run f.emphasis f.inner := by simpa [eq_comm] using hsecond
      cases first <;> exact trivial

/-- No two plain stretches of a line are neighbours. -/
theorem isChain_apart_segments (line : Text) : (segments line).IsChain Segment.Apart :=
  isChain_apart_segmentsFrom ..

/-- Every segment stands somewhere in the line. -/
lemma exists_around_of_mem_segments {part : Segment} (h : part ∈ segments line) :
    ∃ before after, line = before ++ part.source ++ after := by
  obtain ⟨before, after, hparts⟩ := List.append_of_mem h
  refine ⟨before.flatMap Segment.source, after.flatMap Segment.source, ?_⟩
  have hline : (segments line).flatMap Segment.source = line := flatMap_source_segments line
  rw [← hline, hparts, List.flatMap_append, List.flatMap_cons, List.append_assoc]

/-- The inside of a run lacks at least the two delimiters of its line. -/
lemma length_of_run_mem_segments {e : Emphasis} (h : .run e inner ∈ segments line) :
    inner.length + 2 ≤ line.length := by
  obtain ⟨before, after, hline⟩ := exists_around_of_mem_segments h
  have hlength := congrArg List.length hline
  simp only [Segment.source, List.length_append, List.length_cons, List.length_nil] at hlength
  omega

end UmlDrawing.Markup
