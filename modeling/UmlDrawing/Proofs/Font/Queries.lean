import UmlDrawing.Proofs.Font.Metrics

/-! Metrics that are shared. Whatever they were asked before, and whichever fonts other metrics used
meanwhile, they answer like new ones; and they remember one line height for every style that has
one. -/
namespace UmlDrawing

namespace Metrics

/-- A question to metrics. -/
inductive Query where
  | font (style : FontStyle Scalar)
  | width (text : Text) (style : FontStyle Scalar)
  | height (style : FontStyle Scalar)
  | count

/-- What happens to metrics: they are asked, or others use the fonts that all metrics share. -/
inductive Use where
  | query (q : Query)
  | elsewhere (stock : FontStock)

/-- The metrics after a question. -/
def asked (m : Metrics) : Query → Metrics
  | .font style => (m.font style).2
  | .width text style => (m.width text style).2
  | .height style => (m.height style).2
  | .count => m

def used (m : Metrics) : Use → Metrics
  | .query q => m.asked q
  | .elsewhere stock => { m with toFontStock := stock }

def after (m : Metrics) (uses : List Use) : Metrics := uses.foldl used m

lemma after_append (m : Metrics) (uses more : List Use) :
    m.after (uses ++ more) = (m.after uses).after more :=
  List.foldl_append

/-- The fonts are right in all that others make of the stock. -/
def Fair (library : FontLibrary) (uses : List Use) : Prop :=
  ∀ stock, .elsewhere stock ∈ uses → stock.Holds library

variable {library : FontLibrary} {m : Metrics} {a b : FontStyle Scalar}

/-- Every question leaves metrics reliable. -/
lemma Reliable.asked (hlibrary : library.Uniform) (h : Reliable library m) (q : Query) :
    Reliable library (m.asked q) := by
  cases q with
  | font style => exact (h.font hlibrary style).2
  | width t style => exact (h.width hlibrary t style).2
  | height style => exact (h.height hlibrary style).2
  | count => exact h

theorem Reliable.after (hlibrary : library.Uniform) (h : Reliable library m) {uses : List Use}
    (huses : Fair library uses) : Reliable library (m.after uses) := by
  induction uses generalizing m with
  | nil => exact h
  | cons use uses ih =>
    refine ih ?_ fun stock hstock => huses stock (List.mem_cons_of_mem use hstock)
    cases use with
    | query q => exact h.asked hlibrary q
    | elsewhere stock => exact ⟨huses stock (List.mem_cons_self ..), h.heights⟩

section Count

/-- What tells styles apart, with the size as a number. -/
def key (style : FontStyle Scalar) : Text × Option (WithBotTop ℚ) × Bool × Bool :=
  (style.family, style.size.exact, style.bold, style.italic)

/-- The styles whose line heights were given in answer to questions. -/
def given (m : Metrics) : List Use → List (FontStyle Scalar)
  | [] => []
  | .query (.height style) :: uses =>
    (match (m.height style).1 with
      | .ok _ => [style]
      | .error _ => []) ++ given (m.height style).2 uses
  | use :: uses => given (m.used use) uses

lemma sameStyle_iff (hb : b.size.exact ≠ none) : sameStyle a b = true ↔ key a = key b := by
  obtain ⟨p, hp⟩ := Option.ne_none_iff_exists'.1 hb
  simp only [sameStyle, key, Bool.and_eq_true, beq_iff_eq, Scalar.same_iff, hp, Prod.mk.injEq,
    Option.some.injEq]
  constructor
  · rintro ⟨⟨⟨hfamily, p', ha, rfl⟩, hbold⟩, hitalic⟩
    exact ⟨hfamily, ha, hbold, hitalic⟩
  · rintro ⟨hfamily, ha, hbold, hitalic⟩
    exact ⟨⟨⟨hfamily, p, ha, rfl⟩, hbold⟩, hitalic⟩

/-- The keys of the styles whose line heights are remembered. -/
def keys (m : Metrics) : List (Text × Option (WithBotTop ℚ) × Bool × Bool) :=
  m.heights.map fun entry => key entry.1

lemma heights_font (m : Metrics) (style : FontStyle Scalar) :
    (m.font style).2.heights = m.heights := by
  unfold Metrics.font
  split
  · rfl
  · split <;> rfl

lemma heights_width (m : Metrics) (t : Text) (style : FontStyle Scalar) :
    (m.width t style).2.heights = m.heights := by
  unfold Metrics.width
  split
  · rfl
  · exact heights_font m style

lemma known?_eq_none_iff (hb : b.size.exact ≠ none) : m.known? b = none ↔ key b ∉ m.keys := by
  simp only [known?, keys, Option.map_eq_none_iff, List.find?_eq_none, sameStyle_iff hb, List.mem_map,
    not_exists, not_and]

/-- A line height is given for a style that has one remembered, or is remembered then. -/
lemma keys_height (m : Metrics) (hb : b.size.exact ≠ none) :
    (∃ h, (m.height b).1 = .ok h ∧ key b ∈ m.keys ∧ (m.height b).2.keys = m.keys) ∨
      (∃ h, (m.height b).1 = .ok h ∧ key b ∉ m.keys ∧ (m.height b).2.keys = m.keys ++ [key b]) ∨
      ∃ fault, (m.height b).1 = .error fault ∧ (m.height b).2.keys = m.keys := by
  have hheights := heights_font m b
  unfold Metrics.height
  cases hknown : m.known? b with
  | some h =>
    have hmem : key b ∈ m.keys := by
      by_contra hnot
      rw [(known?_eq_none_iff hb).2 hnot] at hknown
      cases hknown
    exact .inl ⟨h, rfl, hmem, rfl⟩
  | none =>
    right
    generalize m.font b = found at hheights ⊢
    obtain ⟨font, n⟩ := found
    dsimp only at hheights ⊢
    split
    · next h _ =>
      refine .inl ⟨h, rfl, (known?_eq_none_iff hb).1 hknown, ?_⟩
      simp only [keys, hheights, List.map_append, List.map_cons, List.map_nil]
    · next fault _ => exact .inr ⟨fault, rfl, by rw [keys, hheights, keys]⟩

lemma given_cons (m : Metrics) (use : Use) (uses : List Use) :
    m.given (use :: uses) = m.given [use] ++ (m.used use).given uses := by
  cases use with
  | elsewhere stock => rfl
  | query q =>
    cases q with
    | height style =>
      simp only [given, List.append_nil]
      rfl
    | _ => rfl

/-- What is remembered after a use is what was remembered before, with the line height that it gave. -/
lemma keys_used (hm : m.keys.Nodup) {use : Use}
    (hsize : ∀ style, use = .query (.height style) → style.size.exact ≠ none) :
    (m.used use).keys.Nodup ∧
      ∀ k, k ∈ (m.used use).keys ↔ k ∈ m.keys ∨ k ∈ (m.given [use]).map key := by
  have hsame (hkeys : (m.used use).keys = m.keys) (hgiven : m.given [use] = []) :
      (m.used use).keys.Nodup ∧
        ∀ k, k ∈ (m.used use).keys ↔ k ∈ m.keys ∨ k ∈ (m.given [use]).map key := by
    rw [hkeys, hgiven]
    exact ⟨hm, fun k => (or_iff_left List.not_mem_nil).symm⟩
  have hheights {n : Metrics} (h : n.heights = m.heights) : n.keys = m.keys := by
    rw [keys, h, keys]
  cases use with
  | elsewhere stock => exact hsame rfl rfl
  | query q =>
    cases q with
    | count => exact hsame rfl rfl
    | font style => exact hsame (hheights (heights_font m style)) rfl
    | width t style => exact hsame (hheights (heights_width m t style)) rfl
    | height b =>
      have hused : m.used (.query (.height b)) = (m.height b).2 := rfl
      obtain ⟨h, hanswer, hmem, hkeys⟩ | ⟨h, hanswer, hnew, hkeys⟩ | ⟨fault, hanswer, hkeys⟩ :=
        keys_height m (hsize b rfl)
      · have hgiven : m.given [.query (.height b)] = [b] := by rw [given, hanswer]; rfl
        rw [hused, hkeys, hgiven]
        refine ⟨hm, fun k => (or_iff_left_of_imp fun hk => ?_).symm⟩
        obtain rfl := List.mem_singleton.1 hk
        exact hmem
      · have hgiven : m.given [.query (.height b)] = [b] := by rw [given, hanswer]; rfl
        rw [hused, hkeys, hgiven]
        exact ⟨hm.append (List.nodup_singleton _) (by simpa using hnew), fun k => List.mem_append⟩
      · have hgiven : m.given [.query (.height b)] = [] := by rw [given, hanswer]; rfl
        exact hsame hkeys hgiven

/-- The keys that are remembered are all different, and are those of the line heights given. -/
theorem keys_after {uses : List Use} (hm : m.keys.Nodup)
    (hsizes : ∀ style, .query (.height style) ∈ uses → style.size.exact ≠ none) :
    (m.after uses).keys.Nodup ∧
      ∀ k, k ∈ (m.after uses).keys ↔ k ∈ m.keys ∨ k ∈ (m.given uses).map key := by
  -- a later question meets the line heights of all earlier ones, so this is about any metrics
  induction uses generalizing m with
  | nil => exact ⟨hm, fun k => (or_iff_left List.not_mem_nil).symm⟩
  | cons use uses ih =>
    obtain ⟨hnodup, hmem⟩ := keys_used hm fun style h => hsizes style (h ▸ List.mem_cons_self)
    have hlater := ih hnodup fun style h => hsizes style (List.mem_cons_of_mem use h)
    refine hlater.imp_right fun h k => ?_
    rw [given_cons, List.map_append, List.mem_append, ← or_assoc, ← hmem]
    exact h k

/-- As many line heights are remembered as there are styles that one was given for. -/
theorem count_after (hm : m.heights = []) {uses : List Use}
    (hsizes : ∀ style, .query (.height style) ∈ uses → style.size.exact ≠ none) :
    (m.after uses).count = ((m.given uses).map key).toFinset.card := by
  have hnone : m.keys = [] := by rw [keys, hm, List.map_nil]
  obtain ⟨hnodup, hmem⟩ := keys_after (hnone ▸ List.nodup_nil) hsizes
  have hkeys : (m.after uses).keys.toFinset = ((m.given uses).map key).toFinset := by
    ext k
    rw [List.mem_toFinset, List.mem_toFinset, hmem, hnone]
    exact or_iff_right List.not_mem_nil
  rw [← hkeys, List.toFinset_card_of_nodup hnodup, keys, List.length_map]
  rfl

end Count

end Metrics

end UmlDrawing
