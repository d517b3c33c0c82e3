import UmlDrawing.Font.Block
import UmlDrawing.Proofs.Compositor.Step
import UmlDrawing.Proofs.Surface.Twins

/-! Passes that share their metrics with other passes and other diagrams. A pass with shared metrics
draws and reports what it does with new ones, and leaves metrics that were only asked more. -/
open UmlDrawing.Action

namespace UmlDrawing

namespace Compositor

open Studio

variable {Content Shared Saved : Type} [Medium Content Shared Saved]
  {agree : Metrics → Metrics → Prop} {c : Compositor} {s t : Studio Content Shared Saved}
  {m n : Metrics}

lemma sketchElement_twins (hagree : Metrics.Agreement agree) (h : Twins agree s t)
    (renderer : Renderer Scalar) (number : Nat) (e : Element) :
    Alike (Twins agree) (sketchElement c renderer number e s)
      (sketchElement c renderer number e t) :=
  (h.saved number fun _ _ h => h.play hagree number (renderer e.localized c.config)).tryCatch
    fun _ _ _ h => h.report _

lemma outline_twins (hagree : Metrics.Agreement agree) (h : Twins agree s t) (number : Nat)
    (b : Bounds) : Alike (Twins agree) (outline number b s) (outline number b t) := by
  refine (h.perform hagree _ _ _).bind (fun _ s t h => ?_) fun _ _ h => h
  refine (h.perform hagree _ _ _).bind (fun _ s t h => ?_) fun _ _ h => h
  exact h.perform hagree _ _ _

/-- All that is drawn to the surface of an element is the same in both drawings. -/
theorem drawElement_twins (hagree : Metrics.Agreement agree) (h : Twins agree s t)
    (renderer : Renderer Scalar) (notes : List Note) (number : Nat) (e : Element) :
    Alike (Twins agree) (drawElement c renderer notes number e s)
      (drawElement c renderer notes number e t) := by
  refine (h.perform hagree _ _ _).bind (fun _ s t h => ?_) fun _ _ h => h
  refine (h.report _).bind (fun _ s t h => ?_) fun _ _ h => h
  refine (sketchElement_twins hagree h renderer number e).bind (fun _ s t h => ?_) fun _ _ h => h
  split
  · exact outline_twins hagree h number e.bounds
  · exact .ok () h

/-- An element is drawn and placed the same way in both drawings. -/
theorem renderElement_twins (hagree : Metrics.Agreement agree) (h : Twins agree s t) (e : Element) :
    Alike (Twins agree) (renderElement c e s) (renderElement c e t) := by
  -- both drawings have as many surfaces, so the new one has the same number in both
  have hlength : s.surfaces.length = t.surfaces.length := by
    obtain ⟨_⟩ := h
    rfl
  obtain ⟨found, notes, hfind⟩ : ∃ found notes, c.registry.find e.kind = (found, notes) :=
    ⟨_, _, rfl⟩
  cases found with
  | ok renderer =>
    rw [renderElement_eq hfind, renderElement_eq hfind, hlength]
    refine (h.perform hagree _ _ _).bind (fun _ s t h => ?_) fun _ _ h => h
    refine (drawElement_twins hagree h renderer notes _ e).bind (fun _ s t h => ?_) fun _ _ h => h
    exact h.perform hagree _ _ _
  | error fault =>
    rw [renderElement, bind_of_ok (get_apply s), bind_of_ok (get_apply t), hfind, hlength]
    refine (h.perform hagree _ _ _).bind (fun _ s t h => ?_) fun _ _ h => h
    refine (h.perform hagree _ _ _).bind (fun _ s t h => ?_) fun _ _ h => h
    refine (h.report _).bind (fun _ s t h => ?_) fun _ _ h => h
    exact .error fault h

theorem renderElements_twins (hagree : Metrics.Agreement agree) (h : Twins agree s t)
    (es : List Element) : Alike (Twins agree) (renderElements c es s) (renderElements c es t) := by
  induction es generalizing s t with
  | nil => exact .ok () h
  | cons e es ih =>
    exact (renderElement_twins hagree h e).bind (fun _ _ _ h => ih h) fun _ _ h => h

variable (Content) in
lemma start_twins (h : agree m n) (size : Vec Scalar) :
    (∃ fault, (start size m : Except Fault (Studio Content Shared Saved)) = .error fault ∧
        (start size n : Except Fault (Studio Content Shared Saved)) = .error fault) ∨
      ∃ s t : Studio Content Shared Saved, start size m = .ok s ∧ start size n = .ok t ∧
        Twins agree s t := by
  cases hroot : (Medium.root size : Except Fault (Canvas Content Shared)) with
  | error fault =>
    left
    refine ⟨fault, ?_, ?_⟩ <;> rw [start, hroot] <;> rfl
  | ok canvas =>
    right
    refine ⟨_, _, by rw [start, hroot]; rfl, by rw [start, hroot]; rfl, ?_⟩
    exact .intro (s := { shared := canvas.1, surfaces := [_], metrics := m }) h

/-- A pass has the same result and the same reports with all metrics that agree. -/
theorem drawElements_twins (hagree : Metrics.Agreement agree) (h : agree m n) (size : Vec Int)
    (es : List Element) (notes : List Note) :
    ∃ n' : Metrics, agree (drawElements c size m es notes : Pass (Canvas Content Shared)).metrics n' ∧
      (drawElements c size n es notes : Pass (Canvas Content Shared)) =
        { (drawElements c size m es notes : Pass (Canvas Content Shared)) with metrics := n' } := by
  rw [drawElements, drawElements]
  obtain ⟨fault, hs, ht⟩ | ⟨s, t, hs, ht, htwins⟩ :=
    start_twins Content h (size.map Scalar.whole)
  · rw [hs, ht]
    exact ⟨n, h, rfl⟩
  · rw [hs, ht]
    dsimp only
    have hrun := renderElements_twins (c := c) hagree htwins es
    generalize renderElements c es s = u at hrun
    generalize renderElements c es t = v at hrun
    cases hrun with
    | ok _ h =>
      obtain ⟨hn⟩ := h
      exact ⟨_, hn, rfl⟩
    | error fault h =>
      obtain ⟨hn⟩ := h
      exact ⟨_, hn, rfl⟩

variable (Content) in
theorem render_twins (hagree : Metrics.Agreement agree) (h : agree m n) (c : Compositor)
    (size : Vec Int) (records : List ElementRecord) :
    ∃ n' : Metrics, agree (c.render size m records : Pass (Canvas Content Shared)).metrics n' ∧
      (c.render size n records : Pass (Canvas Content Shared)) =
        { (c.render size m records : Pass (Canvas Content Shared)) with metrics := n' } := by
  rw [render, render]
  split
  · exact ⟨n, h, rfl⟩
  · exact drawElements_twins hagree h _ _ _

variable {library : FontLibrary}

omit [Medium Content Shared Saved] in
lemma twins_reliable (hs : s.metrics.Reliable library) :
    Twins (Metrics.BothReliable library) s s :=
  .intro (n := s.metrics) ⟨hs, hs⟩

/-- The drawing of an element leaves the metrics reliable, whether it fails or not. -/
lemma renderElement_reliable (hlibrary : library.Uniform) (h : s.metrics.Reliable library)
    (c : Compositor) (e : Element) :
    (final (renderElement c e s)).metrics.Reliable library :=
  (renderElement_twins (Metrics.agreement_reliable hlibrary) (twins_reliable h) e).final.metrics.1

/-- A pass leaves the metrics reliable, whether it fails or not. -/
lemma render_reliable (hlibrary : library.Uniform) (h : m.Reliable library) (c : Compositor)
    (size : Vec Int) (records : List ElementRecord) :
    (c.render size m records : Pass (Canvas Content Shared)).metrics.Reliable library := by
  obtain ⟨n, hn, -⟩ := render_twins Content (Metrics.agreement_reliable hlibrary)
    ⟨h, h⟩ c size records
  exact hn.1

end Compositor

namespace Metrics

variable {library : FontLibrary} {m n : Metrics} {stock : FontStock}

/-- Metrics that were only asked questions since they were shared, and other ones, both reliable. -/
structure Since (library : FontLibrary) (shared m n : Metrics) : Prop where
  since : ∃ queries : List Query, m = shared.after (queries.map .query)
  left : m.Reliable library
  right : n.Reliable library

/-- One more question to metrics that were only asked questions. -/
lemma Since.asked {shared m n : Metrics} (hlibrary : library.Uniform)
    (h : Since library shared m n) (q : Query) : Since library shared (m.asked q) (n.asked q) := by
  obtain ⟨queries, hm⟩ := h.since
  refine ⟨⟨queries ++ [q], ?_⟩, h.left.asked hlibrary q, h.right.asked hlibrary q⟩
  rw [List.map_append, after_append, ← hm]
  rfl

lemma agreement_since (hlibrary : library.Uniform) (shared : Metrics) :
    Agreement (Since library shared) where
  font h style :=
    ⟨((agreement_reliable hlibrary).font ⟨h.left, h.right⟩ style).1, h.asked hlibrary (.font style)⟩
  width h t style :=
    ⟨((agreement_reliable hlibrary).width ⟨h.left, h.right⟩ t style).1,
      h.asked hlibrary (.width t style)⟩
  height h style :=
    ⟨((agreement_reliable hlibrary).height ⟨h.left, h.right⟩ style).1,
      h.asked hlibrary (.height style)⟩

/-- A pass with reliable metrics has the result and the reports of one with any other reliable metrics,
and only asks them. -/
theorem render_shared (Content : Type) {Shared Saved : Type} [Medium Content Shared Saved]
    (hlibrary : library.Uniform) (hm : m.Reliable library) (hn : n.Reliable library)
    (c : Compositor) (size : Vec Int) (records : List ElementRecord) :
    let pass : Pass (Canvas Content Shared) := c.render size m records
    let alone : Pass (Canvas Content Shared) := c.render size n records
    pass.result = alone.result ∧ pass.size = alone.size ∧ pass.notes = alone.notes ∧
      ∃ queries : List Query, pass.metrics = m.after (queries.map .query) := by
  intro pass alone
  obtain ⟨n', hn', hrender⟩ : ∃ n', Since library m pass.metrics n' ∧
      alone = { pass with metrics := n' } :=
    Compositor.render_twins Content (agreement_since hlibrary m) ⟨⟨[], rfl⟩, hm, hn⟩ c size records
  rw [hrender]
  exact ⟨rfl, rfl, rfl, hn'.since⟩

/-- Metrics that are shared change no answer and no drawing. Whatever they were asked before, and
whichever fonts other metrics used meanwhile, they give the widths and line heights that new ones give,
and remember one line height for every style that one was given for. A pass draws and reports the same
with them as with new ones, and does nothing to them but ask. -/
theorem sharing_transparent (hlibrary : library.Uniform) (hstock : stock.Holds library)
    {uses : List Use} (huses : Fair library uses) :
    let new : Metrics := { installed := library }
    let fresh : Metrics := { toFontStock := stock }
    let shared := new.after uses
    (∀ t style, (shared.width t style).1 = (fresh.width t style).1) ∧
    (∀ style, (shared.height style).1 = (fresh.height style).1) ∧
    ((∀ style, .query (.height style) ∈ uses → style.size.exact ≠ none) →
      shared.count = ((new.given uses).map key).toFinset.card) ∧
    ∀ (Content Shared Saved : Type) [Medium Content Shared Saved] (c : Compositor) (size : Vec Int)
      (records : List ElementRecord),
      let pass : Pass (Canvas Content Shared) := c.render size shared records
      let alone : Pass (Canvas Content Shared) := c.render size fresh records
      pass.result = alone.result ∧ pass.size = alone.size ∧ pass.notes = alone.notes ∧
        ∃ queries : List Query, pass.metrics = new.after (uses ++ queries.map .query) := by
  intro new fresh shared
  have hnew : new.Reliable library := reliable_new (FontStock.holds_new library)
  have hfresh : fresh.Reliable library := reliable_new hstock
  have hshared : shared.Reliable library := hnew.after hlibrary huses
  have hagree := agreement_reliable hlibrary
  refine ⟨fun t style => (hagree.width ⟨hshared, hfresh⟩ t style).1,
    fun style => (hagree.height ⟨hshared, hfresh⟩ style).1, count_after rfl, ?_⟩
  intro Content Shared Saved _ c size records
  obtain ⟨hresult, hsize, hnotes, queries, hmetrics⟩ :=
    render_shared Content hlibrary hshared hfresh c size records
  exact ⟨hresult, hsize, hnotes, queries, hmetrics.trans (after_append new uses _).symm⟩

/-- The standard fonts, with their sizes read as doubles. -/
def standardFonts : FontLibrary := FontLibrary.inDoubles FontFiles.standard

/-- A style with some size. -/
def sized (size : Scalar) : FontStyle Scalar := ⟨"serif".toList, size, false, false⟩

theorem sharing_transparent_fourteen :
    let new : Metrics := { installed := standardFonts }
    let uses : List Use := [.query (.height (sized (.whole 14))), .elsewhere ⟨standardFonts, []⟩,
      .query (.height (sized (.whole (-1)))), .query (.height (sized (.real 14.0)))]
    let shared := new.after uses
    (shared.width ['A'] (sized (.real 14.0))).1 = (new.width ['A'] (sized (.real 14.0))).1 ∧
      shared.count = 1 ∧ ((new.given uses).map key).toFinset.card = 1 := by
  intro new uses shared
  have hempty : FontStock.Holds standardFonts ⟨standardFonts, []⟩ := FontStock.holds_new _
  have hfair : Fair standardFonts uses := by
    intro stock hstock
    simp only [uses, List.mem_cons, List.not_mem_nil, or_false, reduceCtorEq, false_or,
      Use.elsewhere.injEq] at hstock
    rw [hstock]
    exact hempty
  have hsizes (style : FontStyle Scalar) (h : .query (.height style) ∈ uses) :
      style.size.exact ≠ none := by
    simp only [uses, List.mem_cons, List.not_mem_nil, or_false, reduceCtorEq, false_or,
      Use.query.injEq, Query.height.injEq] at h
    obtain rfl | rfl | rfl := h
    · exact Option.some_ne_none _
    · exact Option.some_ne_none _
    · have hnumber : Binary64.value 14.0 ≠ .nan := by decide
      exact fun hnone => hnumber (Binary64.exact_eq_none.1 hnone)
  obtain ⟨hwidth, -, hcount, -⟩ :=
    sharing_transparent (FontLibrary.uniform_inDoubles _) hempty hfair
  have hone : shared.count = 1 := by decide +kernel
  exact ⟨hwidth _ _, hone, (hcount hsizes).symm.trans hone⟩

end Metrics

end UmlDrawing
