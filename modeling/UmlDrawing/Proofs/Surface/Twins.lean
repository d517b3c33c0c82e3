import UmlDrawing.Proofs.Font.Queries
import UmlDrawing.Proofs.Surface.Step

/-! Drawings that differ in their metrics at most. Nothing of the metrics is looked at but the answers
to questions, so as long as the answers are the same the drawings stay the same, with the same
reports. -/
open UmlDrawing.Action

namespace UmlDrawing

variable {Content Shared Saved β : Type}

namespace Sketch

/-- Whether a sketch may ask a question. -/
def Poses (q : Metrics.Query) : Sketch Scalar β → Prop
  | done _ => False
  | fail _ => False
  | note _ next => next.Poses q
  | command _ _ next => ∃ answer, (next answer).Poses q
  | askWidth text font next => q = .width text font ∨ ∃ answer, (next answer).Poses q
  | askHeight font next => q = .height font ∨ ∃ answer, (next answer).Poses q

end Sketch

/-- The font that a command asks for on surfaces of some kind, where its text is set in it. -/
def Command.setFont? (Content : Type) {Shared Saved : Type} [Medium Content Shared Saved] :
    Command Scalar → Option (FontStyle Scalar)
  | .text t _ font color =>
    match (Medium.text t font color : Lettering Content Shared) with
    | .written _ => none
    | .set _ => some font
  | _ => none

/-- A text is drawn the same way with metrics that agree, if they do so on the font that it is set
in. -/
lemma Lettering.draw_eq {agree : Metrics → Metrics → Prop} {m n : Metrics}
    (l : Lettering Content Shared) (h : agree m n) {style : FontStyle Scalar}
    (hset : ∀ draw, l = .set draw →
      (m.font style).1 = (n.font style).1 ∧ agree (m.font style).2 (n.font style).2)
    (position : Except Fault (Vec Scalar)) :
    l.draw position (m.font style).1 = l.draw position (n.font style).1 ∧
      agree (l.metricsAfter position style m) (l.metricsAfter position style n) := by
  cases l with
  | written draw => exact ⟨rfl, h⟩
  | set draw =>
    obtain ⟨hfont, hafter⟩ := hset draw rfl
    refine ⟨by rw [hfont], ?_⟩
    cases position with
    | error fault => exact h
    | ok corner => exact hafter

namespace Studio

/-- A drawing, and the same one with other metrics. -/
inductive Twins (agree : Metrics → Metrics → Prop) (s : Studio Content Shared Saved) :
    Studio Content Shared Saved → Prop
  | intro {n : Metrics} (h : agree s.metrics n) : Twins agree s { s with metrics := n }

variable {agree : Metrics → Metrics → Prop} {s t : Studio Content Shared Saved}

namespace Twins

lemma metrics (h : Twins agree s t) : agree s.metrics t.metrics := by
  obtain ⟨h⟩ := h
  exact h

lemma onSurface (h : Twins agree s t) (on : Nat) (action : Action (Surface Content Saved) β) :
    Alike (Twins agree) (onSurface on action s) (onSurface on action t) := by
  obtain ⟨h⟩ := h
  rw [onSurface_apply, onSurface_apply]
  dsimp only
  cases s.surfaces[on]? with
  | none => exact .error _ ⟨h⟩
  | some x =>
    dsimp only
    cases action x with
    | ok b y => exact .ok b (.intro (s := { s with surfaces := s.surfaces.set on y }) h)
    | error fault y => exact .error fault (.intro (s := { s with surfaces := s.surfaces.set on y }) h)

lemma onCanvas (h : Twins agree s t) (on : Nat) (action : Action (Canvas Content Shared) Unit) :
    Alike (Twins agree) (onCanvas on action s) (onCanvas on action t) := by
  obtain ⟨h⟩ := h
  rw [onCanvas_apply, onCanvas_apply]
  dsimp only
  cases s.surfaces[on]? with
  | none => exact .error _ ⟨h⟩
  | some x =>
    dsimp only
    cases action (s.shared, x.content) with
    | ok _ canvas => exact .ok () (.intro (s := s.putCanvas on x canvas) h)
    | error fault canvas => exact .error fault (.intro (s := s.putCanvas on x canvas) h)

/-- A question that has the same answer in both drawings. -/
lemma ask (h : Twins agree s t) {question : Metrics → Except Fault β × Metrics}
    (hanswer : (question s.metrics).1 = (question t.metrics).1)
    (hmetrics : agree (question s.metrics).2 (question t.metrics).2) :
    Alike (Twins agree) (ask question s) (ask question t) := by
  obtain ⟨h⟩ := h
  dsimp only at hanswer hmetrics
  simp only [Studio.ask, hanswer]
  cases (question _).1 with
  | ok b => exact .ok b (.intro (s := { s with metrics := _ }) hmetrics)
  | error fault => exact .error fault (.intro (s := { s with metrics := _ }) hmetrics)

/-- What a drawing reports does not depend on its metrics. -/
lemma report (h : Twins agree s t) (notes : List Note) :
    Alike (Twins agree) (report notes s) (report notes t) := by
  obtain ⟨h⟩ := h
  exact .ok () (.intro (s := { s with notes := s.notes ++ notes }) h)

variable [Medium Content Shared Saved]

lemma create (h : Twins agree s t) (size : Vec Scalar) :
    Alike (Twins agree) (create size s) (create size t) := by
  obtain ⟨h⟩ := h
  rw [create_apply, create_apply]
  dsimp only
  cases (Medium.create size s.shared : Except Fault (Canvas Content Shared)) with
  | error fault => exact .error fault ⟨h⟩
  | ok canvas =>
    exact .ok () (.intro (s := { s with shared := canvas.1, surfaces := s.surfaces ++ _ }) h)

/-- A command does the same to both drawings, if the metrics agree on the font that it asks for. -/
theorem perform_of_font (h : Twins agree s t) (base on : Nat) (c : Command Scalar)
    (hfont : ∀ style ∈ c.setFont? Content, (s.metrics.font style).1 = (t.metrics.font style).1 ∧
      agree (s.metrics.font style).2 (t.metrics.font style).2) :
    Alike (Twins agree) (perform base on c s) (perform base on c t) := by
  have hpath {action : List (Subpath Scalar) → Action (Canvas Content Shared) Unit} :
      Alike (Twins agree)
        ((Studio.onSurface (base + on) (Surface.onPen Pen.path) >>= fun path =>
          Studio.onCanvas (base + on) (action path)) s)
        ((Studio.onSurface (base + on) (Surface.onPen Pen.path) >>= fun path =>
          Studio.onCanvas (base + on) (action path)) t) :=
    (h.onSurface _ _).bind (fun _ _ _ h => h.onCanvas _ _) fun _ _ h => h
  cases c with
  | pushState => exact h.onSurface _ (modify Surface.pushState)
  | popState => exact h.onSurface _ (modify Surface.popState)
  | fill color alpha => exact hpath
  | stroke color dash => exact hpath
  | clip => exact hpath
  | text text position font color =>
    obtain ⟨hn⟩ := h
    rw [perform_text_apply, perform_text_apply]
    dsimp only at hfont ⊢
    cases s.surfaces[base + on]? with
    | none => exact .error _ ⟨hn⟩
    | some x =>
      dsimp only
      have hset draw (hdraw : (Medium.text text font color : Lettering Content Shared) = .set draw) :=
        hfont font (by simp only [Command.setFont?, hdraw, Option.mem_def])
      obtain ⟨hdraw, hafter⟩ :=
        Lettering.draw_eq (Medium.text text font color) hn hset (x.pen.offset.add position)
      rw [hdraw]
      exact (intro (s := { s with metrics := _ }) hafter).onCanvas _ _
  | create w height =>
    obtain ⟨hn⟩ := h
    rw [perform_create_apply, perform_create_apply]
    dsimp only
    cases s.surfaces[base + on]? with
    | none => exact .error _ ⟨hn⟩
    | some x => exact (intro hn).create _
  | place number position =>
    obtain ⟨hn⟩ := h
    rw [perform_place_apply, perform_place_apply]
    dsimp only
    cases s.surfaces[base + on]? with
    | none => exact .error _ ⟨hn⟩
    | some x =>
      cases s.surfaces[base + number]? with
      | none => exact .error _ ⟨hn⟩
      | some y =>
        dsimp only
        cases x.pen.offset.add position with
        | error fault => exact .error _ ⟨hn⟩
        | ok corner => exact (intro hn).onCanvas _ _
  | _ =>
    rw [perform_onPen rfl]
    exact h.onSurface _ _

/-- A command does the same to both drawings. -/
theorem perform (hagree : Metrics.Agreement agree) (h : Twins agree s t) (base on : Nat)
    (c : Command Scalar) : Alike (Twins agree) (Studio.perform base on c s) (Studio.perform base on c t) :=
  h.perform_of_font base on c fun style _ => hagree.font h.metrics style

/-- A sketch does the same to both drawings. -/
theorem play (hagree : Metrics.Agreement agree) (h : Twins agree s t) (base : Nat)
    (sketch : Sketch Scalar β) :
    Alike (Twins agree) (sketch.play base s) (sketch.play base t) := by
  -- each command and each answer has the same outcome in both, so that the same sketch goes on
  induction sketch generalizing s t with
  | done b => exact .ok b h
  | fail fault => exact .error fault h
  | note n next ih =>
    rw [Sketch.play]
    exact (h.report [n]).bind (fun _ _ _ h => ih h) fun _ _ h => h
  | command on c next ih =>
    have hstep := h.perform hagree base on c
    rw [play_command, play_command, hstep.outcome]
    exact ih _ hstep.final
  | askWidth text font next ih =>
    obtain ⟨hanswer, hmetrics⟩ := hagree.width h.metrics text font
    have hstep : Alike (Twins agree) (width text font s) (width text font t) :=
      h.ask hanswer hmetrics
    rw [play_askWidth, play_askWidth, hstep.outcome]
    exact ih _ hstep.final
  | askHeight font next ih =>
    obtain ⟨hanswer, hmetrics⟩ := hagree.height h.metrics font
    have hstep : Alike (Twins agree) (height font s) (height font t) := h.ask hanswer hmetrics
    rw [play_askHeight, play_askHeight, hstep.outcome]
    exact ih _ hstep.final

/-- An action between pushing and popping a state. -/
lemma saved (h : Twins agree s t) (on : Nat) {action : Action (Studio Content Shared Saved) β}
    (haction : ∀ s t, Twins agree s t → Alike (Twins agree) (action s) (action t)) :
    Alike (Twins agree) (saved on action s) (saved on action t) :=
  saved_alike_of h (fun _ _ h => h.onSurface on _) (fun _ _ h => h.onSurface on _) haction

end Twins

end Studio

end UmlDrawing
