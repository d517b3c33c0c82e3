import UmlDrawing.Proofs.Surface.Twins

/-! Sketches whose questions about texts are answered beforehand. Only the commands and reports of a
sketch are left then, and playing them is playing the sketch with metrics that give these answers. -/
open UmlDrawing.Action

namespace UmlDrawing

/-- The measures of all texts in all fonts. -/
structure Gauge where
  width : Text → FontStyle Scalar → Float
  height : FontStyle Scalar → Float

namespace Sketch

variable {β γ : Type} {g : Gauge}

/-- The sketch with the measures of a gauge in answer to its questions. -/
def answered (g : Gauge) : Sketch Scalar β → Sketch Scalar β
  | done b => done b
  | fail fault => fail fault
  | note n next => note n (next.answered g)
  | command on c next => command on c fun r => (next r).answered g
  | askWidth t font next => (next (.ok (.real (g.width t font)))).answered g
  | askHeight font next => (next (.ok (.real (g.height font)))).answered g

lemma answered_bind (s : Sketch Scalar β) (f : β → Sketch Scalar γ) :
    (s >>= f).answered g = s.answered g >>= fun b => (f b).answered g := by
  change (s.bind f).answered g = (s.answered g).bind fun b => (f b).answered g
  induction s with
  | done b => rfl
  | fail fault => rfl
  | note n next ih => rw [bind, answered, answered, bind, ih]
  | command on c next ih => rw [bind, answered, answered, bind, funext ih]
  | askWidth t font next ih => rw [bind, answered, answered, ih]
  | askHeight font next ih => rw [bind, answered, answered, ih]

variable {Content Shared Saved : Type} [Medium Content Shared Saved]

/-- Playing one sketch after another. -/
lemma play_bind (base : Nat) (s : Sketch Scalar β) (f : β → Sketch Scalar γ) :
    (s >>= f).play base = (s.play base >>= fun b => (f b).play base :
      Action (Studio Content Shared Saved) γ) := by
  change (s.bind f).play base = _
  funext t
  induction s generalizing t with
  | done b => rfl
  | fail fault => rfl
  | note n next ih =>
    rw [bind, Sketch.play, Sketch.play, bind_assoc]
    exact ih _
  | command on c next ih => rw [bind, Studio.play_command, ih, bind_apply, bind_apply, Studio.play_command]
  | askWidth text font next ih =>
    rw [bind, Studio.play_askWidth, ih, bind_apply, bind_apply, Studio.play_askWidth]
  | askHeight font next ih =>
    rw [bind, Studio.play_askHeight, ih, bind_apply, bind_apply, Studio.play_askHeight]

end Sketch

/-- Metrics that give the measures of a gauge in answer to some questions, and keep doing so. -/
structure Gauge.Tells (g : Gauge) (posed : Metrics.Query → Prop) (keep : Metrics → Prop) : Prop where
  width {m : Metrics} (hm : keep m) {t : Text} {font : FontStyle Scalar}
    (hposed : posed (.width t font)) :
    (m.width t font).1 = .ok (.real (g.width t font)) ∧ keep (m.width t font).2
  height {m : Metrics} (hm : keep m) {font : FontStyle Scalar} (hposed : posed (.height font)) :
    (m.height font).1 = .ok (.real (g.height font)) ∧ keep (m.height font).2

namespace Studio.Twins

variable {Content Shared Saved β : Type} {g : Gauge} {posed : Metrics.Query → Prop}
  {keep : Metrics → Prop} {s t : Studio Content Shared Saved}

/-- A question that one of two drawings is not asked. -/
lemma of_ask {α : Type} {agree : Metrics → Metrics → Prop} (h : Twins agree s t)
    (question : Metrics → Except Fault α × Metrics) {a : α} (hanswer : (question t.metrics).1 = .ok a)
    (hagree : agree s.metrics (question t.metrics).2) :
    ∃ u, Studio.ask question t = .ok a u ∧ Twins agree s u := by
  obtain ⟨h⟩ := h
  dsimp only at hanswer hagree
  refine ⟨{ s with metrics := _ }, ?_, .intro hagree⟩
  simp only [Studio.ask, hanswer]

variable [Medium Content Shared Saved]

/-- Metrics that give the measures of a gauge lead a sketch the same way as its answered form, where
texts are kept with the names of their fonts. -/
theorem play_answered (hwritten : ∀ c : Command Scalar, c.setFont? Content = none)
    (htells : g.Tells posed keep) (h : Twins (fun m n => keep m ∧ keep n) s t) (base : Nat) (sketch : Sketch Scalar β)
    (hposed : ∀ q, sketch.Poses q → posed q) :
    Alike (Twins fun m n => keep m ∧ keep n) ((sketch.answered g).play base s)
      (sketch.play base t) := by
  -- the answered sketch stays where it is while the other one asks
  induction sketch generalizing s t with
  | done b => exact .ok b h
  | fail fault => exact .error fault h
  | note n next ih =>
    rw [Sketch.answered, Sketch.play, Sketch.play]
    exact (h.report [n]).bind (fun _ _ _ h => ih h hposed) fun _ _ h => h
  | command on c next ih =>
    have hstep := h.perform_of_font base on c fun style hstyle => by
      rw [hwritten c] at hstyle
      cases hstyle
    rw [Sketch.answered, play_command, play_command, hstep.outcome]
    exact ih _ hstep.final fun q hq => hposed q ⟨_, hq⟩
  | askWidth text font next ih =>
    obtain ⟨hanswer, hkeep⟩ := htells.width h.metrics.2 (hposed (.width text font) (.inl rfl))
    obtain ⟨u, hu, htwins⟩ := h.of_ask (fun m => m.width text font) hanswer ⟨h.metrics.1, hkeep⟩
    have hwidth : Studio.width text font t = .ok (.real (g.width text font)) u := hu
    rw [Sketch.answered, play_askWidth, hwidth]
    exact ih _ htwins fun q hq => hposed q (.inr ⟨_, hq⟩)
  | askHeight font next ih =>
    obtain ⟨hanswer, hkeep⟩ := htells.height h.metrics.2 (hposed (.height font) (.inl rfl))
    obtain ⟨u, hu, htwins⟩ := h.of_ask (fun m => m.height font) hanswer ⟨h.metrics.1, hkeep⟩
    have hheight : Studio.height font t = .ok (.real (g.height font)) u := hu
    rw [Sketch.answered, play_askHeight, hheight]
    exact ih _ htwins fun q hq => hposed q (.inr ⟨_, hq⟩)

end Studio.Twins

end UmlDrawing
