import UmlDrawing.Proofs.Path.Writable
import UmlDrawing.Proofs.Surface.Studio

/-! Programs: requests to surfaces, one after the other. In a disciplined program every surface is
there when it is used, and one that is placed was made for that, is placed once, not on itself, and
gets nothing drawn on it afterwards. -/
open UmlDrawing.Action

namespace UmlDrawing

/-- Requests, each with the number of the surface that gets it. -/
abbrev Program := List (Nat × Command Scalar)

namespace Command

/-- Whether a command draws to its surface. -/
def draws {α : Type} : Command α → Bool
  | fill .. | stroke .. | text .. | place .. => true
  | _ => false

/-- The surface that a command places. -/
def placed? {α : Type} : Command α → Option Nat
  | place number _ => some number
  | _ => none

/-- The colour that a command draws with. -/
def color? {α : Type} : Command α → Option Color
  | fill color _ | stroke color _ | text _ _ _ color => some color
  | _ => none

end Command

/-- How many surfaces there are, and which of them were placed. -/
structure Roster where
  count : Nat
  placed : List Nat := []

namespace Roster

/-- A command to a surface that is there, and not placed if it draws; what it places is another
surface than the first one, and was not placed before. -/
structure Permits (r : Roster) (on : Nat) (c : Command Scalar) : Prop where
  there : on < r.count
  unplaced : c.draws = true → on ∉ r.placed
  places : ∀ n ∈ c.placed?, n ≠ 0 ∧ n < r.count ∧ n ≠ on ∧ n ∉ r.placed

/-- The surfaces after a command. -/
def after (r : Roster) : Command Scalar → Roster
  | .create .. => { r with count := r.count + 1 }
  | .place number _ => { r with placed := number :: r.placed }
  | _ => r

/-- The surfaces after a program. -/
def afterAll (r : Roster) (p : Program) : Roster := p.foldl (fun r step => r.after step.2) r

end Roster

namespace Program

/-- Every command of a program is permitted when its turn comes. -/
def Disciplined (r : Roster) : Program → Prop
  | [] => True
  | (on, c) :: rest => r.Permits on c ∧ Disciplined (r.after c) rest

lemma disciplined_append {r : Roster} {p q : Program} :
    (p ++ q).Disciplined r ↔ p.Disciplined r ∧ q.Disciplined (r.afterAll p) := by
  induction p generalizing r with
  | nil => simp [Disciplined, Roster.afterAll]
  | cons step p ih => simp only [List.cons_append, Disciplined, ih, and_assoc]; rfl

/-- All colours of a program are in range. -/
def ColorsInRange (p : Program) : Prop :=
  ∀ step ∈ p, ∀ color ∈ step.2.color?, color.inRange = true

end Program

section Writable

variable {Content Shared Saved : Type}

/-- All numbers of a command can be written: its points are finite where the offset of the surface
moves them, and what is drawn has opacities, dashes, sizes and fonts that mean something. -/
def Command.WritableOn (s : Studio Content Shared Saved) (x : Surface Content Saved) :
    Command Scalar → Prop
  | .moveTo v | .lineTo v => x.pen.offset.Reaches v
  | .polyline points _ => ∀ v ∈ points, x.pen.offset.Reaches v
  | .rect left top w h =>
    ∃ right bottom, Arithmetic.add left w = .ok right ∧ Arithmetic.add top h = .ok bottom ∧
      ∀ v ∈ [(⟨left, top⟩ : Vec Scalar), ⟨right, top⟩, ⟨right, bottom⟩, ⟨left, bottom⟩],
        x.pen.offset.Reaches v
  | .ellipse left top w h => ∃ axes, Pen.ellipseAxes x.pen.offset left top w h = .ok axes
  | .translate d => ∃ u, x.pen.offset.add d = .ok u
  | .fill _ alpha => (Pen.flushed x.pen).finished ≠ [] → alpha.HasDouble
  | .stroke _ dash => (Pen.flushed x.pen).finished ≠ [] → ∀ a ∈ dash, a.HasDouble
  | .text t v font _ =>
    ∃ u, x.pen.offset.add v = .ok u ∧
      (t ≠ [] → u.Measurable ∧ font.size.Measurable ∧ Text.allBlank font.family = false)
  | .place number v =>
    x.pen.offset.Reaches v ∧
      ∀ y, s.surfaces[number]? = some y → y.size.x.HasDouble ∧ y.size.y.HasDouble
  | _ => True

/-- A command about the path alone comes to an end and leaves what can be written. -/
theorem Pen.Writable.onPen {s : Studio Content Shared Saved} {x : Surface Content Saved}
    (h : x.pen.Writable) {c : Command Scalar} (hc : c.WritableOn s x)
    {action : Action (Pen Scalar) Unit} (haction : c.onPen? = some action) :
    ∃ q, action x.pen = .ok () q ∧ q.Writable := by
  cases c with
  | beginPath =>
    cases haction
    exact ⟨_, rfl, by constructor <;> simp⟩
  | moveTo v =>
    cases haction
    obtain ⟨q, hq, hwritable, -⟩ := h.moveTo hc
    exact ⟨q, hq, hwritable⟩
  | lineTo v =>
    cases haction
    obtain ⟨q, hq, hwritable, -⟩ := h.lineTo hc
    exact ⟨q, hq, hwritable⟩
  | closePath =>
    cases haction
    exact h.closePath
  | polyline points closed =>
    cases haction
    exact h.polyline hc closed
  | rect left top w l =>
    cases haction
    obtain ⟨right, bottom, hright, hbottom, hcorners⟩ := hc
    exact h.rect hright hbottom hcorners
  | ellipse left top w l =>
    cases haction
    exact h.ellipse hc
  | readPath =>
    cases haction
    exact ⟨_, rfl, h.flushed⟩
  | translate d =>
    cases haction
    obtain ⟨u, hu⟩ := hc
    refine ⟨{ x.pen with offset := u }, ?_, h⟩
    rw [Pen.translate, bind_apply, Pen.located_apply, hu]
    rfl
  | _ => cases haction

variable [Medium Content Shared Saved]

/-- All numbers of a program can be written when their turn comes. -/
def Program.Writable (s : Studio Content Shared Saved) : Program → Prop
  | [] => True
  | (on, c) :: rest =>
    (∀ x, s.surfaces[on]? = some x → c.WritableOn s x) ∧
      ∀ t, Studio.perform 0 on c s = .ok () t → Program.Writable t rest

lemma Program.Writable.cons {on : Nat} {c : Command Scalar} {p : Program}
    {s t : Studio Content Shared Saved} {x : Surface Content Saved} (hx : s.surfaces[on]? = some x)
    (hc : c.WritableOn s x) (ht : Studio.perform 0 on c s = .ok () t) (hp : Program.Writable t p) :
    Program.Writable s ((on, c) :: p) := by
  refine ⟨fun y hy => ?_, fun u hu => ?_⟩
  · obtain rfl := Option.some.inj (hx.symm.trans hy)
    exact hc
  · rw [ht] at hu
    cases hu
    exact hp

namespace Studio

/-- Carries out a program. -/
def carryOut : Program → Action (Studio Content Shared Saved) Unit
  | [] => pure ()
  | (on, c) :: rest => do
    perform 0 on c
    carryOut rest

/-- What is there after a program that starts with one surface. -/
def run (size : Vec Scalar) (metrics : Metrics) (p : Program) :
    Except Fault (Studio Content Shared Saved) := do
  let s ← start size metrics
  match carryOut p s with
  | .ok _ t => pure t
  | .error fault _ => .error fault

end Studio

end Writable

end UmlDrawing
