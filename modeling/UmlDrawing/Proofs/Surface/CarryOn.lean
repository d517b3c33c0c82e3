import UmlDrawing.Proofs.Surface.Program
import UmlDrawing.Proofs.Surface.Steady

/-! Programs that are carried on with after a command has failed. What no command takes away from a
drawing holds after all of them. -/
open UmlDrawing.Action

namespace UmlDrawing.Studio

variable {Content Shared Saved : Type} [Medium Content Shared Saved]
  {s : Studio Content Shared Saved}

/-- Carries on through a program: a command that fails is passed over, but keeps what it did before
it failed. -/
def carryOn (p : Program) (s : Studio Content Shared Saved) : Studio Content Shared Saved :=
  p.foldl (fun s step => final (perform 0 step.1 step.2 s)) s

lemma carryOn_append (p q : Program) (s : Studio Content Shared Saved) :
    carryOn (p ++ q) s = carryOn q (carryOn p s) := by
  simp [carryOn]

lemma carryOn_singleton (on : Nat) (c : Command Scalar) (s : Studio Content Shared Saved) :
    carryOn [(on, c)] s = final (perform 0 on c s) :=
  rfl

/-- A property of a drawing that no move takes away holds after every program. -/
theorem carryOn_induction {I : Studio Content Shared Saved → Prop} (hs : I s)
    (hmoves : ∀ {s t on states}, I s → Moves s on states t → I t) (p : Program) : I (carryOn p s) := by
  induction p generalizing s with
  | nil => exact hs
  | cons step p ih =>
    have hstep := moves_perform 0 step.1 step.2 s
    exact ih (hmoves hs hstep)

/-- No program takes a steady property away. -/
theorem Holds.carryOn {P : Content → Prop} {i : Nat} (h : Holds P i s) (hsteady : Steady P)
    (p : Program) : Holds P i (carryOn p s) := by
  induction p generalizing s with
  | nil => exact h
  | cons step p ih => exact ih (h.perform hsteady 0 step.1 step.2)

end UmlDrawing.Studio
