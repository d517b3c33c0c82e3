import Mathlib.Tactic.Lemma
import UmlDrawing.Surface.Sketch

/-! What a sketch may do, whatever the answers to its questions are. Statements about all commands
and fonts of a sketch pass through everything that sketches are put together with. -/
namespace UmlDrawing

namespace Command

variable {α : Type}

/-- The number of states that are pushed on the surface drawn on, after a command. -/
def depthAfter (on depth : Nat) : Command α → Nat
  | pushState => if on = 0 then depth + 1 else depth
  | popState => if on = 0 then depth - 1 else depth
  | _ => depth

/-- Whether a command leaves the states alone that are pushed below a number of others. -/
def PopsOwn (on depth : Nat) : Command α → Prop
  | popState => on = 0 → 0 < depth
  | _ => True

/-- Whether a command pushes or pops states. -/
def movesStates : Command α → Bool
  | pushState | popState => true
  | _ => false

end Command

namespace Sketch

variable {α β γ : Type}

/-- Whether a sketch never pops more states of the surface drawn on than it pushed, with some of
its own pushed already. -/
def PopsOwn (depth : Nat) : Sketch α β → Prop
  | done _ => True
  | fail _ => True
  | note _ next => next.PopsOwn depth
  | command on c next =>
    c.PopsOwn on depth ∧ ∀ answer, (next answer).PopsOwn (c.depthAfter on depth)
  | askWidth _ _ next => ∀ answer, (next answer).PopsOwn depth
  | askHeight _ next => ∀ answer, (next answer).PopsOwn depth

/-- Whether all commands of a sketch go to the surface drawn on and have a property, and all fonts
it asks about have another one. -/
def All (P : Command α → Prop) (Q : FontStyle α → Prop) : Sketch α β → Prop
  | done _ => True
  | fail _ => True
  | note _ next => next.All P Q
  | command on c next => on = 0 ∧ P c ∧ ∀ answer, (next answer).All P Q
  | askWidth _ font next => Q font ∧ ∀ answer, (next answer).All P Q
  | askHeight font next => Q font ∧ ∀ answer, (next answer).All P Q

lemma bind_done (s : Sketch α β) : s.bind done = s := by
  induction s with
  | done b => rfl
  | fail fault => rfl
  | note n next ih => rw [bind, ih]
  | command on c next ih => rw [bind, funext ih]
  | askWidth t font next ih => rw [bind, funext ih]
  | askHeight font next ih => rw [bind, funext ih]

lemma bind_bind {δ : Type} (s : Sketch α β) (f : β → Sketch α γ) (g : γ → Sketch α δ) :
    (s.bind f).bind g = s.bind fun b => (f b).bind g := by
  induction s with
  | done b => rfl
  | fail fault => rfl
  | note n next ih => rw [bind, bind, bind, ih]
  | command on c next ih => rw [bind, bind, bind, funext ih]
  | askWidth t font next ih => rw [bind, bind, bind, funext ih]
  | askHeight font next ih => rw [bind, bind, bind, funext ih]

instance : LawfulMonad (Sketch α) :=
  LawfulMonad.mk' _ bind_done (fun _ _ => rfl) bind_bind

variable {P : Command α → Prop} {Q : FontStyle α → Prop}

lemma All.bind {s : Sketch α β} {f : β → Sketch α γ} (h : s.All P Q)
    (hnext : ∀ b, (f b).All P Q) : (s >>= f).All P Q := by
  change (s.bind f).All P Q
  induction s with
  | done b => exact hnext b
  | fail fault => trivial
  | note n next ih => exact ih h
  | command on c next ih => exact ⟨h.1, h.2.1, fun answer => ih answer (h.2.2 answer)⟩
  | askWidth t font next ih => exact ⟨h.1, fun answer => ih answer (h.2 answer)⟩
  | askHeight font next ih => exact ⟨h.1, fun answer => ih answer (h.2 answer)⟩

lemma All.pure (b : β) : (Pure.pure b : Sketch α β).All P Q := trivial

lemma All.ofExcept (x : Except Fault β) : (Sketch.ofExcept x : Sketch α β).All P Q := by
  cases x <;> trivial

lemma All.report (notes : List Note) : (Sketch.report notes : Sketch α Unit).All P Q := by
  induction notes with
  | nil => trivial
  | cons n ns ih => exact ih

lemma All.draw {c : Command α} (h : P c) : (Sketch.draw c).All P Q :=
  ⟨rfl, h, All.ofExcept⟩

lemma All.width {t : Text} {font : FontStyle α} (h : Q font) : (Sketch.width t font).All P Q :=
  ⟨h, All.ofExcept⟩

lemma All.height {font : FontStyle α} (h : Q font) : (Sketch.height font).All P Q :=
  ⟨h, All.ofExcept⟩

lemma All.foldlM {ι : Type} {f : β → ι → Sketch α β} (h : ∀ b i, (f b i).All P Q) (items : List ι)
    (b : β) : (items.foldlM f b).All P Q := by
  induction items generalizing b with
  | nil => trivial
  | cons i rest ih =>
    rw [List.foldlM_cons]
    exact (h b i).bind ih

lemma All.mapM {ι : Type} {f : ι → Sketch α β} (h : ∀ i, (f i).All P Q) (items : List ι) :
    (items.mapM f).All P Q := by
  induction items with
  | nil => trivial
  | cons i rest ih =>
    rw [List.mapM_cons]
    exact (h i).bind fun b => ih.bind fun bs => All.pure _

lemma All.forM {ι : Type} {f : ι → Sketch α PUnit} (h : ∀ i, (f i).All P Q) (items : List ι) :
    (items.forM f).All P Q := by
  induction items with
  | nil => trivial
  | cons i rest ih => exact (h i).bind fun _ => ih

end Sketch

end UmlDrawing
