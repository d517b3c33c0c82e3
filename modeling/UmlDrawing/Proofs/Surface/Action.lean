import Mathlib.Tactic.Lemma
import UmlDrawing.Path.Pen

/-! Actions as functions of their state, and when two of them go the same way. -/
namespace UmlDrawing.Action

variable {σ τ α β : Type}

lemma bind_apply (x : Action σ α) (f : α → Action σ β) (s : σ) :
    (x >>= f) s =
      match x s with
      | .ok a t => f a t
      | .error fault t => .error fault t := by
  change EStateM.bind x f s = _
  rw [EStateM.bind]
  cases x s <;> rfl

lemma bind_of_ok {x : Action σ α} {f : α → Action σ β} {s t : σ} {a : α} (h : x s = .ok a t) :
    (x >>= f) s = f a t := by
  rw [bind_apply, h]

lemma bind_of_error {x : Action σ α} {f : α → Action σ β} {s t : σ} {fault : Fault}
    (h : x s = .error fault t) : (x >>= f) s = .error fault t := by
  rw [bind_apply, h]

/-- Two actions one after the other end if both do. -/
lemma seq_eq_ok_iff {x y : Action σ Unit} {s u : σ} :
    (x >>= fun _ => y) s = .ok () u ↔ ∃ t, x s = .ok () t ∧ y t = .ok () u := by
  rw [bind_apply]
  cases x s with
  | error fault t => exact iff_of_false (fun h => by cases h) (by rintro ⟨t, ht, -⟩; cases ht)
  | ok _ t => simp

lemma not_ok_of_error {fault : Fault} {s : σ} :
    ¬ ∃ t, (.error fault s : EStateM.Result Fault σ Unit) = .ok () t := by
  rintro ⟨t, ht⟩
  cases ht

/-- If an action can be followed by another one, both end if the former does. -/
lemma exists_bind_iff {x : Action σ Unit} {f : Unit → Action σ Unit} {s : σ}
    (hnext : ∀ t, x s = .ok () t → ∃ u, f () t = .ok () u) :
    (∃ u, (x >>= f) s = .ok () u) ↔ ∃ t, x s = .ok () t := by
  rw [bind_apply]
  cases hx : x s with
  | ok a t => exact iff_of_true (hnext t hx) ⟨t, rfl⟩
  | error fault t => exact iff_of_false not_ok_of_error not_ok_of_error

@[simp] lemma get_apply (s : σ) : (get : Action σ σ) s = .ok s s := rfl

@[simp] lemma modify_apply (f : σ → σ) (s : σ) : (modify f : Action σ Unit) s = .ok () (f s) := rfl

@[simp] lemma ofExcept_ok (a : α) (s : σ) : (ofExcept (.ok a) : Action σ α) s = .ok a s := rfl

@[simp] lemma ofExcept_error (fault : Fault) (s : σ) :
    (ofExcept (.error fault) : Action σ α) s = .error fault s :=
  rfl

lemma ofExcept_ok_bind (a : α) (f : α → Action σ β) :
    ((ofExcept (.ok a) : Action σ α) >>= f) = f a := by
  have hpure : (ofExcept (.ok a) : Action σ α) = pure a := rfl
  rw [hpure, pure_bind]

/-- An action after a computation without state ends if the computation has a result for it. -/
lemma ofExcept_bind_eq_ok_iff {x : Except Fault α} {f : α → Action σ β} {s t : σ} {b : β} :
    ((ofExcept x : Action σ α) >>= f) s = .ok b t ↔ ∃ a, x = .ok a ∧ f a s = .ok b t := by
  cases x with
  | error fault => exact iff_of_false (fun h => by cases h) (by rintro ⟨a, ha, -⟩; cases ha)
  | ok a => simp [ofExcept_ok_bind]

lemma tryCatch_apply (x : Action σ α) (f : Fault → Action σ α) (s : σ) :
    (tryCatch x f : Action σ α) s =
      match x s with
      | .ok a t => .ok a t
      | .error fault t => f fault t := by
  change EStateM.tryCatch x f s = _
  delta EStateM.tryCatch
  cases x s <;> rfl

/-- The state after an action, however it ended. -/
def final : EStateM.Result Fault σ α → σ
  | .ok _ s => s
  | .error _ s => s

/-- The result of an action, or its fault, without the state. -/
def outcome : EStateM.Result Fault σ α → Except Fault α
  | .ok a _ => .ok a
  | .error fault _ => .error fault

/-- What holds after the first of two actions, and is kept by the second, holds after both. -/
lemma final_bind {P : σ → Prop} {x : Action σ α} {f : α → Action σ β} {s : σ} (h : P (final (x s)))
    (hnext : ∀ a t, x s = .ok a t → P t → P (final (f a t))) : P (final ((x >>= f) s)) := by
  rw [bind_apply]
  cases hx : x s with
  | error fault t =>
    rw [hx] at h
    exact h
  | ok a t =>
    rw [hx] at h
    exact hnext a t hx h

/-- A computation without state leaves an action with what it was given, or with what comes after
the computation. -/
lemma final_ofExcept_bind {P : σ → Prop} {x : Except Fault α} {f : α → Action σ β} {s : σ}
    (h : P s) (hnext : ∀ a, x = .ok a → P (final (f a s))) : P (final ((ofExcept x >>= f) s)) := by
  cases x with
  | error fault => exact h
  | ok a =>
    rw [ofExcept_ok_bind]
    exact hnext a rfl

/-- Two outcomes with the same result, or the same fault, and related states. -/
inductive Alike (R : σ → τ → Prop) :
    EStateM.Result Fault σ α → EStateM.Result Fault τ α → Prop
  | ok (a : α) {s : σ} {t : τ} (h : R s t) : Alike R (.ok a s) (.ok a t)
  | error (fault : Fault) {s : σ} {t : τ} (h : R s t) : Alike R (.error fault s) (.error fault t)

lemma Alike.final {R : σ → τ → Prop} {x : EStateM.Result Fault σ α}
    {y : EStateM.Result Fault τ α} (h : Alike R x y) : R (final x) (final y) := by
  cases h with
  | ok a h => exact h
  | error fault h => exact h

lemma Alike.outcome {R : σ → τ → Prop} {x : EStateM.Result Fault σ α}
    {y : EStateM.Result Fault τ α} (h : Alike R x y) : outcome x = outcome y := by
  cases h <;> rfl

lemma Alike.mono {R S : σ → τ → Prop} {x : EStateM.Result Fault σ α}
    {y : EStateM.Result Fault τ α} (h : Alike R x y) (hmono : ∀ s t, R s t → S s t) :
    Alike S x y := by
  cases h with
  | ok a h => exact .ok a (hmono _ _ h)
  | error fault h => exact .error fault (hmono _ _ h)

/-- Actions that go the same way, followed by actions that go the same way, go the same way. -/
lemma Alike.bind {R S : σ → τ → Prop} {x : Action σ α} {y : Action τ α} {f : α → Action σ β}
    {g : α → Action τ β} {s : σ} {t : τ} (h : Alike R (x s) (y t))
    (hnext : ∀ a s t, R s t → Alike S (f a s) (g a t)) (hmono : ∀ s t, R s t → S s t) :
    Alike S ((x >>= f) s) ((y >>= g) t) := by
  rw [bind_apply, bind_apply]
  generalize x s = u at h
  generalize y t = v at h
  cases h with
  | ok a h => exact hnext a _ _ h
  | error fault h => exact .error fault (hmono _ _ h)

/-- Actions that go the same way, and what is done the same way where they fail. -/
lemma Alike.tryCatch {R : σ → τ → Prop} {x : Action σ α} {y : Action τ α} {f : Fault → Action σ α}
    {g : Fault → Action τ α} {s : σ} {t : τ} (h : Alike R (x s) (y t))
    (hcatch : ∀ fault s t, R s t → Alike R (f fault s) (g fault t)) :
    Alike R ((tryCatch x f : Action σ α) s) ((tryCatch y g : Action τ α) t) := by
  rw [tryCatch_apply, tryCatch_apply]
  generalize x s = u at h
  generalize y t = v at h
  cases h with
  | ok a h => exact .ok a h
  | error fault h => exact hcatch fault _ _ h

end UmlDrawing.Action
