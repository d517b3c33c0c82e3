import UmlDrawing.Font.Block
import UmlDrawing.Proofs.Surface.Kept
import UmlDrawing.Raster.Picture
import UmlDrawing.Surface.Recording
import UmlDrawing.Svg.Document

/-! What is left of a state that was pushed around a drawing. The pop at the end takes the entry on
top of the stack, so offset, clip and stack are as before exactly if the drawing has popped every
state that it pushed, wherever it ended. -/
open UmlDrawing.Action

namespace UmlDrawing

variable {Content Shared Saved β : Type}

/-- A kind of surfaces that has, after a state was restored, this state to keep. -/
class Medium.Restores (Content : Type) {Shared Saved : Type} [Medium Content Shared Saved] : Prop where
  save_restore (saved : Saved) (content : Content) : save (restore saved content) = saved

instance : Medium.Restores Recording := ⟨fun _ _ => rfl⟩

instance : Medium.Restores Svg.Sheet := ⟨fun _ _ => rfl⟩

instance : Medium.Restores Raster.Picture := ⟨fun _ _ => rfl⟩

/-- The states of its own that are left pushed after a command, if it takes none but these. -/
def Command.leaves? {α : Type} : Command α → Nat → Option Nat
  | pushState, n => some (n + 1)
  | popState, 0 => none
  | popState, n + 1 => some n
  | _, n => some n

namespace Surface

variable {x y : Surface Content Saved}

/-- A surface with some states pushed over those that were there before. -/
def Over (kept : List (Vec Scalar × Saved)) (n : Nat) (x : Surface Content Saved) : Prop :=
  ∃ own, own.length = n ∧ x.stack = own ++ kept

variable {kept : List (Vec Scalar × Saved)} {n m : Nat}

lemma Over.length_stack (h : Over kept n x) : x.stack.length = n + kept.length := by
  obtain ⟨own, hlength, hstack⟩ := h
  rw [hstack, List.length_append, hlength]

lemma over_zero_iff : Over kept 0 x ↔ x.stack = kept := by
  constructor
  · rintro ⟨own, hlength, hstack⟩
    rw [hstack, List.length_eq_zero_iff.1 hlength, List.nil_append]
  · exact fun h => ⟨[], rfl, h⟩

variable [Medium Content Shared Saved]

lemma Over.pushState (h : Over kept n x) : Over kept (n + 1) x.pushState := by
  obtain ⟨own, hlength, hstack⟩ := h
  refine ⟨(x.pen.offset, Medium.save x.content) :: own, ?_, ?_⟩
  · rw [List.length_cons, hlength]
  · rw [Surface.pushState, hstack, List.cons_append]

lemma Over.popState (h : Over kept (n + 1) x) : Over kept n x.popState := by
  obtain ⟨own, hlength, hstack⟩ := h
  cases own with
  | nil => cases hlength
  | cons entry own =>
    refine ⟨own, Nat.succ.inj hlength, ?_⟩
    rw [Surface.popState, hstack]
    rfl

/-- A surface with offset, clip and states as they were. -/
structure Restored (x y : Surface Content Saved) : Prop where
  offset : y.pen.offset = x.pen.offset
  clip : Medium.save y.content = Medium.save x.content
  stack : y.stack = x.stack

end Surface

namespace Sketch

variable [Medium Content Shared Saved]

/-- The states that a run of a sketch leaves pushed on a surface that had some number of the sketch's
own before; none if the run pops more than these. -/
def leaves? (base i : Nat) : Sketch Scalar β → Studio Content Shared Saved → Nat → Option Nat
  | done _, _, n => some n
  | fail _, _, n => some n
  | note m next, s, n => next.leaves? base i { s with notes := s.notes ++ [m] } n
  | command on c next, s, n =>
    (if base + on = i then c.leaves? n else some n).bind fun n =>
      (next (outcome (Studio.perform base on c s))).leaves? base i
        (final (Studio.perform base on c s)) n
  | askWidth text font next, s, n =>
    (next (outcome (Studio.width text font s))).leaves? base i (final (Studio.width text font s)) n
  | askHeight font next, s, n =>
    (next (outcome (Studio.height font s))).leaves? base i (final (Studio.height font s)) n

end Sketch

namespace Studio

variable {s t : Studio Content Shared Saved} {kept : List (Vec Scalar × Saved)} {base on i n m : Nat}

/-- A surface of a drawing that has some states pushed over others. -/
def Over (kept : List (Vec Scalar × Saved)) (i n : Nat) (s : Studio Content Shared Saved) : Prop :=
  ∃ x, s.surfaces[i]? = some x ∧ x.Over kept n

lemma Over.of_keeps (h : Over kept i n s) (hkeeps : Keeps True s t) : Over kept i n t := by
  obtain ⟨x, hx, own, hlength, hstack⟩ := h
  obtain ⟨y, hy, -, hsame⟩ := hkeeps i x hx
  exact ⟨y, hy, own, hlength, (hsame trivial).trans hstack⟩

lemma Over.put_ne (h : Over kept i n s) (hne : on ≠ i) (y : Surface Content Saved) :
    Over kept i n (s.put on y) := by
  obtain ⟨x, hx, hover⟩ := h
  exact ⟨x, (List.getElem?_set_ne hne).trans hx, hover⟩

/-- A change of one surface, as far as it is about the states of another or of the same one. -/
lemma Over.modify {f : Surface Content Saved → Surface Content Saved} (h : Over kept i n s)
    (hne : on ≠ i → m = n) (hf : on = i → ∀ x, x.Over kept n → (f x).Over kept m) :
    Over kept i m (final (onSurface on (modify f) s)) := by
  cases hx : s.surfaces[on]? with
  | none =>
    have hne' : on ≠ i := by
      rintro rfl
      obtain ⟨x, hx', -⟩ := h
      rw [hx] at hx'
      cases hx'
    rw [onSurface_apply, hx, hne hne']
    exact h
  | some y =>
    rw [onSurface_modify hx]
    by_cases hi : on = i
    · subst hi
      obtain ⟨x, hx', hover⟩ := h
      rw [hx] at hx'
      cases hx'
      exact ⟨f y, getElem?_put hx _, hf rfl y hover⟩
    · rw [hne hi]
      exact h.put_ne hi (f y)

variable [Medium Content Shared Saved]

/-- A command leaves as many states pushed as it should, however it ends. -/
theorem Over.perform {c : Command Scalar} (h : Over kept i n s)
    (hc : (if base + on = i then c.leaves? n else some n) = some m) :
    Over kept i m (final (perform base on c s)) := by
  have hother : base + on ≠ i → m = n := fun hne => by
    rw [if_neg hne] at hc
    exact (Option.some.inj hc).symm
  cases c with
  | pushState =>
    rw [perform_pushState]
    refine h.modify hother fun hi x hover => ?_
    rw [if_pos hi] at hc
    cases hc
    exact hover.pushState
  | popState =>
    rw [perform_popState]
    refine h.modify hother fun hi x hover => ?_
    rw [if_pos hi] at hc
    cases n with
    | zero => cases hc
    | succ n =>
      cases hc
      exact hover.popState
  | _ =>
    obtain rfl : n = m := by
      split at hc
      · exact Option.some.inj hc
      · exact Option.some.inj hc
    exact h.of_keeps ((perform_keeps base on _).mono fun _ => rfl)

/-- A run of a sketch leaves as many states pushed as its commands do. -/
theorem Over.play {sketch : Sketch Scalar β} (h : Over kept i n s)
    (hleaves : sketch.leaves? base i s n = some m) :
    Over kept i m (final (sketch.play base s)) := by
  -- on the commands that are left; each starts from another drawing and another number of states
  induction sketch generalizing s n with
  | done b =>
    cases hleaves
    exact h
  | fail fault =>
    cases hleaves
    exact h
  | note note next ih => exact ih (s := { s with notes := s.notes ++ [note] }) h hleaves
  | command on c next ih =>
    rw [Sketch.leaves?] at hleaves
    obtain ⟨k, hk, hleaves⟩ := Option.bind_eq_some_iff.1 hleaves
    rw [play_command]
    exact ih _ (h.perform hk) hleaves
  | askWidth text font next ih =>
    rw [play_askWidth]
    exact ih _ (h.of_keeps (ask_keeps _)) hleaves
  | askHeight font next ih =>
    rw [play_askHeight]
    exact ih _ (h.of_keeps (ask_keeps _)) hleaves

/-- What is left of a state that was pushed around a sketch, whether the sketch returns or fails. The
states that it leaves pushed stay on the stack, all but one and the one from before in its place, and
offset, clip and stack are as before exactly if there are none. -/
theorem saved_restored_iff [Medium.Restores Content] {sketch : Sketch Scalar β}
    {x : Surface Content Saved} (hx : s.surfaces[on]? = some x)
    (hleaves : sketch.leaves? base on (s.put on x.pushState) 0 = some m) :
    ∃ y, (final (saved on (sketch.play base) s)).surfaces[on]? = some y ∧
      y.Over x.stack m ∧ (x.Restored y ↔ m = 0) := by
  have hover : Over x.pushState.stack on 0 (s.put on x.pushState) :=
    ⟨x.pushState, getElem?_put hx _, Surface.over_zero_iff.2 rfl⟩
  obtain ⟨z, hz, own, hlength, hstack⟩ := hover.play hleaves
  -- the pop at the end takes the pushed entry only if the sketch has left none of its own above it
  rw [final_saved _ hx]
  change ∃ y, (final (onSurface on (modify Surface.popState)
    (final (sketch.play base (s.put on x.pushState))))).surfaces[on]? = some y ∧ _
  rw [onSurface_modify hz]
  refine ⟨z.popState, getElem?_put hz _, ?_⟩
  cases own with
  | nil =>
    subst hlength
    rw [Surface.popState, hstack]
    refine ⟨Surface.over_zero_iff.2 rfl, iff_of_true ⟨rfl, ?_, rfl⟩ rfl⟩
    exact Medium.Restores.save_restore _ _
  | cons entry own =>
    have hpopped : z.popState.stack = own ++ (x.pen.offset, Medium.save x.content) :: x.stack := by
      rw [Surface.popState, hstack]
      rfl
    have hleft : z.popState.Over x.stack m := by
      refine ⟨own ++ [(x.pen.offset, Medium.save x.content)], ?_, ?_⟩
      · rw [List.length_append, ← hlength]
        rfl
      · rw [hpopped, List.append_assoc]
        rfl
    refine ⟨hleft, iff_of_false (fun h => ?_) (fun h => ?_)⟩
    · have hsame := hleft.length_stack
      rw [h.stack, ← hlength, List.length_cons] at hsame
      omega
    · subst h
      cases hlength

/-- A drawing that clips, and fails inside a state that it pushed. -/
def halfway : Sketch Scalar Unit := do
  .draw (.translate ⟨.whole 5, .whole 5⟩)
  .draw (.rect (.whole 0) (.whole 0) (.whole 9) (.whole 9))
  .draw .clip
  .draw .pushState
  .fail .fontSize

/-- The same drawing, when it pops its state before it fails. -/
def orderly : Sketch Scalar Unit := do
  .draw (.translate ⟨.whole 5, .whole 5⟩)
  .draw (.rect (.whole 0) (.whole 0) (.whole 9) (.whole 9))
  .draw .clip
  .draw .pushState
  .draw .popState
  .fail .fontSize

theorem saved_restored_orderly :
    ∃ (s : Studio Svg.Sheet Svg.Document Nat) (x y : Surface Svg.Sheet Nat),
      start ⟨.whole 40, .whole 30⟩ { installed := .blocks [] } = .ok s ∧ s.surfaces[0]? = some x ∧
      (final (saved 0 (orderly.play 0) s)).surfaces[0]? = some y ∧ x.Restored y := by
  obtain ⟨s, hs⟩ : ∃ s : Studio Svg.Sheet Svg.Document Nat,
      start ⟨.whole 40, .whole 30⟩ { installed := .blocks [] } = .ok s := ⟨_, rfl⟩
  obtain ⟨x, hx⟩ : ∃ x, s.surfaces[0]? = some x := by
    cases hs
    exact ⟨_, rfl⟩
  have hleaves : orderly.leaves? 0 0 (s.put 0 x.pushState) 0 = some 0 := by
    cases hs
    cases hx
    rfl
  obtain ⟨y, hy, -, hrestored⟩ := saved_restored_iff hx hleaves
  exact ⟨s, x, y, hs, hx, hy, hrestored.2 rfl⟩

/-- After a drawing that fails inside a state of its own, offset, clip and stack are not as before. -/
theorem saved_not_restored :
    ∃ (s : Studio Svg.Sheet Svg.Document Nat) (x y : Surface Svg.Sheet Nat),
      start ⟨.whole 40, .whole 30⟩ { installed := .blocks [] } = .ok s ∧ s.surfaces[0]? = some x ∧
      halfway.leaves? 0 0 (s.put 0 x.pushState) 0 = some 1 ∧
      (final (saved 0 (halfway.play 0) s)).surfaces[0]? = some y ∧ y.pen.offset ≠ x.pen.offset ∧
      y.content.container ≠ x.content.container ∧ y.stack ≠ x.stack := by
  refine ⟨_, _, _, rfl, rfl, rfl, (Option.some_get (by decide +kernel)).symm, ?_, ?_, ?_⟩
  · intro h
    have hsame := congrArg (fun v => Scalar.same v.x (.whole 0)) h
    revert hsame
    decide +kernel
  · decide +kernel
  · intro h
    have hlength := congrArg List.length h
    revert hlength
    decide +kernel

end Studio

end UmlDrawing
