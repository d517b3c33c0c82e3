import UmlDrawing.Proofs.Fault
import UmlDrawing.Proofs.Surface.Action

/-! Where a pen can draw. Drawing along points comes to an end if and only if the offset in force
can be added to each of them. -/
open UmlDrawing.Action

namespace UmlDrawing.Pen

lemma path_apply {α : Type} (p : Pen α) : path p = .ok (flushed p).finished (flushed p) := rfl

variable {α : Type} [Arithmetic α] {v : Vec α} {p q : Pen α}

lemma located_apply (v : Vec α) (p : Pen α) :
    located v p =
      match p.offset.add v with
      | .ok u => .ok u p
      | .error fault => .error fault p := by
  refine (bind_of_ok (get_apply p)).trans ?_
  cases p.offset.add v <;> rfl

lemma lineTo_apply (v : Vec α) (p : Pen α) :
    lineTo v p =
      match p.offset.add v with
      | .ok u => .ok () { p with current := p.current ++ [u] }
      | .error fault => .error fault p := by
  rw [lineTo, bind_apply, located_apply]
  cases p.offset.add v <;> rfl

lemma moveTo_apply (v : Vec α) (p : Pen α) :
    moveTo v p =
      match p.offset.add v with
      | .ok u => .ok () { flushed p with current := [u] }
      | .error fault => .error fault (flushed p) := by
  have hflush : (flush : Action (Pen α) Unit) p = .ok () (flushed p) := rfl
  have hoffset : (flushed p).offset = p.offset := rfl
  rw [moveTo, bind_of_ok hflush, bind_apply, located_apply, hoffset]
  cases p.offset.add v <;> rfl

/-- Drawing to points comes to an end if and only if each of them can be moved by the offset. -/
theorem exists_linesTo_iff {vs : List (Vec α)} :
    (∃ q, linesTo vs p = .ok () q) ↔ ∀ v ∈ vs, ∃ u, p.offset.add v = .ok u := by
  induction vs generalizing p with
  | nil => exact ⟨fun _ v hv => (by cases hv), fun _ => ⟨p, rfl⟩⟩
  | cons v vs ih =>
    rw [List.forall_mem_cons, linesTo, bind_apply, lineTo_apply]
    cases p.offset.add v with
    | error fault => exact iff_of_false not_ok_of_error fun h => not_ok_of_fault h.1
    | ok u => exact ih.trans ⟨fun h => ⟨⟨u, rfl⟩, h⟩, fun h => h.2⟩

/-- An open piece through points can be drawn if and only if each of them can be moved by the
offset. -/
theorem exists_polyline_iff {points : List (Vec α)} :
    (∃ q, polyline points false p = .ok () q) ↔ ∀ v ∈ points, ∃ u, p.offset.add v = .ok u := by
  cases points with
  | nil => exact ⟨fun _ v hv => (by cases hv), fun _ => ⟨p, rfl⟩⟩
  | cons first rest =>
    rw [List.forall_mem_cons, polyline, bind_apply, moveTo_apply]
    cases p.offset.add first with
    | error fault => exact iff_of_false not_ok_of_error fun h => not_ok_of_fault h.1
    | ok u =>
      have hend (t : Pen α) :
          ∃ q, (if false = true then closePath else pure () : Action (Pen α) Unit) t = .ok () q :=
        ⟨t, rfl⟩
      refine (exists_bind_iff fun t _ => hend t).trans ?_
      refine (exists_linesTo_iff (p := { flushed p with current := [u] })).trans ?_
      exact ⟨fun h => ⟨⟨u, rfl⟩, h⟩, fun h => h.2⟩

/-- A rectangle can be drawn if and only if its corners can be found and moved by the offset. -/
theorem exists_rect_iff {x y w h right bottom : α} (hright : Arithmetic.add x w = .ok right)
    (hbottom : Arithmetic.add y h = .ok bottom) :
    (∃ q, rect x y w h p = .ok () q) ↔
      ∀ v ∈ [(⟨x, y⟩ : Vec α), ⟨right, y⟩, ⟨right, bottom⟩, ⟨x, bottom⟩],
        ∃ u, p.offset.add v = .ok u := by
  rw [rect, hright, hbottom, bind_of_ok (ofExcept_ok right p), bind_of_ok (ofExcept_ok bottom p)]
  have hend (t : Pen α) : ∃ q, (do
      closePath
      modify fun p => { p with current := [] } : Action (Pen α) Unit) t = .ok () q :=
    ⟨_, rfl⟩
  rw [exists_bind_iff fun t _ => hend t, exists_polyline_iff]

end UmlDrawing.Pen
