import Mathlib.Tactic.Lemma
import UmlDrawing.Xml.Parser

/-! The room that a document has. The bytes of a document limit how far entities may grow, and how many
steps are taken; nothing else depends on them. A document in more bytes is therefore read as well, and in
the same way. -/
namespace UmlDrawing.Xml

/-- Whether an input is another one with more room. -/
structure Input.Within (i j : Input) : Prop where
  number : j.number = i.number
  size : i.size ≤ j.size
  rest : j.rest = i.rest

/-- Whether the outermost of some inputs, which is the last, has more room, and the others are the same. -/
inductive Widened : List Input → List Input → Prop
  | outermost {i j : Input} (h : i.Within j) : Widened [i] [j]
  | inner (i : Input) {is js : List Input} (h : Widened is js) : Widened (i :: is) (i :: js)

/-- The same state of reading, with more room. -/
inductive Reading.Wider (s : Reading) : Reading → Prop
  | intro {input : Input} {around : List Input}
      (h : Widened (s.input :: s.around) (input :: around)) :
      Wider s { s with input := input, around := around }

namespace Widened

variable {i j : Input} {is js : List Input}

lemma head (h : Widened (i :: is) (j :: js)) : i.Within j := by
  cases h with
  | outermost h => exact h
  | inner => exact ⟨rfl, Nat.le_refl _, rfl⟩

lemma length_eq (h : Widened is js) : js.length = is.length := by
  induction h with
  | outermost => rfl
  | inner i h ih => rw [List.length_cons, List.length_cons, ih]

lemma exists_cons (h : Widened is js) : ∃ i l j m, is = i :: l ∧ js = j :: m := by
  cases h with
  | outermost => exact ⟨_, _, _, _, rfl, rfl⟩
  | inner => exact ⟨_, _, _, _, rfl, rfl⟩

/-- An input goes on the same way in both. -/
lemma goOn (h : Widened (i :: is) (j :: js)) (rest : Text) :
    Widened ({ i with rest := rest } :: is) ({ j with rest := rest } :: js) := by
  cases h with
  | outermost h => exact .outermost ⟨h.number, h.size, rfl⟩
  | inner i h => exact .inner _ h

lemma consumed_le (h : Widened (i :: is) (j :: js)) : i.consumed ≤ j.consumed := by
  have hsize := h.head.size
  have hrest := h.head.rest
  rw [Input.consumed, Input.consumed, hrest]
  omega

end Widened

lemma Reading.Wider.isEmpty_around {s t : Reading} (h : s.Wider t) :
    t.around.isEmpty = s.around.isEmpty := by
  obtain ⟨h⟩ := h
  have hlength := h.length_eq
  rw [Bool.eq_iff_iff, List.isEmpty_iff_length_eq_zero, List.isEmpty_iff_length_eq_zero]
  simp only [List.length_cons, Nat.add_right_cancel_iff] at hlength
  rw [hlength]

namespace Parser

variable {α β : Type}

/-- Whether all that a parser reads is read by another one if there is more room. -/
def Covers (p q : Parser α) : Prop :=
  ∀ ⦃s t : Reading⦄, s.Wider t → ∀ a s', p s = some (a, s') → ∃ t', q t = some (a, t') ∧ s'.Wider t'

/-- Whether a parser reads the same if there is more room. -/
abbrev Lasts (p : Parser α) : Prop := Covers p p

namespace Covers

lemma pure (a : α) : Lasts (Pure.pure a) := by
  intro s t h b s' hrun
  cases hrun
  exact ⟨t, rfl, h⟩

lemma failure (q : Parser α) : Covers Alternative.failure q := by
  intro s t h a s' hrun
  cases hrun

lemma bind {p p' : Parser α} {f f' : α → Parser β} (hp : Covers p p') (hf : ∀ a, Covers (f a) (f' a)) :
    Covers (p >>= f) (p' >>= f') := by
  intro s t h b s' hrun
  obtain ⟨⟨a, s₁⟩, hfirst, hthen⟩ := Option.bind_eq_some_iff.1 hrun
  obtain ⟨t₁, hfirst', h₁⟩ := hp h a s₁ hfirst
  obtain ⟨t', hthen', h'⟩ := hf a h₁ b s' hthen
  exact ⟨t', Option.bind_eq_some_iff.2 ⟨(a, t₁), hfirst', hthen'⟩, h'⟩

lemma map {p q : Parser α} (f : α → β) (h : Covers p q) : Covers (f <$> p) (f <$> q) := by
  rw [← bind_pure_comp, ← bind_pure_comp]
  exact h.bind fun a => pure (f a)

lemma ite {c : Prop} [Decidable c] {p p' q q' : Parser α} (hp : Covers p p') (hq : Covers q q') :
    Covers (if c then p else q) (if c then p' else q') := by
  split
  · exact hp
  · exact hq

/-- What is known while reading is looked up, the room included, and reading goes on from there. -/
lemma getAt {f f' : Reading → Parser α} (hf : ∀ s t, s.Wider t →
      ∃ p q, f s s = p s ∧ f' t t = q t ∧ Covers p q) :
    Covers (MonadState.get >>= f) (MonadState.get >>= f') := by
  intro s t h a s' hrun
  obtain ⟨p, q, hp, hq, hcovers⟩ := hf s t h
  obtain ⟨t', hrun', hwide⟩ := hcovers h a s' (hp.symm.trans hrun)
  exact ⟨t', hq.trans hrun', hwide⟩

lemma get {f f' : Reading → Parser α} (hf : ∀ s t, s.Wider t → Covers (f s) (f' t)) :
    Covers (MonadState.get >>= f) (MonadState.get >>= f') :=
  getAt fun s t h => ⟨f s, f' t, rfl, rfl, hf s t h⟩

lemma set {s t : Reading} (h : s.Wider t) :
    Covers (MonadStateOf.set s : Parser PUnit) (MonadStateOf.set t) := by
  intro s₀ t₀ h₀ a s' hrun
  cases hrun
  exact ⟨t, rfl, h⟩

lemma modified {f : Reading → Reading} (hf : ∀ s t, s.Wider t → (f s).Wider (f t)) :
    Lasts (modify f : Parser PUnit) := by
  intro s t h a s' hrun
  cases hrun
  exact ⟨f t, rfl, hf s t h⟩

lemma lift (r : Reader α) : Lasts (liftM r : Parser α) := by
  rintro s - ⟨h⟩ a s' hrun
  obtain ⟨⟨b, rest⟩, hread, heq⟩ := Option.map_eq_some_iff.1 hrun
  cases heq
  refine ⟨_, ?_, .intro (h.goOn rest)⟩
  refine Option.map_eq_some_iff.2 ⟨(a, rest), ?_, rfl⟩
  rw [h.head.rest]
  exact hread

/-- A parser that reads something more under some condition before it goes on. -/
lemma optionally {c : Prop} [Decidable c] {p p' : Parser Unit} {f f' : Unit → Parser α}
    (hp : Covers p p') (hf : ∀ u, Covers (f u) (f' u)) :
    Covers (if c then p >>= f else f ()) (if c then p' >>= f' else f' ()) :=
  ite (hp.bind hf) (hf ())

/-- A parser that gives up under some condition, which is not met more easily if there is more room. -/
lemma guarded {c c' : Prop} [Decidable c] [Decidable c'] {f f' : α → Parser β} {p q : Parser β}
    (hc : c' → c) (h : Covers p q) :
    Covers (if c then Alternative.failure >>= f else p) (if c' then Alternative.failure >>= f' else q) := by
  by_cases hthere : c
  · rw [if_pos hthere]
    exact failure _
  · rw [if_neg hthere, if_neg (mt hc hthere)]
    exact h

lemma forM {ι : Type} {f : ι → Parser PUnit} (h : ∀ i, Lasts (f i)) (l : List ι) :
    Lasts (l.forM f) := by
  induction l with
  | nil => exact pure _
  | cons i l ih => exact (h i).bind fun _ => ih

lemma mapM {ι : Type} {f : ι → Parser α} (h : ∀ i, Lasts (f i)) (l : List ι) :
    Lasts (l.mapM f) := by
  induction l with
  | nil => exact pure _
  | cons i l ih =>
    rw [List.mapM_cons]
    exact (h i).bind fun _ => ih.bind fun _ => pure _

end Covers

/-! What all parts of a parser use. -/

lemma complainAll_lasts (log : Log) : Lasts (complainAll log) :=
  .modified fun _ _ ⟨h⟩ => .intro h

lemma complain_lasts (c : Complaint) : Lasts (complain c) := complainAll_lasts _

lemma ensure_lasts (condition : Bool) (c : Complaint) :
    Lasts (ensure condition c) :=
  .ite (.pure _) (complain_lasts c)

/-- The use of an entity is counted in the same way, and refused at most where there is less room. -/
lemma charge_lasts (bytes : Nat) : Lasts (charge bytes) := by
  unfold charge
  refine .get fun s t ⟨h⟩ => .guarded ?_ (.set (.intro h))
  have hconsumed := h.consumed_le
  simp only [Bool.and_eq_true, decide_eq_true_eq]
  exact fun ⟨hfree, hgrown⟩ => ⟨hfree, by omega⟩

lemma atEnd_lasts : Lasts atEnd := by
  unfold atEnd
  refine .get fun s t ⟨h⟩ => ?_
  rw [h.head.rest]
  exact .pure _

lemma undeclared_lasts (c : Complaint) : Lasts (undeclared c) := by
  unfold undeclared
  exact .get fun s t ⟨h⟩ => .guarded id (complain_lasts c)

lemma token_lasts (s : String) : Lasts (token s) := .lift _

lemma instruction_lasts : Lasts instruction := by
  unfold instruction
  refine .bind (.lift _) fun ⟨target, content⟩ => ?_
  have hlast : Lasts (do ensure (!target.elem ':') .error; pure (target, content)) :=
    .bind (ensure_lasts _ _) fun _ => .pure _
  dsimp only
  exact .ite (.ite (.pure _) (.bind (complain_lasts _) fun _ => hlast)) hlast

/-! Values in quotes. -/

lemma pieces_lasts (t : Text) : Lasts (pieces t) := by
  intro s s₂ h a s' hrun
  obtain ⟨ps, hps, heq⟩ := Option.map_eq_some_iff.1 hrun
  cases heq
  exact ⟨s₂, Option.map_eq_some_iff.2 ⟨a, hps, rfl⟩, h⟩

lemma lookThrough_lasts (levels : Nat) (t : Text) : Lasts (lookThrough levels t) := by
  induction levels generalizing t with
  | zero => exact .failure _
  | succ levels ih =>
    unfold lookThrough
    refine .bind (pieces_lasts t) fun ps => ?_
    refine .forM (fun piece => ?_) ps
    cases piece with
    | plain t => exact .pure _
    | numeric c => exact .pure _
    | entity n =>
      refine .ite (.pure _) <| .get fun s t ⟨h⟩ => ?_
      dsimp only
      cases usable? s.doctype n with
      | none => exact .failure _
      | some e =>
        cases e with
        | none => exact undeclared_lasts _
        | some e =>
          cases e with
          | internal t => exact .bind (charge_lasts _) fun _ => ih t
          | missing => exact .pure _
          | outside => exact .pure _
          | unparsed => exact .pure _

lemma useInValue_lasts (levels : Nat) (isDeclaring : Bool) (n t : Text) :
    Lasts (useInValue levels isDeclaring n t) := by
  unfold useInValue
  refine .get fun s s' ⟨h⟩ => ?_
  dsimp only
  cases s.sizes.lookup n with
  | some size => exact charge_lasts size
  | none =>
    refine .bind (.set (.intro h)) fun _ => .bind (lookThrough_lasts levels t) fun _ => ?_
    refine .get fun inner inner' ⟨h'⟩ => ?_
    exact .ite (.bind (.set (.intro h')) fun _ => charge_lasts _) (charge_lasts _)

lemma keepPiece_lasts (levels : Nat) (isDeclaring : Bool) (piece : Piece) :
    Lasts (keepPiece levels isDeclaring piece) := by
  unfold keepPiece
  cases piece with
  | plain t => exact .pure _
  | numeric c => exact .pure _
  | entity n =>
    refine .ite (.pure _) <| .get fun s t ⟨h⟩ => ?_
    dsimp only
    cases usable? s.doctype n with
    | none => exact .failure _
    | some e =>
      cases e with
      | none => exact .bind (undeclared_lasts _) fun _ => .pure _
      | some e =>
        cases e with
        | internal t => exact .bind (useInValue_lasts levels isDeclaring n t) fun _ => .pure _
        | missing => exact .pure _
        | outside => exact .pure _
        | unparsed => exact .pure _

lemma attributeValue_lasts (levels : Nat) (isDeclaring : Bool) :
    Lasts (attributeValue levels isDeclaring) := by
  unfold attributeValue
  refine .bind (.lift _) fun t => .guarded id ?_
  refine .bind (pieces_lasts t) fun ps => ?_
  exact .bind (.mapM (keepPiece_lasts levels isDeclaring) ps) fun _ => .pure _

lemma substitute_lasts {parameter : Text → Parser (Option Text)}
    (h : ∀ n, Lasts (parameter n)) (fuel : Nat) (t : Text) : Lasts (substitute parameter fuel t) := by
  induction fuel generalizing t with
  | zero => exact .failure _
  | succ fuel ih =>
    unfold substitute
    dsimp only
    split
    · exact .pure _
    · split
      · exact .bind (ih _) fun _ => .pure _
      · exact .failure _
    · exact .bind (ih _) fun _ => .pure _
    · split
      · refine .bind (h _) fun value => ?_
        cases value with
        | none => exact .pure _
        | some value => exact .bind (ih _) fun _ => .pure _
      · exact .failure _

lemma noteParameter_lasts : Lasts noteParameter :=
  .modified fun _ _ ⟨h⟩ => .intro h

lemma replacement_lasts (levels : Nat) (t : Text) : Lasts (replacement levels t) := by
  induction levels generalizing t with
  | zero => exact .failure _
  | succ levels ih =>
    unfold replacement
    refine substitute_lasts (fun n => ?_) _ t
    refine .get fun s s' h => ?_
    obtain ⟨h⟩ := h
    -- what is done after a complaint about an entity that is not there is also done without one
    suffices hfound : Lasts _ from .ite (.bind (undeclared_lasts _) fun _ => hfound) hfound
    refine .bind noteParameter_lasts fun _ => ?_
    cases s.doctype.parameters.lookup n with
    | none => exact .pure _
    | some e =>
      cases e with
      | internal value => exact .bind (charge_lasts _) fun _ => ih value
      | missing => exact .bind (complain_lasts _) fun _ => .pure _
      | outside => exact .bind (complain_lasts _) fun _ => .pure _
      | unparsed => exact .bind (complain_lasts _) fun _ => .pure _

lemma entityValue_lasts : Lasts entityValue := by
  unfold entityValue
  refine .bind (.lift _) fun t => .get fun s s' h => ?_
  rw [h.isEmpty_around]
  refine .guarded id (.bind (replacement_lasts _ _) fun e => ?_)
  cases e with
  | some value => exact .pure _
  | none => exact .pure _

end Parser

end UmlDrawing.Xml
