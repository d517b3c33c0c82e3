import Mathlib.Tactic.Lemma
import UmlDrawing.Fault

/-! Computations that may fail, taken apart. -/
namespace UmlDrawing

variable {α β : Type}

/-- A computation in two steps has a result if and only if both of them have. -/
lemma bind_eq_ok_iff {x : Except Fault α} {f : α → Except Fault β} {b : β} :
    (x >>= f) = .ok b ↔ ∃ a, x = .ok a ∧ f a = .ok b := by
  cases x with
  | error fault => simp [bind, Except.bind]
  | ok a => simp [bind, Except.bind]

/-- A computation has a result in two steps if the second one has where the first one has, whatever that
gives. -/
lemma exists_ok_bind_iff {x : Except Fault α} {f : α → Except Fault β} {p : Prop}
    (h : ∀ a, (∃ b, f a = .ok b) ↔ p) : (∃ b, (x >>= f) = .ok b) ↔ (∃ a, x = .ok a) ∧ p := by
  simp only [bind_eq_ok_iff]
  constructor
  · rintro ⟨b, a, ha, hb⟩
    exact ⟨⟨a, ha⟩, (h a).1 ⟨b, hb⟩⟩
  · rintro ⟨⟨a, ha⟩, hp⟩
    obtain ⟨b, hb⟩ := (h a).2 hp
    exact ⟨b, a, ha, hb⟩

lemma ok_bind (a : α) (f : α → Except Fault β) : (Except.ok a >>= f) = f a := rfl

lemma not_ok_of_fault {fault : Fault} : ¬ ∃ a, (.error fault : Except Fault α) = .ok a := by
  rintro ⟨a, ha⟩
  cases ha

lemma pure_eq_ok_iff {a b : α} : (pure a : Except Fault α) = .ok b ↔ a = b :=
  Except.ok.injEq a b ▸ Iff.rfl

lemma orFault_eq_ok_iff {fault : Fault} {x : Option α} {a : α} :
    orFault fault x = .ok a ↔ x = some a := by
  cases x <;> simp [orFault]

lemma exists_orFault_iff {fault : Fault} {x : Option α} {f : α → β} :
    (∃ b, orFault fault (x.map f) = .ok b) ↔ ∃ a, x = some a := by
  cases x <;> simp [orFault]

/-- A computation that has a result for every member of a list has one for the list. -/
lemma exists_mapM {f : α → Except Fault β} {as : List α} (h : ∀ a ∈ as, ∃ b, f a = .ok b) :
    ∃ bs, as.mapM f = .ok bs := by
  induction as with
  | nil => exact ⟨[], rfl⟩
  | cons a as ih =>
    obtain ⟨b, hb⟩ := h a (List.mem_cons_self ..)
    obtain ⟨bs, hbs⟩ := ih fun c hc => h c (List.mem_cons_of_mem _ hc)
    refine ⟨b :: bs, ?_⟩
    rw [List.mapM_cons, hb, hbs]
    rfl

/-- What a computation finds for the members of a list, it finds for one of them. -/
lemma exists_of_mem_mapM {f : α → Except Fault β} {as : List α} {bs : List β}
    (h : as.mapM f = .ok bs) {b : β} (hb : b ∈ bs) : ∃ a ∈ as, f a = .ok b := by
  induction as generalizing bs with
  | nil =>
    cases h
    cases hb
  | cons a as ih =>
    rw [List.mapM_cons] at h
    obtain ⟨c, hc, h⟩ := bind_eq_ok_iff.1 h
    obtain ⟨cs, hcs, h⟩ := bind_eq_ok_iff.1 h
    cases h
    obtain rfl | hb := List.mem_cons.1 hb
    · exact ⟨a, List.mem_cons_self .., hc⟩
    · obtain ⟨a', ha', hfound⟩ := ih hcs hb
      exact ⟨a', List.mem_cons_of_mem _ ha', hfound⟩

/-- A computation that has a result for a list has one for every member. -/
lemma exists_of_mapM {f : α → Except Fault β} {as : List α} {bs : List β}
    (h : as.mapM f = .ok bs) : ∀ a ∈ as, ∃ b, f a = .ok b := by
  induction as generalizing bs with
  | nil => exact fun a ha => absurd ha List.not_mem_nil
  | cons a as ih =>
    rw [List.mapM_cons] at h
    obtain ⟨c, hc, h⟩ := bind_eq_ok_iff.1 h
    obtain ⟨cs, hcs, -⟩ := bind_eq_ok_iff.1 h
    exact List.forall_mem_cons.2 ⟨⟨c, hc⟩, ih hcs⟩

/-- The results for the members of a list are found one by one. -/
lemma mapM_eq_ok_iff {f : α → Except Fault β} {as : List α} {bs : List β} :
    as.mapM f = .ok bs ↔ as.map f = bs.map .ok := by
  induction as generalizing bs with
  | nil => cases bs <;> simp [pure_eq_ok_iff]
  | cons a as ih =>
    rw [List.mapM_cons, List.map_cons]
    constructor
    · intro h
      obtain ⟨b, hb, h⟩ := bind_eq_ok_iff.1 h
      obtain ⟨bs', hbs', h⟩ := bind_eq_ok_iff.1 h
      cases h
      rw [hb, ih.1 hbs', List.map_cons]
    · intro h
      obtain ⟨b, bs', rfl, hb, hbs'⟩ := List.map_eq_cons_iff.1 h.symm
      rw [← hb, ok_bind, ih.2 hbs'.symm]
      rfl

end UmlDrawing
