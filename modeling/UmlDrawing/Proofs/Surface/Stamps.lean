import UmlDrawing.Proofs.Surface.Clips

/-! Surfaces that are placed again and again. In each round a surface is placed on another one and
drawn on afterwards. What it was when it was placed is a snapshot, and where surfaces have nothing in
common all that comes of it is that the snapshots are composited, one after the other. -/
open UmlDrawing.Action

namespace UmlDrawing

/-- A position that a surface is placed at, and the commands that it gets afterwards. -/
abbrev Round := Vec Scalar × List (Command Scalar)

namespace Program

/-- Places a surface on another one in some rounds. -/
def stamping (target surface : Nat) : List Round → Program
  | [] => []
  | (position, commands) :: rounds =>
    (target, .place surface position) :: (on surface commands ++ stamping target surface rounds)

/-- What a surface gets in some rounds, without its placings. -/
def drawing (surface : Nat) : List Round → Program
  | [] => []
  | (_, commands) :: rounds => on surface commands ++ drawing surface rounds

end Program

section Discipline

variable {r : Roster} {target surface n : Nat} {position : Vec Scalar} {c : Command Scalar}
  {p : Program}

lemma Roster.placed_after (h : n ∈ r.placed) (c : Command Scalar) : n ∈ (r.after c).placed := by
  cases c with
  | place number position => exact List.mem_cons_of_mem _ h
  | _ => exact h

lemma Roster.placed_afterAll (h : n ∈ r.placed) (p : Program) : n ∈ (r.afterAll p).placed := by
  induction p generalizing r with
  | nil => exact h
  | cons step p ih => exact ih (Roster.placed_after h step.2)

lemma Roster.mem_afterAll {step : Nat × Command Scalar} (hstep : step ∈ p)
    (hn : n ∈ step.2.placed?) : n ∈ (r.afterAll p).placed := by
  induction p generalizing r with
  | nil => cases hstep
  | cons first p ih =>
    obtain rfl | hstep := List.mem_cons.1 hstep
    · refine Roster.placed_afterAll ?_ p
      obtain ⟨on, c⟩ := step
      cases c with
      | place number position =>
        obtain rfl := Option.some.inj hn
        exact List.mem_cons_self
      | _ => cases hn
    · exact ih hstep

/-- A surface that can still be placed on a target after some commands was not placed in them, and
neither was the target. -/
lemma Program.not_placed {target : Nat}
    (h : Program.Disciplined r (p ++ [(target, .place surface position)])) :
    ∀ step ∈ p, step.2.placed? ≠ some target := by
  intro step hstep hplaced
  obtain ⟨hpermits, -⟩ := (disciplined_append.1 h).2
  exact hpermits.unplaced rfl (Roster.mem_afterAll hstep hplaced)

/-- A surface that can be placed on a target still can after a command to it that does not place the
target. -/
lemma Roster.Permits.after (h : r.Permits target (.place surface position))
    (hc : r.Permits surface c) (htarget : c.placed? ≠ some target) :
    (r.after c).Permits target (.place surface position) := by
  cases c with
  | create w l =>
    obtain ⟨hfirst, hcount, hne, hnot⟩ := h.places surface rfl
    refine ⟨Nat.lt_succ_of_lt h.there, h.unplaced, fun n hn => ?_⟩
    obtain rfl := Option.some.inj hn
    exact ⟨hfirst, Nat.lt_succ_of_lt hcount, hne, hnot⟩
  | place number corner =>
    obtain ⟨hfirst, hcount, hne, hnot⟩ := h.places surface rfl
    have hself := (hc.places number rfl).2.2.1
    refine ⟨h.there, fun hdraws hmem => ?_, fun n hn => ?_⟩
    · obtain rfl | hmem := List.mem_cons.1 hmem
      · exact htarget rfl
      · exact h.unplaced hdraws hmem
    · obtain rfl := Option.some.inj hn
      refine ⟨hfirst, hcount, hne, fun hmem => ?_⟩
      obtain rfl | hmem := List.mem_cons.1 hmem
      · exact hself rfl
      · exact hnot hmem
  | _ => exact h

end Discipline

/-- A surface at the time it is placed, and the corner it is placed at. -/
structure Snapshot (Content Saved : Type) where
  corner : Vec Scalar
  held : Surface Content Saved

/-- Composites a snapshot. -/
def Snapshot.place {Content Shared Saved : Type} [Medium Content Shared Saved]
    (snap : Snapshot Content Saved) : Action (Canvas Content Shared) Unit :=
  Medium.place snap.held.size snap.held.content snap.corner

namespace Studio

variable {Content Shared Saved : Type} [Medium Content Shared Saved]
  {s t u : Studio Content Shared Saved} {x : Surface Content Saved} {p q : Program}
  {target surface on i : Nat} {position : Vec Scalar} {c : Command Scalar}
  {commands : List (Command Scalar)} {rounds : List Round}
  {snaps : List (Snapshot Content Saved)}

/-- Rounds that are carried out one after the other, with the snapshots that are placed in them. -/
inductive Stamps (target surface : Nat) : Studio Content Shared Saved → List Round →
    List (Snapshot Content Saved) → Studio Content Shared Saved → Prop
  | done (s : Studio Content Shared Saved) : Stamps target surface s [] [] s
  | round {s placed drawn t : Studio Content Shared Saved} {x z : Surface Content Saved}
    {position corner : Vec Scalar} {commands : List (Command Scalar)} {rounds : List Round}
    {snaps : List (Snapshot Content Saved)}
    (hx : s.surfaces[target]? = some x) (hz : s.surfaces[surface]? = some z)
    (hcorner : x.pen.offset.add position = .ok corner)
    (hplace : perform 0 target (.place surface position) s = .ok () placed)
    (hdraw : carryOut (.on surface commands) placed = .ok () drawn)
    (hrest : Stamps target surface drawn rounds snaps t) :
    Stamps target surface s ((position, commands) :: rounds) (⟨corner, z⟩ :: snaps) t

lemma carryOut_cons_eq_ok_iff :
    carryOut ((on, c) :: p) s = .ok () u ↔
      ∃ t, perform 0 on c s = .ok () t ∧ carryOut p t = .ok () u :=
  seq_eq_ok_iff

lemma carryOut_append_eq_ok_iff :
    carryOut (p ++ q) s = .ok () u ↔ ∃ t, carryOut p s = .ok () t ∧ carryOut q t = .ok () u := by
  have happend : (carryOut (p ++ q) : Action (Studio Content Shared Saved) Unit) =
      carryOut p >>= fun _ => carryOut q := by
    induction p with
    | nil => rfl
    | cons step p ih => rw [List.cons_append, carryOut, carryOut, ih, bind_assoc]
  rw [happend, seq_eq_ok_iff]

/-- What every command keeps is kept by a program. -/
lemma carryOut_induction {I : Studio Content Shared Saved → Prop}
    (hperform : ∀ {s t on c}, I s → perform 0 on c s = .ok () t → I t) (hs : I s)
    (h : carryOut p s = .ok () t) : I t := by
  induction p generalizing s with
  | nil =>
    cases h
    exact hs
  | cons step p ih =>
    obtain ⟨u, hu, h⟩ := carryOut_cons_eq_ok_iff.1 h
    exact ih (hperform hs hu) h

/-- All numbers of two programs, one after the other, can be written. -/
lemma writable_append (h : (p ++ q).Writable s) :
    p.Writable s ∧ ∀ t, carryOut p s = .ok () t → q.Writable t := by
  induction p generalizing s with
  | nil =>
    refine ⟨trivial, fun t ht => ?_⟩
    cases ht
    exact h
  | cons step p ih =>
    obtain ⟨hnow, hlater⟩ := h
    refine ⟨⟨hnow, fun u hu => (ih (hlater u hu)).1⟩, fun t ht => ?_⟩
    obtain ⟨u, hu, ht⟩ := carryOut_cons_eq_ok_iff.1 ht
    exact (ih (hlater u hu)).2 t ht

/-- A surface is placed if both are there and the medium has composited the one on the other. -/
lemma perform_place_eq_ok_iff :
    perform 0 target (.place surface position) s = .ok () t ↔
      ∃ x z corner canvas, s.surfaces[target]? = some x ∧ s.surfaces[surface]? = some z ∧
        x.pen.offset.add position = .ok corner ∧
        Medium.place z.size z.content corner (s.shared, x.content) = .ok () canvas ∧
        t = s.putCanvas target x canvas := by
  rw [perform_place_apply, Nat.zero_add, Nat.zero_add]
  cases hx : s.surfaces[target]? with
  | none => simp
  | some x =>
    cases hz : s.surfaces[surface]? with
    | none => simp
    | some z =>
      dsimp only
      cases hcorner : x.pen.offset.add position with
      | error fault => simp [hcorner]
      | ok corner =>
        dsimp only
        rw [onCanvas_apply, hx]
        dsimp only
        cases hplace : Medium.place z.size z.content corner (s.shared, x.content) with
        | error fault canvas => simp [hcorner, hplace]
        | ok _ canvas =>
          obtain ⟨shared, content⟩ := canvas
          simp [hcorner, hplace, putCanvas, eq_comm]

/-- Rounds are carried out if there are snapshots for them. -/
theorem carryOut_stamping_iff :
    carryOut (Program.stamping target surface rounds) s = .ok () t ↔
      ∃ snaps, Stamps target surface s rounds snaps t := by
  constructor
  · intro h
    induction rounds generalizing s with
    | nil =>
      cases h
      exact ⟨[], .done _⟩
    | cons round rounds ih =>
      obtain ⟨position, commands⟩ := round
      obtain ⟨placed, hplace, h⟩ := carryOut_cons_eq_ok_iff.1 h
      obtain ⟨drawn, hdraw, h⟩ := carryOut_append_eq_ok_iff.1 h
      obtain ⟨snaps, hrest⟩ := ih h
      obtain ⟨x, z, corner, canvas, hx, hz, hcorner, -⟩ := perform_place_eq_ok_iff.1 hplace
      exact ⟨_, .round hx hz hcorner hplace hdraw hrest⟩
  · rintro ⟨snaps, h⟩
    induction h with
    | done s => rfl
    | round _ _ _ hplace hdraw _ ih =>
      exact carryOut_cons_eq_ok_iff.2 ⟨_, hplace, carryOut_append_eq_ok_iff.2 ⟨_, hdraw, ih⟩⟩

lemma Stamps.carryOut (h : Stamps target surface s rounds snaps t) :
    carryOut (Program.stamping target surface rounds) s = .ok () t :=
  carryOut_stamping_iff.2 ⟨snaps, h⟩

lemma Stamps.length_eq (h : Stamps target surface s rounds snaps t) :
    snaps.length = rounds.length := by
  induction h with
  | done s => rfl
  | round _ _ _ _ _ _ ih => rw [List.length_cons, List.length_cons, ih]

/-- A command to one surface leaves the others as they are. -/
lemma Moves.other {states : Bool} (h : s.Moves on states t) (hi : i ≠ on)
    (hx : s.surfaces[i]? = some x) : t.surfaces[i]? = some x := by
  have hput (y : Surface Content Saved) : (s.surfaces.set on y)[i]? = some x := by
    rw [List.getElem?_set_ne (Ne.symm hi), hx]
  cases h with
  | idle => exact hx
  | pen _ pen => exact hput _
  | push _ _ => exact hput _
  | pop _ _ => exact hput _
  | paint _ pen _ => exact hput _
  | create _ =>
    obtain ⟨hlt, -⟩ := List.getElem?_eq_some_iff.1 hx
    exact (List.getElem?_append_left hlt).trans hx

lemma perform_other (h : perform 0 on c s = .ok () t) (hi : i ≠ on)
    (hx : s.surfaces[i]? = some x) : t.surfaces[i]? = some x := by
  have hmoves := moves_perform 0 on c s
  rw [h, Nat.zero_add] at hmoves
  exact hmoves.other hi hx

lemma carryOut_other (h : carryOut (.on on commands) s = .ok () t) (hi : i ≠ on)
    (hx : s.surfaces[i]? = some x) : t.surfaces[i]? = some x := by
  induction commands generalizing s with
  | nil =>
    cases h
    exact hx
  | cons c commands ih =>
    obtain ⟨u, hu, h⟩ := carryOut_cons_eq_ok_iff.1 h
    exact ih h (perform_other hu hi hx)

/-- A surface keeps its offset while another one is placed on it, so that the snapshots are placed at
the positions of the rounds, all moved by the same offset. -/
lemma Stamps.corners (h : Stamps target surface s rounds snaps t) (hne : target ≠ surface)
    (hx : s.surfaces[target]? = some x) {offset : Vec Scalar} (hoffset : x.pen.offset = offset) :
    List.Forall₂ (fun round snap => offset.add round.1 = .ok snap.corner) rounds snaps := by
  induction h generalizing x with
  | done s => exact .nil
  | round hx' _ hcorner hplace hdraw _ ih =>
    obtain ⟨x', -, -, canvas, hx'', -, -, -, rfl⟩ := perform_place_eq_ok_iff.1 hplace
    obtain rfl := Option.some.inj (hx'.symm.trans hx)
    obtain rfl := Option.some.inj (hx'.symm.trans hx'')
    have hafter := carryOut_other hdraw hne (getElem?_putCanvas hx' _ canvas)
    exact .cons (hoffset ▸ hcorner) (ih hafter hoffset)

/-- Where surfaces have nothing in common, a surface that another one was placed on is left with the
snapshots, composited one after the other. -/
theorem Stamps.composites {Content Saved : Type} [Medium Content Unit Saved]
    {s t : Studio Content Unit Saved} {x : Surface Content Saved}
    {snaps : List (Snapshot Content Saved)} (h : Stamps target surface s rounds snaps t)
    (hne : target ≠ surface) (hx : s.surfaces[target]? = some x) :
    ∃ content, t.surfaces[target]? = some { x with content := content } ∧
      forM snaps Snapshot.place ((), x.content) = .ok () ((), content) := by
  induction h generalizing x with
  | done s => exact ⟨x.content, hx, rfl⟩
  | round hx' hz hcorner hplace hdraw _ ih =>
    obtain ⟨x', z', corner', canvas, hx'', hz', hcorner', hcanvas, rfl⟩ :=
      perform_place_eq_ok_iff.1 hplace
    obtain rfl := Option.some.inj (hx'.symm.trans hx)
    obtain rfl := Option.some.inj (hx'.symm.trans hx'')
    obtain rfl := Option.some.inj (hz.symm.trans hz')
    obtain rfl := Except.ok.inj (hcorner.symm.trans hcorner')
    -- the rest of the rounds starts from the surface as the placing left it
    have hafter := carryOut_other hdraw hne (getElem?_putCanvas hx _ canvas)
    obtain ⟨content, hcontent, hforM⟩ := ih hafter
    exact ⟨content, hcontent, (bind_of_ok hcanvas).trans hforM⟩

end Studio

end UmlDrawing
