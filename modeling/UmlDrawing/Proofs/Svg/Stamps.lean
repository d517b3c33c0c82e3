import UmlDrawing.Font.Block
import UmlDrawing.Proofs.Surface.Kept
import UmlDrawing.Proofs.Svg.Copies
import UmlDrawing.Proofs.Svg.Run

/-! Surfaces that are placed again and again, in vector graphics and in recordings. A recording keeps
a snapshot for every placing. A document has as many copies, but all of them are the group of the
surface itself, so they show what was drawn on it up to the end, where it was placed last. -/
open UmlDrawing.Action

namespace UmlDrawing

/-- The call that a snapshot is recorded as. -/
def Snapshot.call (snap : Snapshot Recording Unit) : Call :=
  .surface snap.corner snap.held.size snap.held.content.calls

/-- What is recorded on a surface depends on no other one. -/
lemma carries_recording :
    Carries (fun _ _ : Unit => True) (fun _ : Recording => True) fun _ : Recording => True where
  create _ _ _ _ _ ha := ⟨_, ha, trivial, rfl⟩
  fill _ _ _ _ _ _ _ _ _ ha := ⟨_, ha, trivial, rfl⟩
  stroke _ _ _ _ _ _ _ _ _ ha := ⟨_, ha, trivial, rfl⟩
  clip _ _ _ _ _ _ _ ha := ⟨_, ha, trivial, rfl⟩
  text _ _ _ _ _ _ _ _ _ _ _ ha := ⟨_, ha, trivial, rfl⟩
  place _ _ _ _ _ _ _ _ _ _ ha := ⟨_, ha, trivial, rfl⟩

/-- Recorded calls are never taken back. -/
lemma steady_calls (calls : List Call) : Steady fun r : Recording => calls <+: r.calls where
  restore _ _ h := h
  fill path color alpha _ _ h := by
    refine final_ofExcept_bind (P := fun a : Canvas Recording Unit => calls <+: a.2.calls) h fun written _ => ?_
    exact h.trans (List.prefix_append _ _)
  stroke path color dash _ _ h := by
    refine final_ofExcept_bind (P := fun a : Canvas Recording Unit => calls <+: a.2.calls) h fun written _ => ?_
    exact h.trans (List.prefix_append _ _)
  clip path _ _ h := h.trans (List.prefix_append _ _)
  text text position font style color _ _ h := by
    refine final_ofExcept_bind (P := fun a : Canvas Recording Unit => calls <+: a.2.calls) h fun corner _ => ?_
    refine final_ofExcept_bind (P := fun a : Canvas Recording Unit => calls <+: a.2.calls) h fun written _ => ?_
    exact h.trans (List.prefix_append _ _)
  place size placed position _ _ h := h.trans (List.prefix_append _ _)

/-- From a snapshot on, a recorded surface keeps its size and what was recorded on it. -/
lemma Studio.Stamps.grows {target surface : Nat} {s t : Studio Recording Unit Unit}
    {rounds : List Round} {snaps : List (Snapshot Recording Unit)}
    (h : s.Stamps target surface rounds snaps t) :
    ∀ snap ∈ snaps, ∃ w, t.surfaces[surface]? = some w ∧ snap.held.size = w.size ∧
      snap.held.content.calls <+: w.content.calls := by
  induction h with
  | done s => exact fun snap hsnap => absurd hsnap List.not_mem_nil
  | @round s placed drawn t x z position corner commands rounds snaps hx hz hcorner hplace hdraw
      hrest ih =>
    refine List.forall_mem_cons.2 ⟨?_, ih⟩
    have hwhole := (Stamps.round hx hz hcorner hplace hdraw hrest).carryOut
    refine carryOut_induction (I := fun u => ∃ w, u.surfaces[surface]? = some w ∧
      z.size = w.size ∧ z.content.calls <+: w.content.calls) ?_ ⟨z, hz, rfl, List.prefix_rfl⟩ hwhole
    rintro u v on c ⟨w, hw, hsize, hcalls⟩ hv
    have hholds : Holds (fun r : Recording => z.content.calls <+: r.calls) surface u :=
      ⟨w, hw, hcalls⟩
    have hafter := hholds.perform (steady_calls z.content.calls) 0 on c
    obtain ⟨w', hw', hkept⟩ := perform_keeps 0 on c surface w hw
    rw [hv] at hafter hw'
    obtain ⟨w'', hw'', hcalls'⟩ := hafter
    obtain rfl := Option.some.inj (hw'.symm.trans hw'')
    exact ⟨w', hw', hsize.trans hkept.1.symm, hcalls'⟩

lemma Command.WritableOn.congr {Content Shared Saved : Type} {s t : Studio Content Shared Saved}
    {x : Surface Content Saved} {c : Command Scalar} (h : c.WritableOn s x)
    (hplaced : ∀ n ∈ c.placed?, t.surfaces[n]? = s.surfaces[n]?) : c.WritableOn t x := by
  cases c with
  | place number position =>
    refine ⟨h.1, fun y hy => h.2 y ?_⟩
    rw [← hplaced number rfl, hy]
  | _ => exact h

namespace Svg

/-- A surface keeps its group. -/
lemma steady_root (k : Nat) : Steady fun s : Sheet => s.root = k where
  restore _ _ h := h
  fill path color alpha d _ h := (Sheet.advances_fill path color alpha).root.trans h
  stroke path color dash d _ h := (Sheet.advances_stroke path color dash).root.trans h
  clip path d _ h := (Sheet.advances_clip path).root.trans h
  text text position font style color d _ h :=
    (Sheet.advances_text text position style color).root.trans h
  place size placed position d s h := by
    change (final (Sheet.place size placed position (d, s))).2.root = k
    unfold Sheet.place
    dsimp only
    cases Sheet.boxSize size with
    | error fault => exact h
    | ok box =>
      dsimp only
      cases Sheet.movable placed position with
      | error fault => exact h
      | ok _ => exact h

section Apart

variable {r : Roster} {branch : Nat → Branch} {t : Studio Sheet Document Nat}
  {s : Studio Recording Unit Unit} {i j : Nat} {x y : Surface Sheet Nat}

/-- The group of a surface that was not placed is on its branch. -/
lemma Agree.root_mem (h : Agree r branch t s) (hx : t.surfaces[i]? = some x) (hi : i ∉ r.placed) :
    x.content.root ∈ (branch i).numbers :=
  List.mem_append_left _ (List.mem_of_head? (h.forest.bears (footing_eq hx) hi).root)

/-- So is the group that it is drawn to. -/
lemma Agree.container_mem (h : Agree r branch t s) (hx : t.surfaces[i]? = some x)
    (hi : i ∉ r.placed) : x.content.container ∈ (branch i).numbers :=
  List.mem_append_left _ (h.forest.bears (footing_eq hx) hi).container_mem

/-- Two surfaces that were not placed have no group in common. -/
lemma Agree.ne_of_mem (h : Agree r branch t s) (hx : t.surfaces[i]? = some x)
    (hy : t.surfaces[j]? = some y) (hi : i ∉ r.placed) (hj : j ∉ r.placed) (hne : i ≠ j)
    {m n : Nat} (hm : m ∈ (branch i).numbers) (hn : n ∈ (branch j).numbers) : m ≠ n := by
  rintro rfl
  exact h.forest.apart (footing_eq hx) (footing_eq hy) hi hj hne hm hn

/-- The group of a surface that was not placed is there. -/
lemma Agree.root_lt (h : Agree r branch t s) (hx : t.surfaces[i]? = some x) (hi : i ∉ r.placed) :
    x.content.root < t.shared.groups.length :=
  Document.lt_of_contents_isSome
    ((h.forest.bears (footing_eq hx) hi).isSome _ (h.root_mem hx hi))

/-- What is drawn to a surface that was not placed, in a document with other items in the group of
another such surface. -/
lemma Agree.leaves_root (h : Agree r branch t s) (hx : t.surfaces[i]? = some x)
    (hy : t.surfaces[j]? = some y) (hi : i ∉ r.placed) (hj : j ∉ r.placed) (hne : i ≠ j)
    {d : Document} (hsame : ∀ n ≠ y.content.container, d.contents n = t.shared.contents n) :
    leaves d.groups d.groups.length (.group x.content.root) = .ok (branch i).drawn := by
  have hbears := h.forest.bears (footing_eq hx) hi
  obtain ⟨ns, hlists, hperm⟩ := hbears.spine.lists hbears.root
  have hlists' : Lists d.contents [.group x.content.root] (branch i).drawn ns :=
    hlists.congr fun n hn => hsame n
      (h.ne_of_mem hx hy hi hj hne (hperm.mem_iff.1 hn) (h.container_mem hy hj))
  exact leaves_group_of_lists hlists' (hperm.nodup_iff.2 hbears.nodup)

end Apart

/-- A group shows a snapshot of a recording: it is moved to a corner that is written like that of the
snapshot, clipped to the box of the surface, and draws what was recorded. -/
def Document.Shows (d : Document) (n : Nat) (snap : Snapshot Recording Unit) : Prop :=
  ∃ corner ds, d.Frames n corner snap.held.size ∧ point corner = point snap.corner ∧
    leaves d.groups d.groups.length (.group n) = .ok ds ∧
    List.Forall₂ Matches ds (Call.drawnAll snap.held.content.calls)

/-- A document and a recording in which a surface was placed on another one some times. Without the
copies and the snapshots they agree. -/
structure Stamped (r : Roster) (target surface : Nat) (slot : Slot) (x : Surface Sheet Nat)
    (y : Surface Recording Unit) (snaps : List (Snapshot Recording Unit))
    (t : Studio Sheet Document Nat) (s : Studio Recording Unit Unit) : Prop where
  permits : r.Permits target (.place surface .origin)
  container : slot.container = x.content.container
  twin : Twin x y
  sheet : t.surfaces[target]? = some x
  log : s.surfaces[target]? =
    some { y with content := ⟨y.content.calls ++ snaps.map Snapshot.call⟩ }
  held : ∃ z, t.surfaces[surface]? = some z ∧ z.content.root = slot.root ∧ z.size = slot.size
  bare : ∃ branch t₀ s₀, Agree r branch t₀ s₀ ∧ t₀.surfaces[target]? = some x ∧
    t₀.Alongside (Copied slot (snaps.map Snapshot.corner)) target t ∧
    s₀.Alongside (fun _ _ => True) target s

/-- Nothing was placed yet. -/
lemma Agree.stamped {r : Roster} {branch : Nat → Branch} {t : Studio Sheet Document Nat}
    {s : Studio Recording Unit Unit} {target surface : Nat} {x z : Surface Sheet Nat}
    {y : Surface Recording Unit} {items : List Item} (h : Agree r branch t s)
    (hpermits : r.Permits target (.place surface .origin)) (hx : t.surfaces[target]? = some x)
    (hy : s.surfaces[target]? = some y) (hz : t.surfaces[surface]? = some z)
    (hitems : t.shared.contents x.content.container = some items) :
    Stamped r target surface ⟨x.content.container, items, z.content.root, z.size⟩ x y [] t s where
  permits := hpermits
  container := rfl
  twin := h.twin hx hy
  sheet := hx
  log := by rw [hy, List.map_nil, List.append_nil]
  held := ⟨z, hz, rfl, rfl⟩
  bare := ⟨branch, t, s, h, hx, ⟨.refl hitems, rfl, rfl, fun _ => rfl⟩,
    ⟨trivial, rfl, rfl, fun _ => rfl⟩⟩

namespace Stamped

variable {r : Roster} {target surface : Nat} {slot : Slot} {x : Surface Sheet Nat}
  {y : Surface Recording Unit} {snaps : List (Snapshot Recording Unit)}
  {t : Studio Sheet Document Nat} {s : Studio Recording Unit Unit} {c : Command Scalar}
  {commands : List (Command Scalar)} {position : Vec Scalar} {rounds : List Round}

lemma ne (h : Stamped r target surface slot x y snaps t s) : surface ≠ target :=
  (h.permits.places surface rfl).2.2.1

/-- A command to the surface, which is not placed itself. -/
lemma perform (h : Stamped r target surface slot x y snaps t s) (hpermits : r.Permits surface c)
    (htarget : c.placed? ≠ some target) (hcolor : ∀ color ∈ c.color?, color.inRange = true)
    (hwritable : ∀ w, s.surfaces[surface]? = some w → c.WritableOn s w) :
    ∃ t' s', Studio.perform 0 surface c t = .ok () t' ∧ Studio.perform 0 surface c s = .ok () s' ∧
      Stamped (r.after c) target surface slot x y snaps t' s' := by
  obtain ⟨branch, t₀, s₀, hagree, hx, hcopied, hlogged⟩ := h.bare
  obtain ⟨-, -, -, hunplaced⟩ := h.permits.places surface rfl
  have hother : ∀ n ∈ c.placed?, n ≠ target := fun n hn heq => htarget (heq ▸ hn)
  -- without the copies and snapshots both sides carry out the command and agree
  have hbare (w) (hw : s₀.surfaces[surface]? = some w) : c.WritableOn s₀ w := by
    refine (hwritable w ((hlogged.same h.ne).trans hw)).congr fun n hn => ?_
    rw [hlogged.same (hother n hn)]
  obtain ⟨branch', t₁, s₁, ht₁, hs₁, hagree'⟩ := hagree.perform hpermits hcolor hbare
  obtain ⟨z, w, hz, hw, -⟩ := hagree.exists_twin hpermits.there
  -- and with them it goes the same way, since it is about other groups
  have hunplaced' := h.permits.unplaced rfl
  have hdrawn : z.content.container ≠ slot.container := by
    rw [h.container]
    exact hagree.ne_of_mem hz hx hunplaced hunplaced' h.ne (hagree.container_mem hz hunplaced)
      (hagree.container_mem hx hunplaced')
  obtain ⟨z', hz', hroot, hsize⟩ := h.held
  obtain rfl : z = z' := Option.some.inj (hz.symm.trans ((hcopied.same h.ne).symm.trans hz'))
  have hplaced : ∀ n ∈ c.placed?, n ≠ target ∧ ∀ u, t₀.surfaces[n]? = some u →
      u.content.root ≠ slot.root := by
    intro n hn
    obtain ⟨-, -, hself, hnot⟩ := hpermits.places n hn
    refine ⟨hother n hn, fun u hu => ?_⟩
    rw [← hroot]
    exact hagree.ne_of_mem hu hz hnot hunplaced hself (hagree.root_mem hu hnot)
      (hagree.root_mem hz hunplaced)
  obtain ⟨t', ht', hcopied'⟩ := hcopied.perform Copied.carries hz h.ne hdrawn hplaced ht₁
  obtain ⟨s', hs', hlogged'⟩ := hlogged.perform carries_recording hw h.ne trivial
    (fun n hn => ⟨hother n hn, fun _ _ => trivial⟩) hs₁
  refine ⟨t', s', ht', hs', ?_⟩
  constructor
  case permits => exact h.permits.after hpermits htarget
  case container => exact h.container
  case twin => exact h.twin
  case sheet => exact Studio.perform_other ht' (Ne.symm h.ne) h.sheet
  case log => exact Studio.perform_other hs' (Ne.symm h.ne) h.log
  case held =>
    have hholds : Studio.Holds (fun s : Sheet => s.root = slot.root) surface t := ⟨z, hz', hroot⟩
    have hafter := hholds.perform (steady_root slot.root) 0 surface c
    obtain ⟨u, hu, hkept⟩ := Studio.perform_keeps 0 surface c surface z hz'
    rw [ht'] at hafter hu
    obtain ⟨u', hu', hroot'⟩ := hafter
    obtain rfl := Option.some.inj (hu.symm.trans hu')
    exact ⟨u, hu, hroot', hkept.1.trans hsize⟩
  case bare =>
    exact ⟨branch', t₁, s₁, hagree', Studio.perform_other ht₁ (Ne.symm h.ne) hx, hcopied', hlogged'⟩

/-- Commands to the surface, none of which places the target. -/
lemma draw (h : Stamped r target surface slot x y snaps t s)
    (hdisciplined : (Program.on surface commands).Disciplined r)
    (htarget : ∀ c ∈ commands, c.placed? ≠ some target)
    (hcolors : (Program.on surface commands).ColorsInRange)
    (hwritable : (Program.on surface commands).Writable s) :
    ∃ t' s', Studio.carryOut (.on surface commands) t = .ok () t' ∧
      Studio.carryOut (.on surface commands) s = .ok () s' ∧
      Stamped (r.afterAll (.on surface commands)) target surface slot x y snaps t' s' := by
  induction commands generalizing r t s with
  | nil => exact ⟨t, s, rfl, rfl, h⟩
  | cons c commands ih =>
    obtain ⟨hpermits, hrest⟩ := hdisciplined
    obtain ⟨hcolor, hcolors⟩ := List.forall_mem_cons.1 hcolors
    obtain ⟨hfirst, htarget⟩ := List.forall_mem_cons.1 htarget
    obtain ⟨hnow, hlater⟩ := hwritable
    obtain ⟨t', s', ht, hs, h'⟩ := h.perform hpermits hfirst hcolor hnow
    obtain ⟨t'', s'', ht', hs', h''⟩ := ih h' hrest htarget hcolors (hlater s' hs)
    exact ⟨t'', s'', (bind_of_ok ht).trans ht', (bind_of_ok hs).trans hs', h''⟩

/-- One more placing of the surface: the recording gets a snapshot, the document a copy. -/
lemma place (h : Stamped r target surface slot x y snaps t s)
    (hwritable : ∀ y, s.surfaces[target]? = some y →
      (Command.place surface position).WritableOn s y) :
    ∃ corner w t' s', s.surfaces[surface]? = some w ∧ y.pen.offset.add position = .ok corner ∧
      Studio.perform 0 target (.place surface position) t = .ok () t' ∧
      Studio.perform 0 target (.place surface position) s = .ok () s' ∧
      Stamped r target surface slot x y (snaps ++ [⟨corner, w⟩]) t' s' := by
  obtain ⟨branch, t₀, s₀, hagree, hx, hcopied, hlogged⟩ := h.bare
  obtain ⟨hfirst, hcount, -, hunplaced⟩ := h.permits.places surface rfl
  obtain ⟨z, w, hz, hw, hsame⟩ := hagree.exists_twin hcount
  obtain ⟨z', hz', hroot, hsize⟩ := h.held
  obtain rfl : z = z' := Option.some.inj (hz.symm.trans ((hcopied.same h.ne).symm.trans hz'))
  have hws : s.surfaces[surface]? = some w := (hlogged.same h.ne).trans hw
  obtain ⟨⟨corner, hcorner, hmeasurable⟩, hdoubles⟩ := hwritable _ h.log
  obtain ⟨hwidth, hheight⟩ := hdoubles w hws
  have hzero : z.content.root ≠ 0 := hagree.root_ne_zero hz hunplaced hfirst
  have hlt : slot.root < t₀.shared.groups.length := hroot ▸ hagree.root_lt hz hunplaced
  have hplace := Sheet.place_ok (hsame.size ▸ hwidth) (hsame.size ▸ hheight) hzero hmeasurable
    t.shared x.content
  rw [hroot, hsize, ← h.container] at hplace
  have ht : Studio.perform 0 target (.place surface position) t =
      .ok () (t.putCanvas target x ((t.shared.framed slot.root corner slot.size).append
        slot.container (.group slot.root), x.content)) := by
    refine Studio.perform_place_eq_ok_iff.2
      ⟨x, z, corner, _, h.sheet, hz', h.twin.pen ▸ hcorner, ?_, rfl⟩
    rw [hsize]
    exact hplace
  have hs : Studio.perform 0 target (.place surface position) s =
      .ok () (s.putCanvas target y ((), ⟨y.content.calls ++ snaps.map Snapshot.call ++
        [.surface corner w.size w.content.calls]⟩)) :=
    Studio.perform_place_eq_ok_iff.2 ⟨_, w, corner, _, h.log, hws, hcorner, rfl, rfl⟩
  refine ⟨corner, w, _, _, hws, hcorner, ht, hs, ?_⟩
  constructor
  case permits => exact h.permits
  case container => exact h.container
  case twin => exact h.twin
  case sheet => exact Studio.getElem?_putCanvas h.sheet x _
  case log =>
    rw [Studio.getElem?_putCanvas h.log y, List.map_append, List.append_assoc]
    rfl
  case held =>
    refine ⟨z, ?_, hroot, hsize⟩
    exact (List.getElem?_set_ne (Ne.symm h.ne)).trans hz'
  case bare =>
    refine ⟨branch, t₀, s₀, hagree, hx, ?_, ?_⟩
    · refine ⟨?_, hcopied.metrics, ?_, fun {i} hi => ?_⟩
      · rw [List.map_append]
        exact hcopied.shared.place hlt corner
      · exact List.length_set.trans hcopied.length
      · exact (List.getElem?_set_ne (Ne.symm hi)).trans (hcopied.same hi)
    · refine ⟨trivial, hlogged.metrics, ?_, fun {i} hi => ?_⟩
      · exact List.length_set.trans hlogged.length
      · exact (List.getElem?_set_ne (Ne.symm hi)).trans (hlogged.same hi)

/-- Rounds in which the surface is placed and then drawn on. -/
theorem run (h : Stamped r target surface slot x y snaps t s)
    (hdisciplined : (Program.drawing surface rounds).Disciplined r)
    (htarget : ∀ step ∈ Program.drawing surface rounds, step.2.placed? ≠ some target)
    (hcolors : (Program.drawing surface rounds).ColorsInRange)
    (hwritable : (Program.stamping target surface rounds).Writable s) :
    ∃ more t' s', Studio.carryOut (.stamping target surface rounds) t = .ok () t' ∧
      s.Stamps target surface rounds more s' ∧
      Stamped (r.afterAll (.drawing surface rounds)) target surface slot x y (snaps ++ more)
        t' s' := by
  induction rounds generalizing r snaps t s with
  | nil =>
    refine ⟨[], t, s, rfl, .done s, ?_⟩
    rw [List.append_nil]
    exact h
  | cons round rounds ih =>
    obtain ⟨position, commands⟩ := round
    obtain ⟨hnow, hlater⟩ := hwritable
    obtain ⟨corner, w, t₁, s₁, hw, hcorner, ht₁, hs₁, h₁⟩ := h.place hnow
    obtain ⟨hdraw, hrest⟩ := Studio.writable_append (hlater s₁ hs₁)
    obtain ⟨hcommands, hrounds⟩ := Program.disciplined_append.1 hdisciplined
    have hcommand : ∀ c ∈ commands, c.placed? ≠ some target := fun c hc =>
      htarget (surface, c) (List.mem_append_left _ (List.mem_map_of_mem hc))
    obtain ⟨t₂, s₂, ht₂, hs₂, h₂⟩ := h₁.draw hcommands hcommand
      (fun step hstep => hcolors step (List.mem_append_left _ hstep)) hdraw
    obtain ⟨more, t₃, s₃, ht₃, hstamps, h₃⟩ := ih h₂ hrounds
      (fun step hstep => htarget step (List.mem_append_right _ hstep))
      (fun step hstep => hcolors step (List.mem_append_right _ hstep)) (hrest s₂ hs₂)
    refine ⟨⟨corner, w⟩ :: more, t₃, s₃, ?_, .round h.log hw hcorner hs₁ hs₂ hstamps, ?_⟩
    · exact Studio.carryOut_cons_eq_ok_iff.2
        ⟨t₁, ht₁, Studio.carryOut_append_eq_ok_iff.2 ⟨t₂, ht₂, ht₃⟩⟩
    · rw [← List.append_cons] at h₃
      rw [Program.drawing, Roster.afterAll, List.foldl_append]
      exact h₃

/-- The surface is still there. -/
lemma exists_held (h : Stamped r target surface slot x y snaps t s) :
    ∃ w, s.surfaces[surface]? = some w := by
  obtain ⟨branch, t₀, s₀, hagree, -, -, hlogged⟩ := h.bare
  obtain ⟨-, w, -, hw, -⟩ := hagree.exists_twin (h.permits.places surface rfl).2.1
  exact ⟨w, (hlogged.same h.ne).trans hw⟩

/-- The target has a copy for every snapshot. -/
lemma contents_container (h : Stamped r target surface slot x y snaps t s) :
    t.shared.contents x.content.container =
      some (slot.items ++ List.replicate snaps.length (.group slot.root)) := by
  obtain ⟨branch, t₀, s₀, -, -, hcopied, -⟩ := h.bare
  rw [← h.container, hcopied.shared.copies, List.length_map]

/-- What the copies show: the group of the surface, in its last frame. -/
lemma shows_iff (h : Stamped r target surface slot x y snaps t s) {w : Surface Recording Unit}
    (hw : s.surfaces[surface]? = some w) {snap last : Snapshot Recording Unit}
    (hlast : last ∈ snaps.getLast?) (hsize : snap.held.size = w.size)
    (hcalls : snap.held.content.calls <+: w.content.calls) :
    t.shared.Shows slot.root snap ↔ point snap.corner = point last.corner ∧
      Call.drawnAll snap.held.content.calls = Call.drawnAll w.content.calls := by
  obtain ⟨branch, t₀, s₀, hagree, hx, hcopied, hlogged⟩ := h.bare
  obtain ⟨-, hcount, -, hunplaced⟩ := h.permits.places surface rfl
  obtain ⟨z, w', hz, hw', hsame⟩ := hagree.exists_twin hcount
  obtain rfl : w = w' := Option.some.inj (hw.symm.trans ((hlogged.same h.ne).trans hw'))
  obtain ⟨z', hz', hroot, hslot⟩ := h.held
  obtain rfl : z = z' := Option.some.inj (hz.symm.trans ((hcopied.same h.ne).symm.trans hz'))
  have hleaves : leaves t.shared.groups t.shared.groups.length (.group slot.root) =
      .ok (branch surface).drawn := by
    rw [← hroot]
    refine hagree.leaves_root hz hx hunplaced (h.permits.unplaced rfl) h.ne fun n hn => ?_
    exact hcopied.shared.others (h.container ▸ hn)
  have hdrawn := hagree.drawn hw' hunplaced
  have hframes : t.shared.Frames slot.root last.corner slot.size := by
    refine hcopied.shared.frames _ ?_
    rw [List.getLast?_map]
    exact Option.mem_map_of_mem _ hlast
  constructor
  · rintro ⟨corner, ds, hcorner, hpoint, hds, hmatches⟩
    obtain ⟨g, name, hg, hshift, -⟩ := hframes
    obtain ⟨g', name', hg', hshift', -⟩ := hcorner
    obtain rfl := Option.some.inj (hg.symm.trans hg')
    obtain rfl := Option.some.inj (hshift.symm.trans hshift')
    obtain rfl := Except.ok.inj (hleaves.symm.trans hds)
    -- as many calls of the snapshot are drawn as in the end, and those come first
    refine ⟨hpoint.symm, List.IsPrefix.eq_of_length ?_ ?_⟩
    · obtain ⟨later, hlater⟩ := hcalls
      rw [← hlater, Call.drawnAll_append]
      exact List.prefix_append _ _
    · exact hmatches.length_eq.symm.trans hdrawn.length_eq
  · rintro ⟨hpoint, heq⟩
    refine ⟨last.corner, _, ?_, hpoint.symm, hleaves, ?_⟩
    · rw [hsize, ← hsame.size, hslot]
      exact hframes
    · rw [heq]
      exact hdrawn

end Stamped

/-- A surface that is placed in some rounds, and drawn on in between, leaves a copy for every placing.
Where surfaces have nothing in common, and so in images and in recordings, the copies are snapshots:
each is composited as the surface was at that time. In vector graphics all copies are links to one
group; a copy shows the snapshot that was recorded for it exactly if the corner is written like the
last one and nothing was drawn on the surface since. -/
theorem stamps_show_iff {size : Vec Scalar} {metrics : Metrics} {p : Program}
    {target surface : Nat} {rounds : List Round} (hsize : size.Measurable)
    (hfirst : Program.Disciplined { count := 1 } (p ++ [(target, .place surface .origin)]))
    (hlast : Program.Disciplined { count := 1 }
      (p ++ .drawing surface rounds ++ [(target, .place surface .origin)]))
    (hcolors : Program.ColorsInRange (p ++ .drawing surface rounds))
    (hwritable : ∀ s : Studio Recording Unit Unit, Studio.start size metrics = .ok s →
      Program.Writable s (p ++ .stamping target surface rounds)) :
    (∀ {Content Saved : Type} [Medium Content Unit Saved] {s t : Studio Content Unit Saved}
      {x : Surface Content Saved}, s.surfaces[target]? = some x →
      Studio.carryOut (.stamping target surface rounds) s = .ok () t →
      ∃ snaps content, s.Stamps target surface rounds snaps t ∧
        t.surfaces[target]? = some { x with content := content } ∧
        forM snaps Snapshot.place ((), x.content) = .ok () ((), content)) ∧
    ∃ (t t' : Studio Sheet Document Nat) (s s' : Studio Recording Unit Unit)
      (x z : Surface Sheet Nat) (y w : Surface Recording Unit) (items : List Item)
      (snaps : List (Snapshot Recording Unit)),
      Studio.run size metrics p = .ok t ∧ Studio.run size metrics p = .ok s ∧
      Studio.carryOut (.stamping target surface rounds) t = .ok () t' ∧
      s.Stamps target surface rounds snaps s' ∧
      t.surfaces[target]? = some x ∧ t.surfaces[surface]? = some z ∧
      s.surfaces[target]? = some y ∧ s'.surfaces[surface]? = some w ∧
      s'.surfaces[target]? =
        some { y with content := ⟨y.content.calls ++ snaps.map Snapshot.call⟩ } ∧
      t.shared.contents x.content.container = some items ∧
      t'.shared.contents x.content.container =
        some (items ++ List.replicate rounds.length (.group z.content.root)) ∧
      ∀ snap ∈ snaps, ∀ last ∈ snaps.getLast?, t'.shared.Shows z.content.root snap ↔
        point snap.corner = point last.corner ∧
          Call.drawnAll snap.held.content.calls = Call.drawnAll w.content.calls := by
  obtain ⟨hbefore, hpermits, -⟩ := Program.disciplined_append.1 hfirst
  obtain ⟨hall, -⟩ := Program.disciplined_append.1 hlast
  obtain ⟨-, hdrawing⟩ := Program.disciplined_append.1 hall
  have htarget : ∀ step ∈ Program.drawing surface rounds, step.2.placed? ≠ some target :=
    fun step hstep => Program.not_placed hlast step (List.mem_append_right p hstep)
  obtain ⟨-, hcount, hne, -⟩ := hpermits.places surface rfl
  refine ⟨fun hx h => ?_, ?_⟩
  · obtain ⟨snaps, hstamps⟩ := Studio.carryOut_stamping_iff.1 h
    obtain ⟨content, hcontent, hforM⟩ := hstamps.composites (Ne.symm hne) hx
    exact ⟨snaps, content, hstamps, hcontent, hforM⟩
  obtain ⟨t₀, s₀, ht₀, hs₀, hstart⟩ := agree_start hsize metrics
  obtain ⟨hwritten, hrest⟩ := Studio.writable_append (hwritable s₀ hs₀)
  obtain ⟨branch, t, s, ht, hs, hagree⟩ := hstart.carryOut_afterAll hbefore
    (fun step hstep => hcolors step (List.mem_append_left _ hstep)) hwritten
  obtain ⟨x, y, hx, hy, -⟩ := hagree.exists_twin hpermits.there
  obtain ⟨z, -, hz, -⟩ := hagree.exists_twin hcount
  obtain ⟨items, hitems⟩ := Option.isSome_iff_exists.1
    (hagree.forest.container_isSome (Agree.footing_eq hx))
  obtain ⟨snaps, t', s', ht', hstamps, hstamped⟩ :=
    (hagree.stamped hpermits hx hy hz hitems).run hdrawing htarget
      (fun step hstep => hcolors step (List.mem_append_right _ hstep)) (hrest s hs)
  rw [List.nil_append] at hstamped
  obtain ⟨w, hw⟩ := hstamped.exists_held
  refine ⟨t, t', s, s', x, z, y, w, items, snaps, ?_, ?_, ht', hstamps, hx, hz, hy, hw,
    hstamped.log, hitems, ?_, fun snap hsnap last hlast => ?_⟩
  · rw [Studio.run, ht₀, ok_bind, ht]
    rfl
  · rw [Studio.run, hs₀, ok_bind, hs]
    rfl
  · rw [hstamped.contents_container, hstamps.length_eq]
  · obtain ⟨w', hw', hheld, hcalls⟩ := hstamps.grows snap hsnap
    obtain rfl := Option.some.inj (hw.symm.trans hw')
    exact hstamped.shows_iff hw hlast hheld hcalls

/-- A surface with a small filled shape. -/
def badge : Program :=
  let shape : List (Vec Scalar) :=
    [⟨.whole 0, .whole 0⟩, ⟨.whole 1, .whole 0⟩, ⟨.whole 1, .whole 1⟩]
  [(0, .create (.whole 2) (.whole 2)), (1, .polyline shape true), (1, .fill .black (.whole 1))]

/-- A second place for it, after its outline was drawn as well. -/
def outlined : List Round :=
  [(⟨.whole 1, .whole 1⟩, [.stroke .white []]), (⟨.whole 2, .whole 2⟩, [])]

lemma writable_outlined (s : Studio Recording Unit Unit)
    (hs : Studio.start ⟨.whole 4, .whole 4⟩ { installed := .blocks [] } = .ok s) :
    Program.Writable s (badge ++ .stamping 0 1 outlined) := by
  cases hs
  have hshape : ∀ v ∈ [(⟨.whole 0, .whole 0⟩ : Vec Scalar), ⟨.whole 1, .whole 0⟩,
      ⟨.whole 1, .whole 1⟩], (Vec.origin : Vec Scalar).Reaches v := by
    simp only [List.forall_mem_cons]
    refine ⟨⟨_, rfl, ⟨_, rfl, rfl⟩, ⟨_, rfl, rfl⟩⟩, ⟨_, rfl, ⟨_, rfl, rfl⟩, ⟨_, rfl, rfl⟩⟩,
      ⟨_, rfl, ⟨_, rfl, rfl⟩, ⟨_, rfl, rfl⟩⟩, ?_⟩
    exact fun v hv => absurd hv List.not_mem_nil
  refine .cons rfl trivial rfl ?_
  refine .cons rfl hshape rfl ?_
  refine .cons rfl (fun _ => ⟨_, rfl⟩) rfl ?_
  refine .cons rfl ⟨⟨_, rfl, ⟨_, rfl, rfl⟩, ⟨_, rfl, rfl⟩⟩, fun y hy => ?_⟩ rfl ?_
  · cases hy
    exact ⟨⟨_, rfl⟩, ⟨_, rfl⟩⟩
  refine .cons rfl (fun _ a ha => absurd ha List.not_mem_nil) rfl ?_
  refine .cons rfl ⟨⟨_, rfl, ⟨_, rfl, rfl⟩, ⟨_, rfl, rfl⟩⟩, fun y hy => ?_⟩ rfl trivial
  cases hy
  exact ⟨⟨_, rfl⟩, ⟨_, rfl⟩⟩

lemma offset_badge {s : Studio Recording Unit Unit} {y : Surface Recording Unit}
    (hs : Studio.run ⟨.whole 4, .whole 4⟩ { installed := .blocks [] } badge = .ok s)
    (hy : s.surfaces[0]? = some y) : y.pen.offset = .origin := by
  cases hs
  cases hy
  rfl

theorem stamps_show_outlined :
    (∃ (s t : Studio Raster.Picture Unit (Option (Raster.Grid Raster.Level)))
      (snaps : List (Snapshot Raster.Picture (Option (Raster.Grid Raster.Level))))
      (x : Surface Raster.Picture (Option (Raster.Grid Raster.Level))) (content : Raster.Picture),
      Studio.run ⟨.whole 4, .whole 4⟩ { installed := .blocks [] } badge = .ok s ∧
      s.Stamps 0 1 outlined snaps t ∧ s.surfaces[0]? = some x ∧
      t.surfaces[0]? = some { x with content := content } ∧
      forM snaps Snapshot.place ((), x.content) = .ok () ((), content)) ∧
    ∃ (t t' : Studio Sheet Document Nat) (s s' : Studio Recording Unit Unit)
      (z : Surface Sheet Nat) (first last : Snapshot Recording Unit),
      Studio.run ⟨.whole 4, .whole 4⟩ { installed := .blocks [] } badge = .ok t ∧
      Studio.run ⟨.whole 4, .whole 4⟩ { installed := .blocks [] } badge = .ok s ∧
      Studio.carryOut (.stamping 0 1 outlined) t = .ok () t' ∧
      s.Stamps 0 1 outlined [first, last] s' ∧ t.surfaces[1]? = some z ∧
      ¬ t'.shared.Shows z.content.root first ∧ t'.shared.Shows z.content.root last := by
  have hfirst : Program.Disciplined { count := 1 } (badge ++ [(0, .place 1 .origin)]) := by
    simp only [badge, List.cons_append, List.nil_append, Program.Disciplined, Roster.after, and_true]
    refine ⟨?_, ?_, ?_, ?_⟩ <;> exact ⟨by decide, by decide, by simp [Command.placed?]⟩
  have hlast : Program.Disciplined { count := 1 }
      (badge ++ .drawing 1 outlined ++ [(0, .place 1 .origin)]) := by
    simp only [badge, outlined, Program.drawing, Program.on, List.map_cons, List.map_nil,
      List.cons_append, List.nil_append, Program.Disciplined, Roster.after, and_true]
    refine ⟨?_, ?_, ?_, ?_, ?_⟩ <;> exact ⟨by decide, by decide, by simp [Command.placed?]⟩
  have hcolors : Program.ColorsInRange (badge ++ .drawing 1 outlined) := by
    unfold Program.ColorsInRange
    decide +kernel
  obtain ⟨hcopies, t, t', s, s', x, z, y, w, items, snaps, ht, hs, ht', hstamps, hx, hz, hy, hw,
    -, -, -, hshows⟩ :=
    stamps_show_iff ⟨⟨_, rfl, rfl⟩, ⟨_, rfl, rfl⟩⟩ hfirst hlast hcolors writable_outlined
  refine ⟨?_, ?_⟩
  · obtain ⟨s, hs⟩ : ∃ s : Studio Raster.Picture Unit (Option (Raster.Grid Raster.Level)),
        Studio.run ⟨.whole 4, .whole 4⟩ { installed := .blocks [] } badge = .ok s := ⟨_, rfl⟩
    obtain ⟨x, hx⟩ : ∃ x, s.surfaces[0]? = some x := by
      cases hs
      exact ⟨_, rfl⟩
    have hend : succeeds (Studio.carryOut (.stamping 0 1 outlined) s) = true := by
      cases hs
      decide +kernel
    obtain ⟨t, ht⟩ := exists_ok_of_succeeds hend
    obtain ⟨snaps, content, hstamps, hcontent, hforM⟩ := hcopies hx ht
    exact ⟨s, t, snaps, x, content, hs, hstamps, hx, hcontent, hforM⟩
  · have hcorners := hstamps.corners (by decide) hy (offset_badge hs hy)
    have hrounds := hstamps
    unfold outlined at hrounds
    obtain - | ⟨-, hfirst, -, -, -, hrest⟩ := hrounds
    obtain - | ⟨-, hheld, -, hplace, hdraw, hdone⟩ := hrest
    cases hdone
    cases hdraw
    -- nothing is drawn after the second placing, so the surface is still what was placed
    obtain rfl := Option.some.inj (hw.symm.trans (Studio.perform_other hplace (by decide) hheld))
    obtain - | ⟨hcorner, - | ⟨hcorner', -⟩⟩ := hcorners
    have hadd : Vec.origin.add (⟨.whole 1, .whole 1⟩ : Vec Scalar) = .ok ⟨.whole 1, .whole 1⟩ := rfl
    have hadd' : Vec.origin.add (⟨.whole 2, .whole 2⟩ : Vec Scalar) = .ok ⟨.whole 2, .whole 2⟩ := rfl
    obtain rfl := Except.ok.inj (hadd.symm.trans hcorner)
    obtain rfl := Except.ok.inj (hadd'.symm.trans hcorner')
    have hapart : (point (⟨.whole 1, .whole 1⟩ : Vec Scalar)).toOption ≠
        (point (⟨.whole 2, .whole 2⟩ : Vec Scalar)).toOption := by decide +kernel
    refine ⟨t, t', s, s', z, _, _, ht, hs, ht', hstamps, hz, ?_, ?_⟩
    · rw [hshows _ (by simp) _ rfl]
      exact fun h => hapart (congrArg Except.toOption h.1)
    · exact (hshows _ (by simp) _ rfl).2 ⟨rfl, rfl⟩

/-- Two places for a surface that is not drawn on any more. -/
def moved : List Round := [(⟨.whole 1, .whole 1⟩, []), (⟨.whole 2, .whole 2⟩, [])]

/-- A surface that is placed twice is taken away from its first place. -/
theorem stamps_moved :
    ∃ (t t' : Studio Sheet Document Nat) (s s' : Studio Recording Unit Unit)
      (z : Surface Sheet Nat) (snaps : List (Snapshot Recording Unit)),
      Studio.run ⟨.whole 4, .whole 4⟩ { installed := .blocks [] } badge = .ok t ∧
      Studio.run ⟨.whole 4, .whole 4⟩ { installed := .blocks [] } badge = .ok s ∧
      Studio.carryOut (.stamping 0 1 moved) t = .ok () t' ∧ s.Stamps 0 1 moved snaps s' ∧
      t.surfaces[1]? = some z ∧ ¬ ∀ snap ∈ snaps, t'.shared.Shows z.content.root snap := by
  obtain ⟨t, ht⟩ : ∃ t : Studio Sheet Document Nat,
      Studio.run ⟨.whole 4, .whole 4⟩ { installed := .blocks [] } badge = .ok t := ⟨_, rfl⟩
  obtain ⟨s, hs⟩ : ∃ s : Studio Recording Unit Unit,
      Studio.run ⟨.whole 4, .whole 4⟩ { installed := .blocks [] } badge = .ok s := ⟨_, rfl⟩
  obtain ⟨z, t', hz, hroot, ht', hshift⟩ : ∃ z t', t.surfaces[1]? = some z ∧ z.content.root = 1 ∧
      Studio.carryOut (.stamping 0 1 moved) t = .ok () t' ∧
      (t'.shared.groups[1]?.bind Group.shift).map (fun v => (point v).toOption) =
        some (some "2,2".toList) := by
    cases ht
    exact ⟨_, _, rfl, rfl, rfl, by decide +kernel⟩
  obtain ⟨y, s', hy, hs'⟩ : ∃ y s', s.surfaces[0]? = some y ∧
      Studio.carryOut (.stamping 0 1 moved) s = .ok () s' := by
    cases hs
    exact ⟨_, _, rfl, rfl⟩
  obtain ⟨snaps, hstamps⟩ := Studio.carryOut_stamping_iff.1 hs'
  refine ⟨t, t', s, s', z, snaps, ht, hs, ht', hstamps, hz, fun hshows => ?_⟩
  obtain - | ⟨hcorner, -⟩ := hstamps.corners (by decide) hy (offset_badge hs hy)
  obtain ⟨corner, -, ⟨g, name, hg, hshown, -⟩, hsame, -⟩ := hshows _ List.mem_cons_self
  have hadd : Vec.origin.add (⟨.whole 1, .whole 1⟩ : Vec Scalar) = .ok ⟨.whole 1, .whole 1⟩ := rfl
  have hfirst := Except.ok.inj (hcorner.symm.trans hadd)
  rw [hroot] at hg
  rw [hg, Option.bind_some, hshown, Option.map_some, hsame, hfirst] at hshift
  exact absurd hshift (by decide +kernel)

end Svg

end UmlDrawing
