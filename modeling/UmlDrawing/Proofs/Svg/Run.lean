import UmlDrawing.Font.Block
import UmlDrawing.Proofs.Svg.Agreement
import UmlDrawing.Proofs.Svg.Drawables

/-! A program that is run on vector graphics and on a recording draws the same to both, in the same
order. -/
open UmlDrawing.Action

namespace UmlDrawing.Svg

variable {size : Vec Scalar} {metrics : Metrics} {p : Program}

lemma start_apply (h : size.Measurable) : Sheet.start size = .ok { size := size } := by
  obtain ⟨w, hw, hwm⟩ := number_of_measurable h.1
  obtain ⟨l, hl, hlm⟩ := number_of_measurable h.2
  simp only [Sheet.start, hw, hl, ok_bind, measured_of_isMeasure hwm, measured_of_isMeasure hlm]
  rfl

/-- The branch of the surface that a drawing starts from. -/
def firstBranch : Branch := { spine := [0], drawn := [], closed := [] }

/-- The document of a drawing starts with one group, to which its surface draws. -/
lemma forest_start (size : Vec Scalar) :
    Forest ({ size := size } : Document).contents [⟨0, 0, []⟩] [] fun _ => firstBranch where
  bears {i f} hf hi := by
    obtain ⟨-, rfl⟩ := getElem?_singleton_eq_some hf
    exact ⟨.tip rfl .nil, List.nodup_singleton 0, rfl, rfl, trivial⟩
  apart {i j f g} hf hg _ _ hne := by
    obtain ⟨rfl, -⟩ := getElem?_singleton_eq_some hf
    obtain ⟨rfl, -⟩ := getElem?_singleton_eq_some hg
    exact absurd rfl hne
  known _ hi := by cases hi
  sealed _ _ hi := by cases hi

/-- Both sides start with one surface and nothing drawn. -/
lemma agree_start (h : size.Measurable) (metrics : Metrics) :
    ∃ t s, Studio.start size metrics = .ok t ∧ Studio.start size metrics = .ok s ∧
      Agree { count := 1 } (fun _ => firstBranch) t s := by
  have ht : (Studio.start size metrics : Except Fault (Studio Sheet Document Nat)) = .ok {
      shared := { size := size }
      surfaces := [{ size := size, content := ⟨0, 0⟩ }]
      metrics := metrics } := by
    have hroot : (Medium.root size : Except Fault (Canvas Sheet Document)) =
        .ok ({ size := size }, ⟨0, 0⟩) := by
      change (Sheet.start size >>= _) = _
      rw [start_apply h]
      rfl
    rw [Studio.start, hroot]
    rfl
  refine ⟨_, _, ht, rfl, ?_⟩
  constructor
  case started => exact Nat.one_pos
  case count => rfl
  case length => rfl
  case twin =>
    intro i x y hx hy
    obtain ⟨-, rfl⟩ := getElem?_singleton_eq_some hx
    obtain ⟨-, rfl⟩ := getElem?_singleton_eq_some hy
    exact ⟨rfl, rfl, rfl, Pen.writable_initial⟩
  case root =>
    intro x hx
    obtain ⟨-, rfl⟩ := getElem?_singleton_eq_some hx
    rfl
  case unplaced => exact List.not_mem_nil
  case there => exact fun i hi => absurd hi List.not_mem_nil
  case forest => exact forest_start size
  case drawn =>
    intro i y hy _
    obtain ⟨-, rfl⟩ := getElem?_singleton_eq_some hy
    exact .nil

/-- After the same commands a document draws what was recorded for the first surface. -/
lemma Agree.drawables {r : Roster} {branch : Nat → Branch} {t : Studio Sheet Document Nat}
    {s : Studio Recording Unit Unit} (h : Agree r branch t s) :
    ∃ y ds, s.surfaces[0]? = some y ∧ t.shared.drawables = .ok ds ∧
      List.Forall₂ Matches ds (Call.drawnAll y.content.calls) := by
  obtain ⟨x, y, hx, hy, -⟩ := h.exists_twin h.started
  have hbears := h.forest.bears (footing_eq hx) h.unplaced
  have hroot := hbears.root
  rw [footing, h.root hx] at hroot
  obtain ⟨ns, hlists, hperm⟩ := hbears.spine.lists hroot
  have hnodup : ns.Nodup := hperm.nodup_iff.2 hbears.nodup
  exact ⟨y, _, hy, drawables_of_lists hlists hnodup, h.drawn hy h.unplaced⟩

/-- A program draws the same to vector graphics and to a recording: the paths and texts of the
document are, one after the other, those of the calls that were recorded, the calls of surfaces that
were placed in their stead and those without path or text left out. They are what the document is
written with. -/
theorem run_matches (hsize : size.Measurable) (hdisciplined : p.Disciplined { count := 1 })
    (hcolors : p.ColorsInRange)
    (hwritable : ∀ s : Studio Recording Unit Unit,
      Studio.start size metrics = .ok s → p.Writable s) :
    ∃ (t : Studio Sheet Document Nat) (s : Studio Recording Unit Unit)
      (y : Surface Recording Unit) (ds : List Item),
      Studio.run size metrics p = .ok t ∧ Studio.run size metrics p = .ok s ∧
      s.surfaces[0]? = some y ∧ t.shared.drawables = .ok ds ∧
      List.Forall₂ Matches ds (Call.drawnAll y.content.calls) ∧
      ∀ tree, t.shared.node = .ok tree → List.Forall₂ Prints ds tree.drawn := by
  obtain ⟨t, s, ht, hs, hagree⟩ := agree_start hsize metrics
  obtain ⟨r, branch, t', s', ht', hs', hagree'⟩ :=
    hagree.carryOut hdisciplined hcolors (hwritable s hs)
  obtain ⟨y, ds, hy, hds, hmatches⟩ := hagree'.drawables
  refine ⟨t', s', y, ds, ?_, ?_, hy, hds, hmatches, fun tree htree => ?_⟩
  · rw [Studio.run, ht, ok_bind, ht']
    rfl
  · rw [Studio.run, hs, ok_bind, hs']
    rfl
  · obtain ⟨ds', hds', hprints⟩ := drawables_of_node htree
    obtain rfl := Except.ok.inj (hds.symm.trans hds')
    exact hprints

/-- A clipped path, a line on a surface that is placed, and a text. -/
def sample : Program :=
  let line : List (Vec Scalar) := [⟨.whole 1, .whole 2⟩, ⟨.whole 3, .whole 4⟩]
  [(0, .pushState), (0, .polyline line false), (0, .clip), (0, .fill .black (.whole 1)),
    (0, .popState), (0, .create (.whole 9) (.whole 9)), (1, .polyline line true),
    (1, .stroke .white []), (0, .place 1 ⟨.whole 5, .whole 5⟩),
    (0, .text ['A'] ⟨.whole 0, .whole 0⟩ { family := "serif".toList, size := .whole 14 } .black)]

lemma writable_sample (s : Studio Recording Unit Unit)
    (hs : Studio.start ⟨.whole 40, .whole 30⟩ { installed := .blocks [] } = .ok s) : sample.Writable s := by
  cases hs
  have hline : ∀ v ∈ [(⟨.whole 1, .whole 2⟩ : Vec Scalar), ⟨.whole 3, .whole 4⟩],
      (Vec.origin : Vec Scalar).Reaches v := by
    simp only [List.forall_mem_cons]
    refine ⟨⟨_, rfl, ⟨_, rfl, rfl⟩, ⟨_, rfl, rfl⟩⟩, ⟨_, rfl, ⟨_, rfl, rfl⟩, ⟨_, rfl, rfl⟩⟩, ?_⟩
    exact fun v hv => absurd hv List.not_mem_nil
  refine .cons rfl trivial rfl ?_
  refine .cons rfl hline rfl ?_
  refine .cons rfl trivial rfl ?_
  refine .cons rfl (fun _ => ⟨_, rfl⟩) rfl ?_
  refine .cons rfl trivial rfl ?_
  refine .cons rfl trivial rfl ?_
  refine .cons rfl hline rfl ?_
  refine .cons rfl (fun _ a ha => absurd ha List.not_mem_nil) rfl ?_
  refine .cons rfl ⟨⟨_, rfl, ⟨_, rfl, rfl⟩, ⟨_, rfl, rfl⟩⟩, fun y hy => ?_⟩ rfl ?_
  · cases hy
    exact ⟨⟨_, rfl⟩, ⟨_, rfl⟩⟩
  · refine .cons rfl ⟨_, rfl, fun _ => ⟨?_, ⟨_, rfl, rfl⟩, by decide⟩⟩ rfl trivial
    exact ⟨⟨_, rfl, rfl⟩, ⟨_, rfl, rfl⟩⟩

lemma length_drawn_sample :
    (Studio.run ⟨.whole 40, .whole 30⟩ { installed := .blocks [] } sample :
      Except Fault (Studio Recording Unit Unit)).toOption.map
        (fun s => s.surfaces.map fun y => (Call.drawnAll y.content.calls).length) =
          some [3, 1] := by
  decide +kernel

theorem run_matches_sample :
    ∃ (t : Studio Sheet Document Nat) (s : Studio Recording Unit Unit)
      (y : Surface Recording Unit) (ds : List Item),
      Studio.run ⟨.whole 40, .whole 30⟩ { installed := .blocks [] } sample = .ok t ∧
      Studio.run ⟨.whole 40, .whole 30⟩ { installed := .blocks [] } sample = .ok s ∧
      s.surfaces[0]? = some y ∧ t.shared.drawables = .ok ds ∧
      List.Forall₂ Matches ds (Call.drawnAll y.content.calls) ∧ ds.length = 3 := by
  have hdisciplined : sample.Disciplined { count := 1 } := by
    simp only [sample, Program.Disciplined, Roster.after, and_true]
    refine ⟨?_, ?_, ?_, ?_, ?_, ?_, ?_, ?_, ?_, ?_⟩ <;>
      exact ⟨by decide, by decide, by simp [Command.placed?]⟩
  have hcolors : sample.ColorsInRange := by
    unfold Program.ColorsInRange
    decide +kernel
  obtain ⟨t, s, y, ds, ht, hs, hy, hds, hmatches, -⟩ :=
    run_matches ⟨⟨_, rfl, rfl⟩, ⟨_, rfl, rfl⟩⟩ hdisciplined hcolors writable_sample
  have hcount := length_drawn_sample
  rw [hs] at hcount
  have hlength := congrArg (·[0]?) (Option.some.inj hcount)
  simp only [List.getElem?_map, hy] at hlength
  refine ⟨t, s, y, ds, ht, hs, hy, hds, hmatches, ?_⟩
  exact hmatches.length_eq.trans (Option.some.inj hlength)

/-- A text in a font without a name. -/
def nameless : Program :=
  [(0, .text ['A'] ⟨.whole 0, .whole 0⟩ { family := [], size := .whole 14 } .black)]

/-- A text can be recorded in a font without a name, but it cannot be written in one. -/
theorem run_nameless :
    nameless.Disciplined { count := 1 } ∧ nameless.ColorsInRange ∧
      (Studio.run ⟨.whole 40, .whole 30⟩ { installed := .blocks [] } nameless :
        Except Fault (Studio Sheet Document Nat)) = .error (.attributeValue []) ∧
      (Studio.run ⟨.whole 40, .whole 30⟩ { installed := .blocks [] } nameless :
        Except Fault (Studio Recording Unit Unit)).toOption.map
          (fun s => s.surfaces.map fun y => (Call.drawnAll y.content.calls).length) =
            some [1] := by
  refine ⟨?_, ?_, ?_, ?_⟩
  · simp only [nameless, Program.Disciplined, and_true]
    exact ⟨by decide, by decide, by simp [Command.placed?]⟩
  · unfold Program.ColorsInRange
    decide +kernel
  · rfl
  · decide +kernel

end UmlDrawing.Svg
