import UmlDrawing.Proofs.Surface.Alongside
import UmlDrawing.Proofs.Svg.ClipNames
import UmlDrawing.Proofs.Svg.Sheet

/-! Documents with copies of a group. The copies of a surface are links to the one group that it is
drawn to, at the end of the group they are in, so they all have the frame and the items of that
group. -/
open UmlDrawing.Action

namespace UmlDrawing.Svg

namespace Document

variable {d e : Document} {n k : Nat} {corner size : Vec Scalar}

/-- A group is moved to a corner and clipped to a box. -/
def Frames (d : Document) (n : Nat) (corner size : Vec Scalar) : Prop :=
  ∃ g name, d.groups[n]? = some g ∧ g.shift = some corner ∧ g.clip = some name ∧
    (⟨name, some (.box size)⟩ : ClipPath) ∈ d.clips

lemma frames_framed (hn : n < d.groups.length) (corner size : Vec Scalar) :
    (d.framed n corner size).Frames n corner size := by
  refine ⟨{ d.groups[n] with shift := some corner, clip := some (.surface d.next) },
    .surface d.next, ?_, rfl, rfl, List.mem_append_right _ (List.mem_singleton_self _)⟩
  have hg : (d.takeNumber.addClip ⟨.surface d.next, some (.box size)⟩).groups[n]? =
      some d.groups[n] := List.getElem?_eq_getElem hn
  simp only [framed, modifyGroup, List.getElem?_modify, hg, if_true]
  rfl

namespace Frames

lemma addClip (h : d.Frames n corner size) (c : ClipPath) :
    (d.takeNumber.addClip c).Frames n corner size := by
  obtain ⟨g, name, hg, hshift, hclip, hmem⟩ := h
  exact ⟨g, name, hg, hshift, hclip, List.mem_append_left _ hmem⟩

lemma addGroup (h : d.Frames n corner size) (g : Group) : (d.addGroup g).Frames n corner size := by
  obtain ⟨g', name, hg', hshift, hclip, hmem⟩ := h
  obtain ⟨hlt, -⟩ := List.getElem?_eq_some_iff.1 hg'
  exact ⟨g', name, (List.getElem?_append_left hlt).trans hg', hshift, hclip, hmem⟩

lemma modifyGroup (h : d.Frames n corner size) {change : Group → Group}
    (hchange : k = n → ∀ g, (change g).shift = g.shift ∧ (change g).clip = g.clip) :
    (d.modifyGroup k change).Frames n corner size := by
  obtain ⟨g, name, hg, hshift, hclip, hmem⟩ := h
  by_cases hk : k = n
  · refine ⟨change g, name, ?_, ?_, ?_, hmem⟩
    · simp only [Document.modifyGroup, List.getElem?_modify, hg, hk, if_true]
      rfl
    · rw [(hchange hk g).1, hshift]
    · rw [(hchange hk g).2, hclip]
  · refine ⟨g, name, ?_, hshift, hclip, hmem⟩
    simp only [Document.modifyGroup, List.getElem?_modify, hg, hk, if_false]
    rfl

lemma append (h : d.Frames n corner size) (k : Nat) (item : Item) :
    (d.append k item).Frames n corner size :=
  h.modifyGroup fun _ _ => ⟨rfl, rfl⟩

end Frames

end Document

/-- A place for copies: the group that they are in with the items that come before them, and the
group of the surface they are copies of, with its size. -/
structure Slot where
  container : Nat
  items : List Item
  root : Nat
  size : Vec Scalar

/-- A document, and the same one with copies that were made at some corners. The group they are
copies of has the frame that was made last. -/
structure Copied (slot : Slot) (corners : List (Vec Scalar)) (d e : Document) : Prop where
  length : e.groups.length = d.groups.length
  before : d.contents slot.container = some slot.items
  copies : e.contents slot.container =
    some (slot.items ++ List.replicate corners.length (.group slot.root))
  others {n : Nat} (hn : n ≠ slot.container) : e.contents n = d.contents n
  frames : ∀ corner ∈ corners.getLast?, e.Frames slot.root corner slot.size

namespace Copied

variable {slot : Slot} {corners : List (Vec Scalar)} {d e : Document} {k : Nat}

lemma refl (h : d.contents slot.container = some slot.items) : Copied slot [] d d where
  length := rfl
  before := h
  copies := by rw [h, List.length_nil, List.replicate_zero, List.append_nil]
  others _ := rfl
  frames _ hcorner := by cases hcorner

lemma lt_length (h : Copied slot corners d e) : slot.container < d.groups.length :=
  Document.lt_of_contents_isSome (by rw [h.before, Option.isSome_some])

lemma append (h : Copied slot corners d e) (hk : k ≠ slot.container) (item : Item) :
    Copied slot corners (d.append k item) (e.append k item) where
  length := by
    rw [Document.append, Document.append, Document.length_groups_modifyGroup,
      Document.length_groups_modifyGroup, h.length]
  before := by rw [Document.contents_append, if_neg hk, h.before]
  copies := by rw [Document.contents_append, if_neg hk, h.copies]
  others {n} hn := by rw [Document.contents_append, Document.contents_append, h.others hn]
  frames corner hcorner := (h.frames corner hcorner).append k item

lemma addClip (h : Copied slot corners d e) (c c' : ClipPath) :
    Copied slot corners (d.takeNumber.addClip c) (e.takeNumber.addClip c') where
  length := h.length
  before := h.before
  copies := h.copies
  others hn := h.others hn
  frames corner hcorner := (h.frames corner hcorner).addClip c'

lemma addGroup (h : Copied slot corners d e) (g g' : Group) (hitems : g'.items = g.items) :
    Copied slot corners (d.addGroup g) (e.addGroup g') where
  length := by simp only [Document.addGroup, List.length_append, h.length, List.length_singleton]
  before := by rw [Document.contents_addGroup, if_neg (Nat.ne_of_lt h.lt_length), h.before]
  copies := by
    rw [Document.contents_addGroup, h.length, if_neg (Nat.ne_of_lt h.lt_length), h.copies]
  others {n} hn := by
    rw [Document.contents_addGroup, Document.contents_addGroup, h.length, h.others hn, hitems]
  frames corner hcorner := (h.frames corner hcorner).addGroup g'

lemma modifyGroup (h : Copied slot corners d e) (hk : k ≠ slot.root) {f g : Group → Group}
    (hf : ∀ x, (f x).items = x.items) (hg : ∀ x, (g x).items = x.items) :
    Copied slot corners (d.modifyGroup k f) (e.modifyGroup k g) where
  length := by
    rw [Document.length_groups_modifyGroup, Document.length_groups_modifyGroup, h.length]
  before := by rw [Document.contents_modifyGroup d k hf, h.before]
  copies := by rw [Document.contents_modifyGroup e k hg, h.copies]
  others hn := by
    rw [Document.contents_modifyGroup d k hf, Document.contents_modifyGroup e k hg, h.others hn]
  frames corner hcorner := (h.frames corner hcorner).modifyGroup fun hroot => absurd hroot hk

/-- One more copy. -/
theorem place (h : Copied slot corners d e) (hroot : slot.root < d.groups.length)
    (corner : Vec Scalar) :
    Copied slot (corners ++ [corner]) d
      ((e.framed slot.root corner slot.size).append slot.container (.group slot.root)) where
  length := by
    rw [Document.append, Document.length_groups_modifyGroup, Document.framed,
      Document.length_groups_modifyGroup]
    exact h.length
  before := h.before
  copies := by
    rw [Document.contents_append, if_pos rfl, Document.contents_framed, h.copies, Option.map_some,
      List.length_append, List.length_singleton, List.replicate_succ', List.append_assoc]
  others hn := by
    rw [Document.contents_append, if_neg (Ne.symm hn), Document.contents_framed, h.others hn]
  frames c hc := by
    rw [List.getLast?_concat] at hc
    obtain rfl := Option.some.inj hc
    exact (Document.frames_framed (h.length ▸ hroot) corner slot.size).append slot.container _

/-- What is drawn to another group. -/
lemma carried_append {s : Sheet} (hs : s.container ≠ slot.container) (item : Item) :
    Carried (Copied slot corners) (Sheet.append item) s := by
  intro p q a h ha
  cases ha
  exact ⟨_, rfl, h.append hs item, rfl⟩

/-- Drawing to groups other than the one with the copies, and placing other groups than the copied
one, goes the same way in both documents. -/
theorem carries : Carries (Copied slot corners) (fun s : Sheet => s.container ≠ slot.container)
    fun s => s.root ≠ slot.root where
  create box {p q} h {a} ha := by
    cases ha
    exact ⟨_, rfl, h.addGroup {} {} rfl, by rw [h.length]⟩
  fill path color alpha {s} hs := by
    refine carried_ofExcept_bind fun drawable => ?_
    cases drawable with
    | false => exact carried_pure
    | true =>
      refine carried_ofExcept_bind fun ink => ?_
      refine carried_ofExcept_bind fun opacity => ?_
      exact carried_ofExcept_bind fun _ => carried_append hs _
  stroke path color dash {s} hs := by
    refine carried_ofExcept_bind fun drawable => ?_
    cases drawable with
    | false => exact carried_pure
    | true =>
      refine carried_ofExcept_bind fun ink => ?_
      refine carried_ofExcept_bind fun _ => ?_
      exact carried_ofExcept_bind fun _ => carried_append hs _
  clip path {s} hs p q a h ha := by
    obtain ⟨t, ht⟩ := Sheet.exists_clip_iff.1 ⟨a, ha⟩
    have hp := Sheet.clip_ok ht p s
    obtain rfl : a = _ := by
      have heq := ha.symm.trans hp
      cases heq
      rfl
    refine ⟨_, Sheet.clip_ok ht q s, ?_, by rw [h.length]⟩
    have hdefined := h.addClip ⟨.region p.next, some (.path path)⟩
      ⟨.region q.next, some (.path path)⟩
    have hopened := (hdefined.addGroup { clip := some (.region p.next) }
      { clip := some (.region q.next) } rfl).append hs (.group p.groups.length)
    rw [Document.opened, Document.opened, h.length]
    exact hopened
  text text position _ style color {s} hs := by
    change Carried _ (Sheet.text text position style color) s
    unfold Sheet.text
    split
    · exact carried_pure
    · exact carried_ofExcept_bind fun item => carried_append hs item
  place box {placed} hplaced position {s} hs p q a h ha := by
    change ∃ b, Sheet.place box placed position (q, s) = .ok () b ∧ _
    change Sheet.place box placed position (p, s) = _ at ha
    simp only [Sheet.place] at ha ⊢
    cases hbox : Sheet.boxSize box with
    | error fault => simp [hbox] at ha
    | ok box =>
      simp only [hbox] at ha ⊢
      cases hmovable : Sheet.movable placed position with
      | error fault => simp [hmovable] at ha
      | ok _ =>
        simp only [hmovable] at ha ⊢
        cases ha
        have hdefined := h.addClip ⟨.surface p.next, some (.box box)⟩
          ⟨.surface q.next, some (.box box)⟩
        refine ⟨_, rfl, (hdefined.modifyGroup hplaced ?_ ?_).append hs _, rfl⟩
        · exact fun _ => rfl
        · exact fun _ => rfl

end Copied

end UmlDrawing.Svg
