import UmlDrawing.Proofs.Svg.Listing
import UmlDrawing.Proofs.Svg.Written
import UmlDrawing.Proofs.Surface.Action

/-! What the operations of a sheet do to the groups of a document, as long as all they are given can
be written. -/
open UmlDrawing.Action

namespace UmlDrawing.Svg

namespace Document

/-- The items of the groups of a document. -/
def contents (d : Document) : Contents := fun n => d.groups[n]?.map Group.items

variable {d : Document} {n k : Nat}

@[simp] lemma contents_takeNumber (d : Document) : d.takeNumber.contents = d.contents := rfl

@[simp] lemma contents_addClip (d : Document) (c : ClipPath) :
    (d.addClip c).contents = d.contents := rfl

lemma contents_addGroup (d : Document) (g : Group) (n : Nat) :
    (d.addGroup g).contents n = if n = d.groups.length then some g.items else d.contents n := by
  simp only [contents, addGroup]
  split
  · next h => rw [h, List.getElem?_concat_length, Option.map_some]
  · next h =>
    by_cases hlt : n < d.groups.length
    · rw [List.getElem?_append_left hlt]
    · rw [List.getElem?_eq_none (by simp; omega), List.getElem?_eq_none (by omega)]

lemma contents_modifyGroup (d : Document) (k : Nat) {change : Group → Group}
    (h : ∀ g, (change g).items = g.items) : (d.modifyGroup k change).contents = d.contents := by
  funext n
  simp only [contents, modifyGroup, List.getElem?_modify, Option.map_eq_map, Option.map_map]
  congr 1
  funext g
  simp only [Function.comp]
  split
  · exact h g
  · rfl

/-- A document with a group moved to a corner and clipped to a box. -/
def framed (d : Document) (k : Nat) (corner size : Vec Scalar) : Document :=
  (d.takeNumber.addClip ⟨.surface d.next, some (.box size)⟩).modifyGroup k fun g =>
    { g with shift := some corner, clip := some (.surface d.next) }

lemma contents_framed (d : Document) (k : Nat) (corner size : Vec Scalar) :
    (d.framed k corner size).contents = d.contents :=
  contents_modifyGroup _ k fun _ => rfl

lemma contents_length (d : Document) : d.contents d.groups.length = none := by
  rw [contents, List.getElem?_eq_none (Nat.le_refl _), Option.map_none]

lemma lt_of_contents_isSome (h : (d.contents n).isSome) : n < d.groups.length := by
  rw [contents, Option.isSome_map] at h
  obtain ⟨g, hg⟩ := Option.isSome_iff_exists.1 h
  exact (List.getElem?_eq_some_iff.1 hg).1

lemma contents_append (d : Document) (k : Nat) (item : Item) (n : Nat) :
    (d.append k item).contents n =
      if k = n then (d.contents n).map (· ++ [item]) else d.contents n := by
  simp only [contents, append, modifyGroup, List.getElem?_modify, Option.map_eq_map,
    Option.map_map]
  split
  · rfl
  · congr 1

/-- An item is added to the end of a group. -/
lemma grows_append (d : Document) (k : Nat) (item : Item) :
    Grows d.contents (d.append k item).contents k item where
  at_end h := by
    rw [contents_append, if_pos rfl, h, Option.map_some]
  same _ hne := by
    rw [contents_append, if_neg (Ne.symm hne)]

/-- A new group is added to the end of a group. -/
lemma grows_addGroup (d : Document) (g : Group) (k : Nat) :
    Grows d.contents ((d.addGroup g).append k (.group d.groups.length)).contents k
      (.group d.groups.length) where
  at_end {inner} h := by
    have hsome : (d.contents k).isSome := by rw [h, Option.isSome_some]
    have hlt := lt_of_contents_isSome hsome
    rw [contents_append, if_pos rfl, contents_addGroup, if_neg (Nat.ne_of_lt hlt), h,
      Option.map_some]
  same {n} hsome hne := by
    have hlt := lt_of_contents_isSome hsome
    rw [contents_append, if_neg (Ne.symm hne), contents_addGroup, if_neg (Nat.ne_of_lt hlt)]

lemma contents_addGroup_append (d : Document) (g : Group) (item : Item)
    (hk : k ≠ d.groups.length) :
    ((d.addGroup g).append k item).contents d.groups.length = some g.items := by
  rw [contents_append, if_neg hk, contents_addGroup, if_pos rfl]

end Document

namespace Sheet

variable {d : Document} {s : Sheet} {path : List (Subpath Scalar)} {color : Color} {ink : Text}

lemma fill_nil (color : Color) (alpha : Scalar) (canvas : Canvas Sheet Document) :
    fill [] color alpha canvas = .ok () canvas :=
  rfl

lemma stroke_nil (color : Color) (dash : List Scalar) (canvas : Canvas Sheet Document) :
    stroke [] color dash canvas = .ok () canvas :=
  rfl

lemma drawable_of_writable (hpath : ∀ s ∈ path, s.Writable) (hne : path ≠ []) :
    drawable path = .ok true := by
  obtain ⟨t, ht, hempty⟩ := pathData_of_writable hpath
  have hdata : t ≠ [] := fun h => hne (hempty.1 h)
  simp only [drawable, ht]
  cases t with
  | nil => exact absurd rfl hdata
  | cons c t => rfl

/-- A path that can be written is filled as one item. -/
lemma fill_apply (hpath : ∀ s ∈ path, s.Writable) (hne : path ≠ []) {alpha opacity : Scalar}
    (hink : color.fullText = .ok ink) (hopacity : Scalar.mul color.a alpha = .ok opacity)
    (hdouble : opacity.HasDouble) :
    fill path color alpha (d, s) =
      .ok () (d.append s.container (.path path (.fill ink opacity)), s) := by
  obtain ⟨t, ht⟩ := number_of_hasDouble hdouble
  simp only [fill, drawable_of_writable hpath hne, ofExcept_ok_bind, if_true, hink, hopacity, ht]
  rfl

/-- A path that can be written is stroked as one item. -/
lemma stroke_apply (hpath : ∀ s ∈ path, s.Writable) (hne : path ≠ []) {dash : List Scalar}
    (hink : color.fullText = .ok ink) (hcolor : color.a.HasDouble)
    (hdash : ∀ a ∈ dash, a.HasDouble) :
    stroke path color dash (d, s) =
      .ok () (d.append s.container (.path path (.stroke ink (lineOpacity color) dash)), s) := by
  have hopacity : ∃ ts, (lineOpacity color).toList.mapM number = .ok ts := by
    refine exists_mapM fun a ha => number_of_hasDouble ?_
    unfold lineOpacity at ha
    split at ha
    · obtain rfl := List.mem_singleton.1 ha
      exact hcolor
    · cases ha
  obtain ⟨us, hus⟩ := hopacity
  obtain ⟨ts, hts⟩ : ∃ ts, dash.mapM number = .ok ts :=
    exists_mapM fun a ha => number_of_hasDouble (hdash a ha)
  simp only [stroke, drawable_of_writable hpath hne, ofExcept_ok_bind, if_true, hink, hus, hts]
  rfl

/-- A clip opens a group. -/
lemma clip_apply (hpath : ∀ s ∈ path, s.Writable) :
    clip path (d, s) =
      .ok () ((((d.takeNumber.addClip ⟨.region d.next, some (.path path)⟩).addGroup
          { clip := some (.region d.next) }).append s.container (.group d.groups.length)),
        { s with container := d.groups.length }) := by
  obtain ⟨t, ht, -⟩ := pathData_of_writable hpath
  simp only [clip, ht]
  rfl

/-- A text that can be written is one item. -/
lemma text_apply {t : Text} (ht : t ≠ []) {position : Vec Scalar} (hposition : position.Measurable)
    {font : FontStyle Scalar} (hsize : font.size.Measurable)
    (hfamily : Text.allBlank font.family = false) (hink : color.fullText = .ok ink) :
    text t (.ok position) font color (d, s) =
      .ok () (d.append s.container (.text t position font ink), s) := by
  obtain ⟨x, hx, hxm⟩ := number_of_measurable hposition.1
  obtain ⟨y, hy, hym⟩ := number_of_measurable hposition.2
  obtain ⟨z, hz, hzm⟩ := number_of_measurable hsize
  have hitem : textItem t (.ok position) font color = .ok (.text t position font ink) := by
    simp only [textItem, ok_bind, hx, hy, hz, hink, measured_of_isMeasure hxm,
      measured_of_isMeasure hym, measured_of_isMeasure hzm, hfamily]
    rfl
  simp only [text, if_neg ht, hitem]
  rfl

/-- A surface that is placed is one group, moved to the corner and clipped to its box. -/
lemma place_ok {size : Vec Scalar} (hwidth : size.x.HasDouble) (hheight : size.y.HasDouble)
    {placed : Sheet} (hroot : placed.root ≠ 0) {position : Vec Scalar}
    (hposition : position.Measurable) (d : Document) (s : Sheet) :
    place size placed position (d, s) =
      .ok () ((d.framed placed.root position size).append s.container (.group placed.root), s) := by
  have hlength {a : Scalar} (h : a.HasDouble) : length a = .ok a := by
    obtain ⟨x, hx⟩ := h
    simp only [length, hx]
  have hbox : boxSize size = .ok size := by
    simp only [boxSize, Vec.mapM, hlength hwidth, hlength hheight, ok_bind]
    rfl
  obtain ⟨t, ht, htm⟩ := point_of_measurable hposition
  have hmovable : movable placed position = .ok () := by
    simp only [movable, ht, ok_bind, if_neg hroot, measured_of_isMeasure htm]
    rfl
  simp only [place, hbox, hmovable]
  rfl

/-- The group of a surface that is placed is one item; the frame it gets does not change what is in
any group. -/
lemma place_apply {size : Vec Scalar} (hwidth : size.x.HasDouble) (hheight : size.y.HasDouble)
    {placed : Sheet} (hroot : placed.root ≠ 0) {position : Vec Scalar}
    (hposition : position.Measurable) :
    ∃ d', place size placed position (d, s) = .ok () (d', s) ∧
      d'.contents = (d.append s.container (.group placed.root)).contents := by
  refine ⟨_, place_ok hwidth hheight hroot hposition d s, ?_⟩
  funext n
  rw [Document.contents_append, Document.contents_append, Document.contents_framed]

end Sheet

end UmlDrawing.Svg
