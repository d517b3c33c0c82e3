import UmlDrawing.Font.Block
import UmlDrawing.Proofs.Surface.CarryOn
import UmlDrawing.Svg.Document

/-! The names of clip paths. One number is counted up for all surfaces of a document, so no two clip
paths ever have the same name, and every group that is clipped is clipped to one of them. -/
open UmlDrawing.Action

namespace UmlDrawing.Svg

namespace ClipName

/-- The number that tells a clip path from all others. -/
def number : ClipName → Nat
  | region n => n
  | surface n => n

lemma ofNat_injective : Function.Injective Text.ofNat := by
  intro m n h
  have hdigits := congrArg (Nat.ofDigitChars 10 · 0) h
  simpa only [Text.ofNat, Nat.ofDigitChars_ten_toDigits] using hdigits

/-- Names are written differently, be they of one kind or of two. -/
theorem text_injective : Function.Injective text := by
  intro a b h
  cases a with
  | region m =>
    cases b with
    | region n =>
      have hdigits : "clip".toList ++ Text.ofNat m = "clip".toList ++ Text.ofNat n := h
      rw [ofNat_injective (List.append_cancel_left hdigits)]
    | surface n => cases congrArg List.head? h
  | surface m =>
    cases b with
    | region n => cases congrArg List.head? h
    | surface n =>
      have hdigits : "surface".toList ++ Text.ofNat m = "surface".toList ++ Text.ofNat n := h
      rw [ofNat_injective (List.append_cancel_left hdigits)]

theorem link_injective : Function.Injective link := by
  intro a b h
  have htext : "url(#".toList ++ a.text ++ [')'] = "url(#".toList ++ b.text ++ [')'] := h
  exact text_injective (List.append_cancel_left (List.append_cancel_right htext))

end ClipName

namespace Document

/-- A document in which clip paths have numbers of their own, below the next one, groups are clipped
to clip paths that are there, and groups in groups are there. -/
structure Sound (d : Document) : Prop where
  below : ∀ c ∈ d.clips, c.name.number < d.next
  distinct : (d.clips.map fun c => c.name.number).Nodup
  defined : ∀ g ∈ d.groups, ∀ name ∈ g.clip, ∃ c ∈ d.clips, c.name = name
  inside : ∀ g ∈ d.groups, ∀ n, Item.group n ∈ g.items → n < d.groups.length

variable {d : Document} {g : Group} {n k : Nat}

lemma mem_groups_modifyGroup {change : Group → Group} (h : g ∈ (d.modifyGroup k change).groups) :
    g ∈ d.groups ∨ ∃ g₀ ∈ d.groups, g = change g₀ := by
  obtain ⟨i, hi⟩ := List.mem_iff_getElem?.1 h
  rw [modifyGroup, List.getElem?_modify] at hi
  obtain ⟨g₀, hg₀, rfl⟩ := Option.map_eq_some_iff.1 hi
  have hmem := List.mem_of_getElem? hg₀
  split
  · exact .inr ⟨g₀, hmem, rfl⟩
  · exact .inl hmem

namespace Sound

lemma start (size : Vec Scalar) : ({ size := size } : Document).Sound where
  below := by simp
  distinct := List.nodup_nil
  defined := by simp
  inside := by simp

/-- A clip path with the next number is added to the others. -/
lemma define (h : d.Sound) {name : ClipName} (hname : name.number = d.next)
    (shape : Option ClipShape) : (d.takeNumber.addClip ⟨name, shape⟩).Sound where
  below c hc := by
    obtain hc | hc := List.mem_append.1 hc
    · exact Nat.lt_succ_of_lt (h.below c hc)
    · obtain rfl := List.mem_singleton.1 hc
      exact Nat.lt_succ_of_le (Nat.le_of_eq hname)
  distinct := by
    have hnew : d.next ∉ d.clips.map fun c => c.name.number := by
      intro hmem
      obtain ⟨c, hc, hnumber⟩ := List.mem_map.1 hmem
      exact Nat.ne_of_lt (h.below c hc) hnumber
    simp only [addClip, takeNumber, List.map_append, List.map_cons, List.map_nil, hname]
    exact List.concat_eq_append ▸ h.distinct.concat hnew
  defined g hg name hclip := by
    obtain ⟨c, hc, hname⟩ := h.defined g hg name hclip
    exact ⟨c, List.mem_append_left _ hc, hname⟩
  inside := h.inside

lemma addGroup (h : d.Sound) {clip : Option ClipName}
    (hclip : ∀ name ∈ clip, ∃ c ∈ d.clips, c.name = name) :
    (d.addGroup { clip := clip }).Sound where
  below := h.below
  distinct := h.distinct
  defined g hg := by
    obtain hg | hg := List.mem_append.1 hg
    · exact h.defined g hg
    · obtain rfl := List.mem_singleton.1 hg
      exact hclip
  inside g hg n hn := by
    simp only [Document.addGroup, List.length_append, List.length_singleton]
    obtain hg | hg := List.mem_append.1 hg
    · exact Nat.lt_succ_of_lt (h.inside g hg n hn)
    · obtain rfl := List.mem_singleton.1 hg
      cases hn

lemma modifyGroup (h : d.Sound) (k : Nat) {change : Group → Group}
    (hclip : ∀ g ∈ d.groups, ∀ name ∈ (change g).clip, ∃ c ∈ d.clips, c.name = name)
    (hitems : ∀ g ∈ d.groups, ∀ n, Item.group n ∈ (change g).items → n < d.groups.length) :
    (d.modifyGroup k change).Sound where
  below := h.below
  distinct := h.distinct
  defined g hg := by
    obtain hg | ⟨g₀, hg₀, rfl⟩ := mem_groups_modifyGroup hg
    · exact h.defined g hg
    · exact hclip g₀ hg₀
  inside g hg n hn := by
    rw [length_groups_modifyGroup]
    obtain hg | ⟨g₀, hg₀, rfl⟩ := mem_groups_modifyGroup hg
    · exact h.inside g hg n hn
    · exact hitems g₀ hg₀ n hn

lemma append (h : d.Sound) (k : Nat) {item : Item}
    (hitem : ∀ n, item = .group n → n < d.groups.length) : (d.append k item).Sound := by
  refine h.modifyGroup k h.defined fun g hg n hn => ?_
  obtain hn | hn := List.mem_append.1 hn
  · exact h.inside g hg n hn
  · exact hitem n (List.mem_singleton.1 hn).symm

end Sound

lemma exists_addClip (d : Document) (c : ClipPath) :
    ∃ c' ∈ (d.addClip c).clips, c'.name = c.name :=
  ⟨c, List.mem_append_right _ (List.mem_singleton_self c), rfl⟩

/-- The document after a clip in a group. -/
def opened (d : Document) (k : Nat) (path : List (Subpath Scalar)) : Document :=
  ((d.takeNumber.addClip ⟨.region d.next, some (.path path)⟩).addGroup
    { clip := some (.region d.next) }).append k (.group d.groups.length)

lemma length_opened (d : Document) (k : Nat) (path : List (Subpath Scalar)) :
    (d.opened k path).groups.length = d.groups.length + 1 := by
  simp [opened, append, addGroup, addClip, takeNumber]

lemma Sound.opened (h : d.Sound) (k : Nat) (path : List (Subpath Scalar)) :
    (d.opened k path).Sound := by
  have hdefined : (d.takeNumber.addClip ⟨.region d.next, some (.path path)⟩).Sound :=
    h.define rfl _
  refine (hdefined.addGroup fun name hname => ?_).append k fun n hn => ?_
  · obtain rfl := Option.some.inj hname
    exact exists_addClip _ _
  · obtain rfl := Item.group.inj hn
    simp [Document.addGroup, addClip, takeNumber]

end Document

namespace Sheet

/-- A document with one of its surfaces, before and after an operation on the surface. -/
structure Advances (before after : Canvas Sheet Document) : Prop where
  sound (h : before.1.Sound) : after.1.Sound
  grows : before.1.groups.length ≤ after.1.groups.length
  root : after.2.root = before.2.root
  container (h : before.2.container < before.1.groups.length) :
    after.2.container < after.1.groups.length

variable {d : Document} {s : Sheet}

lemma Advances.refl (canvas : Canvas Sheet Document) : Advances canvas canvas :=
  ⟨id, Nat.le_refl _, rfl, id⟩

lemma Advances.trans {a b c : Canvas Sheet Document} (h : Advances a b) (h' : Advances b c) :
    Advances a c :=
  ⟨h'.sound ∘ h.sound, h.grows.trans h'.grows, h'.root.trans h.root, h'.container ∘ h.container⟩

lemma advances_append (d : Document) (s : Sheet) {item : Item}
    (hitem : ∀ n, item = .group n → n < d.groups.length) :
    Advances (d, s) (d.append s.container item, s) where
  sound h := h.append s.container hitem
  grows := by rw [Document.append, Document.length_groups_modifyGroup]
  root := rfl
  container h := by rwa [Document.append, Document.length_groups_modifyGroup]

lemma advances_define (d : Document) (s : Sheet) {name : ClipName} (hname : name.number = d.next)
    (shape : Option ClipShape) : Advances (d, s) (d.takeNumber.addClip ⟨name, shape⟩, s) :=
  ⟨fun h => h.define hname shape, Nat.le_refl _, rfl, id⟩

/-- A group is moved and clipped to a clip path that is there. -/
lemma advances_move (d : Document) (s : Sheet) (k : Nat) (position : Vec Scalar) {name : ClipName}
    (hname : ∃ c ∈ d.clips, c.name = name) :
    Advances (d, s)
      (d.modifyGroup k fun g => { g with shift := some position, clip := some name }, s) where
  sound h := by
    refine h.modifyGroup k (fun g _ clip hclip => ?_) h.inside
    obtain rfl := Option.some.inj hclip
    exact hname
  grows := by rw [Document.length_groups_modifyGroup]
  root := rfl
  container h := by rwa [Document.length_groups_modifyGroup]

lemma advances_fill (path : List (Subpath Scalar)) (color : Color) (alpha : Scalar) :
    Advances (d, s) (final (fill path color alpha (d, s))) := by
  have hstay := Advances.refl (d, s)
  refine final_ofExcept_bind hstay fun b _ => ?_
  cases b with
  | false => exact hstay
  | true =>
    refine final_ofExcept_bind hstay fun ink _ => ?_
    refine final_ofExcept_bind hstay fun opacity _ => ?_
    refine final_ofExcept_bind hstay fun _ _ => ?_
    exact advances_append d s (by simp)

lemma advances_stroke (path : List (Subpath Scalar)) (color : Color) (dash : List Scalar) :
    Advances (d, s) (final (stroke path color dash (d, s))) := by
  have hstay := Advances.refl (d, s)
  refine final_ofExcept_bind hstay fun b _ => ?_
  cases b with
  | false => exact hstay
  | true =>
    refine final_ofExcept_bind hstay fun ink _ => ?_
    refine final_ofExcept_bind hstay fun _ _ => ?_
    refine final_ofExcept_bind hstay fun _ _ => ?_
    exact advances_append d s (by simp)

lemma ne_group_of_textItem {content : Text} {position : Except Fault (Vec Scalar)}
    {font : FontStyle Scalar} {color : Color} {item : Item}
    (h : textItem content position font color = .ok item) (n : Nat) : item ≠ .group n := by
  obtain ⟨p, -, h⟩ := bind_eq_ok_iff.1 h
  obtain ⟨x, -, h⟩ := bind_eq_ok_iff.1 h
  obtain ⟨y, -, h⟩ := bind_eq_ok_iff.1 h
  obtain ⟨size, -, h⟩ := bind_eq_ok_iff.1 h
  obtain ⟨ink, -, h⟩ := bind_eq_ok_iff.1 h
  obtain ⟨_, -, h⟩ := bind_eq_ok_iff.1 h
  obtain ⟨_, -, h⟩ := bind_eq_ok_iff.1 h
  obtain ⟨_, -, h⟩ := bind_eq_ok_iff.1 h
  split at h
  · cases h
  · cases h
    rintro ⟨⟩

lemma advances_text (content : Text) (position : Except Fault (Vec Scalar))
    (font : FontStyle Scalar) (color : Color) :
    Advances (d, s) (final (text content position font color (d, s))) := by
  have hstay := Advances.refl (d, s)
  unfold text
  split
  · exact hstay
  · refine final_ofExcept_bind hstay fun item hitem => ?_
    exact advances_append d s fun n hn => absurd hn (ne_group_of_textItem hitem n)

lemma clip_ok {path : List (Subpath Scalar)} {t : Text} (h : pathData path = .ok t) (d : Document)
    (s : Sheet) :
    clip path (d, s) =
      .ok () (d.opened s.container path, { s with container := d.groups.length }) := by
  simp only [clip, h]
  rfl

lemma clip_error {path : List (Subpath Scalar)} {fault : Fault} (h : pathData path = .error fault)
    (d : Document) (s : Sheet) :
    clip path (d, s) = .error fault (d.takeNumber.addClip ⟨.region d.next, none⟩, s) := by
  simp only [clip, h]

lemma exists_clip_iff {path : List (Subpath Scalar)} {canvas : Canvas Sheet Document} :
    (∃ after, clip path canvas = .ok () after) ↔ ∃ t, pathData path = .ok t := by
  cases h : pathData path with
  | ok t => exact iff_of_true ⟨_, clip_ok h canvas.1 canvas.2⟩ ⟨t, rfl⟩
  | error fault =>
    rw [clip_error h canvas.1 canvas.2]
    exact iff_of_false not_ok_of_error not_ok_of_fault

/-- The clip path is there even if its path cannot be written. -/
lemma advances_clip (path : List (Subpath Scalar)) :
    Advances (d, s) (final (clip path (d, s))) := by
  cases hdata : pathData path with
  | error fault =>
    rw [clip_error hdata]
    exact advances_define d s rfl none
  | ok data =>
    rw [clip_ok hdata]
    have hlength := d.length_opened s.container path
    refine ⟨fun h => h.opened s.container path, ?_, rfl, fun _ => ?_⟩
    · exact hlength ▸ Nat.le_succ _
    · exact hlength ▸ Nat.lt_succ_self _

/-- The clip path is there even if the surface cannot be placed. -/
lemma advances_place (size : Vec Scalar) {placed : Sheet} (hroot : placed.root < d.groups.length)
    (position : Vec Scalar) : Advances (d, s) (final (place size placed position (d, s))) := by
  unfold place
  dsimp only
  cases boxSize size with
  | error fault => exact advances_define d s rfl none
  | ok box =>
    have hdefine : Advances (d, s)
        (d.takeNumber.addClip ⟨.surface d.next, some (.box box)⟩, s) :=
      advances_define d s rfl _
    dsimp only
    cases movable placed position with
    | error fault => exact hdefine
    | ok _ =>
      have hname := Document.exists_addClip d.takeNumber ⟨.surface d.next, some (.box box)⟩
      have hmove := advances_move _ s placed.root position hname
      refine (hdefine.trans hmove).trans (advances_append _ s ?_)
      rintro n ⟨⟩
      rw [Document.length_groups_modifyGroup]
      exact hroot

end Sheet

/-- The groups of a surface are groups of the document. -/
structure Rooted (d : Document) (x : Surface Sheet Nat) : Prop where
  root : x.content.root < d.groups.length
  container : x.content.container < d.groups.length
  saved : ∀ k ∈ x.stack.map Prod.snd, k < d.groups.length

/-- A drawing with a sound document that has the groups of all surfaces. -/
structure Sound (s : Studio Sheet Document Nat) : Prop where
  document : s.shared.Sound
  rooted : ∀ x ∈ s.surfaces, Rooted s.shared x

namespace Rooted

variable {d d' : Document} {x : Surface Sheet Nat}

lemma mono (h : Rooted d x) (hgrows : d.groups.length ≤ d'.groups.length) : Rooted d' x where
  root := Nat.lt_of_lt_of_le h.root hgrows
  container := Nat.lt_of_lt_of_le h.container hgrows
  saved k hk := Nat.lt_of_lt_of_le (h.saved k hk) hgrows

lemma pushState (h : Rooted d x) : Rooted d x.pushState where
  root := h.root
  container := h.container
  saved k hk := by
    obtain rfl | hk := List.mem_cons.1 hk
    · exact h.container
    · exact h.saved k hk

lemma popState (h : Rooted d x) : Rooted d x.popState := by
  obtain ⟨size, pen, stack, content⟩ := x
  cases stack with
  | nil => exact h
  | cons entry rest =>
    have hentry := h.saved entry.2 (List.mem_cons_self ..)
    exact ⟨h.root, hentry, fun k hk => h.saved k (List.mem_cons_of_mem _ hk)⟩

end Rooted

namespace Sound

variable {s t : Studio Sheet Document Nat} {on : Nat}
  {x y : Surface Sheet Nat}

lemma put (h : Sound s) (hy : Rooted s.shared y) : Sound (s.put on y) where
  document := h.document
  rooted z hz := by
    obtain hz | rfl := List.mem_or_eq_of_mem_set hz
    · exact h.rooted z hz
    · exact hy

lemma advances (h : Sound s) (x : Surface Sheet Nat)
    {action : Action (Canvas Sheet Document) Unit} (haction : s.Paints action) :
    Sheet.Advances (s.shared, x.content) (final (action (s.shared, x.content))) := by
  cases haction with
  | fill path color alpha => exact Sheet.advances_fill path color alpha
  | stroke path color dash => exact Sheet.advances_stroke path color dash
  | clip path => exact Sheet.advances_clip path
  | text text position font style color => exact Sheet.advances_text text position style color
  | place hplaced position =>
    have hroot := (h.rooted _ (List.mem_of_getElem? hplaced)).root
    exact Sheet.advances_place _ hroot position

/-- No command makes a drawing unsound, not even one that fails. -/
theorem moves {states : Bool} (h : Sound s) (hmoves : s.Moves on states t) : Sound t := by
  cases hmoves with
  | idle => exact h
  | pen hx pen =>
    have hrooted := h.rooted _ (List.mem_of_getElem? hx)
    exact h.put ⟨hrooted.root, hrooted.container, hrooted.saved⟩
  | push _ hx => exact h.put (h.rooted _ (List.mem_of_getElem? hx)).pushState
  | pop _ hx => exact h.put (h.rooted _ (List.mem_of_getElem? hx)).popState
  | @paint x hx pen action haction m =>
    have hadvances := h.advances x haction
    refine ⟨hadvances.sound h.document, fun z hz => ?_⟩
    obtain hz | rfl := List.mem_or_eq_of_mem_set hz
    · exact (h.rooted z hz).mono hadvances.grows
    · have hrooted := h.rooted x (List.mem_of_getElem? hx)
      have hsaved := (hrooted.mono hadvances.grows).saved
      refine ⟨?_, hadvances.container hrooted.container, hsaved⟩
      rw [hadvances.root]
      exact Nat.lt_of_lt_of_le hrooted.root hadvances.grows
  | create hcreate =>
    cases hcreate
    have hlength : s.shared.groups.length < (s.shared.addGroup {}).groups.length := by
      simp [Document.addGroup]
    refine ⟨h.document.addGroup (by simp), fun z hz => ?_⟩
    obtain hz | hz := List.mem_append.1 hz
    · exact (h.rooted z hz).mono (Nat.le_of_lt hlength)
    · obtain rfl := List.mem_singleton.1 hz
      exact ⟨hlength, hlength, by simp⟩

lemma start {size : Vec Scalar} {metrics : Metrics} (h : Studio.start size metrics = .ok s) :
    Sound s := by
  obtain ⟨canvas, hroot, h⟩ := bind_eq_ok_iff.1 h
  obtain ⟨d, hd, hroot⟩ := bind_eq_ok_iff.1 hroot
  obtain ⟨w, -, hd⟩ := bind_eq_ok_iff.1 hd
  obtain ⟨l, -, hd⟩ := bind_eq_ok_iff.1 hd
  obtain ⟨_, -, hd⟩ := bind_eq_ok_iff.1 hd
  obtain ⟨_, -, hd⟩ := bind_eq_ok_iff.1 hd
  cases hd
  cases hroot
  cases h
  refine ⟨.start size, fun x hx => ?_⟩
  obtain rfl := List.mem_singleton.1 hx
  exact ⟨Nat.one_pos, Nat.one_pos, by simp⟩

/-- Whatever is drawn, in whatever order on whatever surfaces, the document stays sound. -/
theorem carryOn (h : Sound s) (p : Program) : Sound (Studio.carryOn p s) :=
  Studio.carryOn_induction h moves p

end Sound

/-- However a drawing is made, its clip paths are all named differently, and whatever group refers
to a clip path, be it placed or not, refers to exactly one. -/
theorem clips_named_once {size : Vec Scalar} {metrics : Metrics}
    {s : Studio Sheet Document Nat} (h : Studio.start size metrics = .ok s) (p : Program) :
    let d := (Studio.carryOn p s).shared
    (d.clips.map fun c => c.name.text).Nodup ∧
      ∀ g ∈ d.groups, ∀ name ∈ g.clip,
        d.clips.countP (fun c => decide (c.name.link = name.link)) = 1 := by
  have hsound := ((Sound.start h).carryOn p).document
  intro d
  -- names with different numbers are different
  have hnames : (d.clips.map fun c => c.name).Nodup := by
    have hnumbers : ((d.clips.map fun c => c.name).map ClipName.number).Nodup := by
      rw [List.map_map]
      exact hsound.distinct
    exact hnumbers.of_map _
  constructor
  · have htexts := hnames.map ClipName.text_injective
    rwa [List.map_map] at htexts
  · intro g hg name hclip
    obtain ⟨c, hc, rfl⟩ := hsound.defined g hg name hclip
    have hone := List.count_eq_one_of_mem hnames (List.mem_map_of_mem hc)
    rw [List.count, List.countP_map] at hone
    rw [← hone]
    refine List.countP_congr fun c' _ => ?_
    simp [ClipName.link_injective.eq_iff]

/-- Clips on two surfaces, one of which is placed twice; the other one cannot be placed. -/
def overlapping : Program :=
  let line : List (Vec Scalar) := [⟨.whole 1, .whole 2⟩, ⟨.whole 3, .whole 4⟩, ⟨.whole 5, .whole 0⟩]
  [(0, .create (.whole 9) (.whole 9)), (1, .polyline line true), (0, .polyline line true),
    (0, .clip), (1, .clip), (0, .place 1 ⟨.whole 5, .whole 5⟩),
    (1, .place 0 ⟨.whole 5, .whole 5⟩), (0, .place 1 ⟨.whole 6, .whole 6⟩), (1, .clip)]

theorem clips_named_once_overlapping :
    ∃ s : Studio Sheet Document Nat,
      Studio.start ⟨.whole 40, .whole 30⟩ { installed := .blocks [] } = .ok s ∧
      let d := (Studio.carryOn overlapping s).shared
      d.clips.map (fun c => c.name) =
        [.region 0, .region 1, .surface 2, .surface 3, .surface 4, .region 5] ∧
      d.groups.filterMap (fun g => g.clip) = [.surface 4, .region 0, .region 1, .region 5] ∧
      (d.clips.map fun c => c.name.text).Nodup ∧
      ∀ g ∈ d.groups, ∀ name ∈ g.clip,
        d.clips.countP (fun c => decide (c.name.link = name.link)) = 1 := by
  obtain ⟨s, hs⟩ : ∃ s : Studio Sheet Document Nat,
      Studio.start ⟨.whole 40, .whole 30⟩ { installed := .blocks [] } = .ok s := ⟨_, rfl⟩
  refine ⟨s, hs, ?_, ?_, clips_named_once hs overlapping⟩
  · cases hs
    decide +kernel
  · cases hs
    decide +kernel

end UmlDrawing.Svg
