import UmlDrawing.Font.Block
import UmlDrawing.Proofs.Path.Ellipse
import UmlDrawing.Proofs.Raster.Mask
import UmlDrawing.Proofs.Svg.ClipGroups

/-! The clips in force on images and in vector graphics. Both kinds of surfaces keep the same clips,
the one as groups inside each other and the other as a mask, now and in all states that were pushed,
as long as neither refuses a clip that the other one carries out. -/
open UmlDrawing.Action

namespace UmlDrawing

/-- The program of some commands to one surface. -/
def Program.on (i : Nat) (q : List (Command Scalar)) : Program := q.map fun c => (i, c)

/-- Whether a command is about the path, the offset, the states or the clip alone. -/
def Command.shapesClip {α : Type} : Command α → Bool
  | .fill .. | .stroke .. | .text .. | .create .. | .place .. => false
  | _ => true

namespace Raster.Picture

lemma exists_cell {a : Scalar} (h : a.HasDouble) : ∃ n, cell a = .ok n := by
  obtain ⟨x, hx⟩ := h
  simp only [cell, hx, ok_bind]
  split
  · exact ⟨_, rfl⟩
  · exact ⟨_, rfl⟩

lemma exists_corner {v : Vec Scalar} (hx : v.x.HasDouble) (hy : v.y.HasDouble) :
    ∃ c, corner v = .ok c := by
  obtain ⟨m, hm⟩ := exists_cell hx
  obtain ⟨n, hn⟩ := exists_cell hy
  refine ⟨(m, n), ?_⟩
  simp only [corner, hm, hn, ok_bind]
  rfl

/-- The polygons of a path that can be written are found. -/
lemma exists_polygons {path : List (Subpath Scalar)} (hpath : ∀ s ∈ path, s.Rounded) {t : Text}
    (h : Svg.pathData path = .ok t) : ∃ s, polygons path = .ok s := by
  obtain ⟨steps, hsteps, -⟩ := bind_eq_ok_iff.1 h
  have hstencils : ∃ stencils, ((areas path).mapM fun s => do
      let corners ← s.points.mapM corner
      pure (Polygon.stencil corners)) = .ok stencils := by
    refine exists_mapM fun s hs => ?_
    have hs : s ∈ path := List.mem_of_mem_filter hs
    obtain ⟨ts, hts⟩ := exists_of_mapM hsteps s hs
    have hpoints := Svg.hasDouble_of_subpathSteps (hpath s hs) hts
    obtain ⟨corners, hcorners⟩ : ∃ corners, s.points.mapM corner = .ok corners :=
      exists_mapM fun v hv => exists_corner (hpoints v hv).1 (hpoints v hv).2
    rw [hcorners]
    exact ⟨_, rfl⟩
  obtain ⟨stencils, hstencils⟩ := hstencils
  refine ⟨Stencil.union stencils, ?_⟩
  rw [polygons, hstencils]
  rfl

end Raster.Picture

open Svg (Sheet Document)
open Raster (Picture Grid Level)

/-- A group and a mask with the same clips in force. -/
structure SameClips (d : Document) (root width height k : Nat) (mask : Option (Grid Level)) :
    Prop where
  there : k < d.groups.length
  paths : ∃ paths, (∀ others, d.Clips root k others ↔ others = paths) ∧
    Picture.Restricts width height paths mask

/-- Surfaces of both kinds with the same path and the same clips, now and in all states to go back
to. -/
structure ClipTwins (d : Document) (x : Surface Sheet Nat)
    (y : Surface Picture (Option (Grid Level))) : Prop where
  pen : x.pen = y.pen
  rounded : x.pen.Rounded
  root : x.content.root < d.groups.length
  now : SameClips d x.content.root y.content.image.width y.content.image.height
    x.content.container y.content.clip
  saved : List.Forall₂
    (fun a b => a.1 = b.1 ∧ SameClips d x.content.root y.content.image.width
      y.content.image.height a.2 b.2) x.stack y.stack

variable {d d' : Document} {x : Surface Sheet Nat} {y : Surface Picture (Option (Grid Level))}

lemma SameClips.mono {root width height k : Nat} {mask : Option (Grid Level)}
    (h : SameClips d root width height k mask) (hgrows : d.groups.length ≤ d'.groups.length)
    (hclips : ∀ paths, d'.Clips root k paths ↔ d.Clips root k paths) :
    SameClips d' root width height k mask := by
  obtain ⟨paths, hpaths, hmask⟩ := h.paths
  exact ⟨Nat.lt_of_lt_of_le h.there hgrows, paths, fun others => (hclips others).trans (hpaths others),
    hmask⟩

namespace ClipTwins

lemma setPen (h : ClipTwins d x y) {pen : Pen Scalar} (hpen : pen.Rounded) :
    ClipTwins d { x with pen := pen } { y with pen := pen } :=
  ⟨rfl, hpen, h.root, h.now, h.saved⟩

lemma pushState (h : ClipTwins d x y) : ClipTwins d x.pushState y.pushState where
  pen := h.pen
  rounded := h.rounded
  root := h.root
  now := h.now
  saved := .cons ⟨congrArg Pen.offset h.pen, h.now⟩ h.saved

lemma popState (h : ClipTwins d x y) : ClipTwins d x.popState y.popState := by
  obtain ⟨size, pen, stack, content⟩ := x
  obtain ⟨size', pen', stack', content'⟩ := y
  obtain ⟨hpen, hrounded, hroot, hnow, hsaved⟩ := h
  obtain rfl : pen = pen' := hpen
  cases hsaved with
  | nil => exact ⟨rfl, hrounded, hroot, hnow, .nil⟩
  | @cons a b rest rest' hentry hrest =>
    obtain ⟨offset, k⟩ := a
    obtain ⟨offset', mask⟩ := b
    obtain ⟨rfl, hsame⟩ := hentry
    exact ⟨rfl, hrounded, hroot, hsame, hrest⟩

/-- Surfaces keep the same clips when a path is clipped to, if both can do it or none. -/
theorem clip (h : ClipTwins d x y) (hd : d.Sound) {path : List (Subpath Scalar)}
    (hpath : ∀ s ∈ path, s.Rounded)
    (hboth : (∃ s, Picture.polygons path = .ok s) → ∃ t, Svg.pathData path = .ok t)
    (shared : Unit) {canvas : Canvas Sheet Document} {canvas' : Canvas Picture Unit}
    (hcanvas : final (Sheet.clip path (d, x.content)) = canvas)
    (hcanvas' : final (Picture.clipTo path (shared, y.content)) = canvas') :
    ClipTwins canvas.1 { x with content := canvas.2 } { y with content := canvas'.2 } := by
  cases hdata : Svg.pathData path with
  | error fault =>
    cases hpolygons : Picture.polygons path with
    | ok s =>
      obtain ⟨t, ht⟩ := hboth ⟨s, hpolygons⟩
      cases hdata.symm.trans ht
    | error fault' =>
      rw [Svg.Sheet.clip_error hdata, final] at hcanvas
      rw [Picture.clipTo_error hpolygons, final] at hcanvas'
      subst hcanvas
      subst hcanvas'
      have hkeep {k : Nat} {mask : Option (Grid Level)}
          (hsame : SameClips d x.content.root y.content.image.width y.content.image.height k mask) :
          SameClips (d.takeNumber.addClip ⟨.region d.next, none⟩) x.content.root
            y.content.image.width y.content.image.height k mask :=
        hsame.mono (Nat.le_refl _) fun _ => Document.clips_shapeless_iff _
      exact ⟨h.pen, h.rounded, h.root, hkeep h.now,
        h.saved.imp fun _ _ hentry => ⟨hentry.1, hkeep hentry.2⟩⟩
  | ok t =>
    obtain ⟨s, hpolygons⟩ := Picture.exists_polygons hpath hdata
    rw [Svg.Sheet.clip_ok hdata, final] at hcanvas
    rw [Picture.clipTo_ok hpolygons, final] at hcanvas'
    subst hcanvas
    subst hcanvas'
    have hlength : (d.opened x.content.container path).groups.length = d.groups.length + 1 :=
      Document.length_opened _ _ _
    -- the groups to go back to were there before the new one
    have hkeep {k : Nat} {mask : Option (Grid Level)}
        (hsame : SameClips d x.content.root y.content.image.width y.content.image.height k mask) :
        SameClips (d.opened x.content.container path) x.content.root y.content.image.width
          y.content.image.height k mask :=
      hsame.mono (by omega) fun _ => Document.clips_opened_iff hd h.now.there hsame.there
    refine ⟨h.pen, h.rounded, ?_, ⟨?_, ?_⟩, ?_⟩
    · exact hlength ▸ Nat.lt_succ_of_lt h.root
    · exact hlength ▸ Nat.lt_succ_self _
    · obtain ⟨paths, hpaths, hmask⟩ := h.now.paths
      refine ⟨path :: paths, fun others => ?_, Picture.restricts_restrict hmask hpolygons⟩
      refine (Document.clips_opened_new_iff hd h.now.there h.root).trans ?_
      simp only [hpaths, exists_eq_right]
    · exact h.saved.imp fun _ _ hentry => ⟨hentry.1, hkeep hentry.2⟩

end ClipTwins

/-- Surfaces of two drawings, one of each kind, with the same path and the same clips. -/
def Abreast (t : Studio Sheet Document Nat) (i : Nat)
    (s : Studio Picture Unit (Option (Grid Level))) (j : Nat) : Prop :=
  ∃ x y, t.surfaces[i]? = some x ∧ s.surfaces[j]? = some y ∧ ClipTwins t.shared x y

variable {t : Studio Sheet Document Nat} {s : Studio Picture Unit (Option (Grid Level))}
  {i j base base' : Nat} {c : Command Scalar}

/-- A command to both surfaces leaves them with the same clips, unless only one of them can clip. -/
theorem Abreast.perform (h : Abreast t (base + i) s (base' + j)) (hd : t.shared.Sound)
    (hc : c.shapesClip = true)
    (hclip : c = .clip → (∃ u, Studio.perform base' j c s = .ok () u) →
      ∃ u, Studio.perform base i c t = .ok () u) :
    Abreast (final (Studio.perform base i c t)) (base + i)
      (final (Studio.perform base' j c s)) (base' + j) := by
  obtain ⟨x, y, hx, hy, htwins⟩ := h
  have hpen {action : Action (Pen Scalar) Unit} (haction : c.onPen? = some action) :
      Abreast (final (Studio.perform base i c t)) (base + i)
        (final (Studio.perform base' j c s)) (base' + j) := by
    rw [Studio.final_onPen haction hx, Studio.final_onPen haction hy, ← htwins.pen]
    have hrounded := htwins.rounded.onPen haction
    exact ⟨_, _, Studio.getElem?_put hx _, Studio.getElem?_put hy _, htwins.setPen hrounded⟩
  cases c with
  | pushState =>
    rw [Studio.perform_pushState, Studio.perform_pushState, Studio.onSurface_modify hx,
      Studio.onSurface_modify hy]
    exact ⟨_, _, Studio.getElem?_put hx _, Studio.getElem?_put hy _, htwins.pushState⟩
  | popState =>
    rw [Studio.perform_popState, Studio.perform_popState, Studio.onSurface_modify hx,
      Studio.onSurface_modify hy]
    exact ⟨_, _, Studio.getElem?_put hx _, Studio.getElem?_put hy _, htwins.popState⟩
  | clip =>
    -- both read the same path, which ends the piece being drawn
    have hboth := hclip rfl
    rw [Studio.perform_clip, Studio.perform_clip, Studio.exists_onPath_iff hx,
      Studio.exists_onPath_iff hy, ← htwins.pen] at hboth
    have hboth := fun h => Sheet.exists_clip_iff.1 (hboth (Picture.exists_clipTo_iff.2 h))
    rw [Studio.perform_clip, Studio.perform_clip, Studio.final_onPath hx, Studio.final_onPath hy,
      ← htwins.pen]
    have hflushed := htwins.rounded.flushed
    refine ⟨_, _, Studio.getElem?_putCanvas hx _ _, Studio.getElem?_putCanvas hy _ _, ?_⟩
    exact (htwins.setPen hflushed).clip hd hflushed hboth s.shared rfl rfl
  | fill | stroke | text | create | place => cases hc
  | _ => exact hpen rfl

/-- Commands to both surfaces leave them with the same clips, unless only one of them can clip. -/
theorem Abreast.carryOn (h : Abreast t i s j) (ht : Svg.Sound t) {q : List (Command Scalar)}
    (hq : ∀ c ∈ q, c.shapesClip = true)
    (hclips : ∀ q', q' ++ [.clip] <+: q →
      (∃ u, Studio.perform 0 j .clip (Studio.carryOn (.on j q') s) = .ok () u) →
        ∃ u, Studio.perform 0 i .clip (Studio.carryOn (.on i q') t) = .ok () u) :
    Abreast (Studio.carryOn (.on i q) t) i (Studio.carryOn (.on j q) s) j := by
  induction q using List.reverseRecOn with
  | nil => exact h
  | append_singleton q c ih =>
    -- the condition on clips is one on all prefixes, so it holds of the commands before the last
    have hbefore := ih (fun c hc => hq c (List.mem_append_left _ hc)) fun q' hq' =>
      hclips q' (hq'.trans (List.prefix_append q [c]))
    have hc := hq c (List.mem_append_right _ (List.mem_singleton_self c))
    have hd := (ht.carryOn (.on i q)).document
    simp only [Program.on, List.map_append, List.map_singleton, Studio.carryOn_append,
      Studio.carryOn_singleton]
    have hzero : Abreast (Studio.carryOn (.on i q) t) (0 + i) (Studio.carryOn (.on j q) s) (0 + j) := by
      rwa [Nat.zero_add, Nat.zero_add]
    have hafter := hzero.perform hd hc fun hclip => by
      subst hclip
      exact hclips q (List.prefix_refl _)
    rwa [Nat.zero_add, Nat.zero_add] at hafter

/-- New surfaces of both kinds have the same path, and no clips. -/
lemma abreast_new {size : Vec Scalar} {metrics : Metrics} {t₀ : Studio Sheet Document Nat}
    (hstart : Studio.start size metrics = .ok t₀) (p : Program) {own extent : Vec Scalar} {r : Nat}
    (hx : (Studio.carryOn p t₀).surfaces[i]? = some { size := own, content := ⟨r, r⟩ })
    {image : Grid Raster.Pixel}
    (hy : s.surfaces[j]? = some { size := extent, content := { image := image } }) :
    Abreast (Studio.carryOn p t₀) i s j := by
  have hrooted := ((Svg.Sound.start hstart).carryOn p).rooted _ (List.mem_of_getElem? hx)
  refine ⟨_, _, hx, hy, rfl, Pen.rounded_initial, hrooted.root, ⟨hrooted.root, [], ?_, rfl⟩, .nil⟩
  exact fun others => Document.clips_root_iff

lemma Abreast.exists_paths (h : Abreast t i s j) :
    ∃ x y paths, t.surfaces[i]? = some x ∧ s.surfaces[j]? = some y ∧
      (∀ others, t.shared.Clips x.content.root x.content.container others ↔ others = paths) ∧
      Picture.Restricts y.content.image.width y.content.image.height paths y.content.clip := by
  obtain ⟨x, y, hx, hy, htwins⟩ := h
  obtain ⟨paths, hpaths, hmask⟩ := htwins.now.paths
  exact ⟨x, y, paths, hx, hy, hpaths, hmask⟩

/-- Images and vector graphics keep the same clips in force. Whatever commands about paths, offsets,
states and clips a new surface of each kind is given, the paths of the clip groups from the one the
document is drawn to up to that of the surface are exactly the paths that the mask of the image is
made of, as long as every clip that the image carries out can be written. -/
theorem clips_agree {size : Vec Scalar} {metrics : Metrics} {t₀ : Studio Sheet Document Nat}
    (hstart : Studio.start size metrics = .ok t₀) (p : Program) {own : Vec Scalar} {r : Nat}
    (hx : (Studio.carryOn p t₀).surfaces[i]? = some { size := own, content := ⟨r, r⟩ })
    {extent : Vec Scalar} {image : Grid Raster.Pixel}
    (hy : s.surfaces[j]? = some { size := extent, content := { image := image } })
    {q : List (Command Scalar)} (hq : ∀ c ∈ q, c.shapesClip = true)
    (hclips : ∀ q', q' ++ [.clip] <+: q →
      (∃ u, Studio.perform 0 j .clip (Studio.carryOn (.on j q') s) = .ok () u) →
        ∃ u, Studio.perform 0 i .clip (Studio.carryOn (p ++ .on i q') t₀) = .ok () u) :
    ∃ x y paths, (Studio.carryOn (p ++ .on i q) t₀).surfaces[i]? = some x ∧
      (Studio.carryOn (.on j q) s).surfaces[j]? = some y ∧
      (∀ others, (Studio.carryOn (p ++ .on i q) t₀).shared.Clips x.content.root x.content.container
        others ↔ others = paths) ∧
      Picture.Restricts y.content.image.width y.content.image.height paths y.content.clip := by
  have hsound := (Svg.Sound.start hstart).carryOn p
  simp only [Studio.carryOn_append] at hclips ⊢
  exact ((abreast_new hstart p hx hy).carryOn hsound hq hclips).exists_paths

/-- A clip inside another one, after a state was popped that nobody pushed. -/
def nested : List (Command Scalar) :=
  [.popState, .rect (.whole 0) (.whole 0) (.whole 1) (.whole 1), .clip, .pushState, .beginPath,
    .translate ⟨.whole 1, .whole 1⟩, .rect (.whole 0) (.whole 0) (.whole 1) (.whole 1), .clip]

/-- A surface beside the one that a drawing starts from. -/
def beside : Program := [(0, .create (.whole 9) (.whole 9))]

/-- Whether an action came to an end. -/
def succeeds {σ : Type} : EStateM.Result Fault σ Unit → Bool
  | .ok _ _ => true
  | .error _ _ => false

lemma exists_ok_of_succeeds {σ : Type} {result : EStateM.Result Fault σ Unit}
    (h : succeeds result = true) : ∃ u, result = .ok () u := by
  cases result with
  | ok _ u => exact ⟨u, rfl⟩
  | error fault u => cases h

theorem clips_agree_nested :
    ∃ (t : Studio Sheet Document Nat) (s : Studio Picture Unit (Option (Grid Level)))
      (x : Surface Sheet Nat) (y : Surface Picture (Option (Grid Level)))
      (paths : List (List (Subpath Scalar))) (mask : Grid Level),
      Studio.start ⟨.whole 40, .whole 30⟩ { installed := .blocks [] } = .ok t ∧
      Studio.start ⟨.whole 4, .whole 4⟩ { installed := .blocks [] } = .ok s ∧
      (Studio.carryOn (beside ++ .on 1 nested) t).surfaces[1]? = some x ∧
      (Studio.carryOn (.on 0 nested) s).surfaces[0]? = some y ∧
      (∀ others, (Studio.carryOn (beside ++ .on 1 nested) t).shared.Clips x.content.root
        x.content.container others ↔ others = paths) ∧
      Picture.Restricts y.content.image.width y.content.image.height paths y.content.clip ∧
      y.content.clip = some mask ∧ mask.get? 1 1 = some 255 ∧ mask.get? 0 0 = some 0 := by
  obtain ⟨t, ht⟩ : ∃ t : Studio Sheet Document Nat,
      Studio.start ⟨.whole 40, .whole 30⟩ { installed := .blocks [] } = .ok t := ⟨_, rfl⟩
  obtain ⟨s, hs⟩ : ∃ s : Studio Picture Unit (Option (Grid Level)),
      Studio.start ⟨.whole 4, .whole 4⟩ { installed := .blocks [] } = .ok s := ⟨_, rfl⟩
  have hx : (Studio.carryOn beside t).surfaces[1]? =
      some { size := ⟨.whole 9, .whole 9⟩, content := ⟨1, 1⟩ } := by
    cases ht
    rfl
  have hy : ∃ image, s.surfaces[0]? =
      some { size := ⟨.whole 4, .whole 4⟩, content := { image := image } } := by
    cases hs
    exact ⟨_, rfl⟩
  have hwritten : ∀ n < 8, succeeds (Studio.perform 0 1 .clip
      (Studio.carryOn (beside ++ .on 1 (nested.take n)) t)) = true := by
    cases ht
    decide +kernel
  have hmask : (Studio.carryOn (.on 0 nested) s).surfaces[0]?.map (fun y =>
      y.content.clip.map fun mask => (mask.get? 1 1, mask.get? 0 0)) =
        some (some (some 255, some 0)) := by
    cases hs
    decide +kernel
  have hclips : ∀ q', q' ++ [.clip] <+: nested →
      (∃ u, Studio.perform 0 0 .clip (Studio.carryOn (.on 0 q') s) = .ok () u) →
        ∃ u, Studio.perform 0 1 .clip (Studio.carryOn (beside ++ .on 1 q') t) = .ok () u := by
    intro q' hq' _
    have hlength := hq'.length_le
    rw [List.length_append] at hlength
    have hall := hwritten q'.length hlength
    rw [← List.prefix_iff_eq_take.1 ((List.prefix_append q' [.clip]).trans hq')] at hall
    exact exists_ok_of_succeeds hall
  obtain ⟨image, hy⟩ := hy
  obtain ⟨x, y, paths, hx, hy, hpaths, hrestricts⟩ :=
    clips_agree ht beside hx hy (by decide) hclips
  rw [hy] at hmask
  obtain ⟨mask, hclip, hpixels⟩ := Option.map_eq_some_iff.1 (Option.some.inj hmask)
  obtain ⟨hin, hout⟩ := Prod.mk.inj hpixels
  exact ⟨t, s, x, y, paths, mask, ht, hs, hx, hy, hpaths, hrestricts, hclip, hin, hout⟩

/-- A line to a point beyond all doubles. -/
def endless : List (Command Scalar) :=
  [.polyline [⟨.whole 0, .whole 0⟩, ⟨.whole (10 ^ 400), .whole 0⟩] true, .clip]

/-- A line has no inside, so an image is clipped to nothing without a look at its points; but it
cannot be written if its points are beyond the doubles, and then no group is clipped. -/
theorem clips_endless :
    ∃ (t : Studio Sheet Document Nat) (s : Studio Picture Unit (Option (Grid Level)))
      (x : Surface Sheet Nat) (y : Surface Picture (Option (Grid Level))),
      Studio.start ⟨.whole 4, .whole 4⟩ { installed := .blocks [] } = .ok t ∧
      Studio.start ⟨.whole 4, .whole 4⟩ { installed := .blocks [] } = .ok s ∧
      (Studio.carryOn (.on 0 endless) t).surfaces[0]? = some x ∧
      (Studio.carryOn (.on 0 endless) s).surfaces[0]? = some y ∧
      (Studio.carryOn (.on 0 endless) t).shared.Clips x.content.root x.content.container [] ∧
      ¬ Picture.Restricts y.content.image.width y.content.image.height [] y.content.clip := by
  obtain ⟨t, ht⟩ : ∃ t : Studio Sheet Document Nat,
      Studio.start ⟨.whole 4, .whole 4⟩ { installed := .blocks [] } = .ok t := ⟨_, rfl⟩
  obtain ⟨s, hs⟩ : ∃ s : Studio Picture Unit (Option (Grid Level)),
      Studio.start ⟨.whole 4, .whole 4⟩ { installed := .blocks [] } = .ok s := ⟨_, rfl⟩
  have hsheet : (Studio.carryOn (.on 0 endless) t).surfaces[0]?.map (fun x => x.content) =
      some ⟨0, 0⟩ := by
    cases ht
    decide +kernel
  have hmask : (Studio.carryOn (.on 0 endless) s).surfaces[0]?.map (fun y =>
      y.content.clip.isSome) = some true := by
    cases hs
    decide +kernel
  obtain ⟨x, hx, hsheet⟩ := Option.map_eq_some_iff.1 hsheet
  obtain ⟨y, hy, hmask⟩ := Option.map_eq_some_iff.1 hmask
  obtain ⟨mask, hmask⟩ := Option.isSome_iff_exists.1 hmask
  refine ⟨t, s, x, y, ht, hs, hx, hy, ?_, ?_⟩
  · rw [hsheet]
    exact .root
  · rw [hmask]
    exact fun h => h.1 rfl

section Writable

/-- A command whose numbers can be written is carried out, and leaves a path that can be written. -/
lemma exists_shaped (hx : t.surfaces[i]? = some x) (hpen : x.pen.Writable)
    (hc : c.shapesClip = true) (hwritable : c.WritableOn t x) :
    ∃ u y, Studio.perform 0 i c t = .ok () u ∧ u.surfaces[i]? = some y ∧ y.pen.Writable := by
  have honPen {action : Action (Pen Scalar) Unit} (haction : c.onPen? = some action) :
      ∃ u y, Studio.perform 0 i c t = .ok () u ∧ u.surfaces[i]? = some y ∧ y.pen.Writable := by
    obtain ⟨pen, hresult, hwritten⟩ := hpen.onPen hwritable haction
    refine ⟨_, _, ?_, Studio.getElem?_put hx { x with pen := pen }, hwritten⟩
    rw [Studio.perform_onPen haction, Nat.zero_add, Studio.onSurface_apply, hx]
    simp only [Surface.onPen, hresult]
    rfl
  cases c with
  | pushState =>
    refine ⟨_, _, ?_, Studio.getElem?_put hx x.pushState, hpen⟩
    rw [Studio.perform_pushState, Nat.zero_add, Studio.onSurface_modify hx]
    rfl
  | popState =>
    refine ⟨_, _, ?_, Studio.getElem?_put hx x.popState, ?_⟩
    · rw [Studio.perform_popState, Nat.zero_add, Studio.onSurface_modify hx]
      rfl
    · -- what can be written of a path does not depend on the offset that comes back
      unfold Surface.popState
      split
      · exact hpen
      · exact hpen
  | clip =>
    obtain ⟨text, htext, -⟩ := Svg.pathData_of_writable hpen.flushed.1
    have hclip : (Medium.clip (Pen.flushed x.pen).finished : Action (Canvas Sheet Document) Unit)
        (t.shared, x.content) = _ := Sheet.clip_ok htext t.shared x.content
    have hthere := Studio.getElem?_putCanvas hx { x with pen := Pen.flushed x.pen }
      (t.shared.opened x.content.container (Pen.flushed x.pen).finished,
        { x.content with container := t.shared.groups.length })
    refine ⟨_, _, ?_, hthere, hpen.flushed⟩
    rw [Studio.perform_clip, Nat.zero_add, Studio.onPath_apply hx, hclip]
  | fill | stroke | text | create | place => cases hc
  | _ => exact honPen rfl

/-- Of commands whose numbers can all be written, every clip is carried out. -/
lemma exists_clip_of_writable {q : List (Command Scalar)} (hq : ∀ c ∈ q, c.shapesClip = true)
    (hx : t.surfaces[i]? = some x) (hpen : x.pen.Writable) (hwritable : (Program.on i q).Writable t)
    {q' : List (Command Scalar)} (hq' : q' ++ [.clip] <+: q) :
    ∃ u, Studio.perform 0 i .clip (Studio.carryOn (.on i q') t) = .ok () u := by
  induction q generalizing t x q' with
  | nil => exact absurd (List.prefix_nil.1 hq') (by simp)
  | cons c q ih =>
    obtain ⟨hnow, hlater⟩ := hwritable
    obtain ⟨u, y, hu, hy, hpen⟩ :=
      exists_shaped hx hpen (hq c List.mem_cons_self) (hnow x hx)
    cases q' with
    | nil =>
      obtain ⟨rfl, -⟩ := List.cons_prefix_cons.1 hq'
      exact ⟨u, hu⟩
    | cons d q' =>
      obtain ⟨rfl, hrest⟩ := List.cons_prefix_cons.1 hq'
      have hstep : Studio.carryOn (.on i (d :: q')) t = Studio.carryOn (.on i q') u := by
        change Studio.carryOn (.on i q') (final (Studio.perform 0 i d t)) = _
        rw [hu]
        rfl
      rw [hstep]
      exact ih (fun c hc => hq c (List.mem_cons_of_mem _ hc)) hy hpen (hlater u hu) hrest

/-- Where all numbers of the commands can be written, images and vector graphics keep the same clips in
force without a condition on the clips. -/
theorem clips_agree_of_writable {size : Vec Scalar} {metrics : Metrics}
    {t₀ : Studio Sheet Document Nat} (hstart : Studio.start size metrics = .ok t₀) (p : Program)
    {own extent : Vec Scalar} {r : Nat}
    (hx : (Studio.carryOn p t₀).surfaces[i]? = some { size := own, content := ⟨r, r⟩ })
    {image : Grid Raster.Pixel}
    (hy : s.surfaces[j]? = some { size := extent, content := { image := image } })
    {q : List (Command Scalar)} (hq : ∀ c ∈ q, c.shapesClip = true)
    (hwritable : (Program.on i q).Writable (Studio.carryOn p t₀)) :
    ∃ x y paths, (Studio.carryOn (p ++ .on i q) t₀).surfaces[i]? = some x ∧
      (Studio.carryOn (.on j q) s).surfaces[j]? = some y ∧
      (∀ others, (Studio.carryOn (p ++ .on i q) t₀).shared.Clips x.content.root x.content.container
        others ↔ others = paths) ∧
      Picture.Restricts y.content.image.width y.content.image.height paths y.content.clip := by
  have hsound := (Svg.Sound.start hstart).carryOn p
  rw [Studio.carryOn_append]
  refine ((abreast_new hstart p hx hy).carryOn hsound hq fun q' hq' _ => ?_).exists_paths
  exact exists_clip_of_writable hq hx Pen.writable_initial hwritable hq'

end Writable

end UmlDrawing
