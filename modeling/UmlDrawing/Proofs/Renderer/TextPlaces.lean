import Mathlib.Data.List.Forall2
import UmlDrawing.Proofs.Markup.Texts
import UmlDrawing.Proofs.Numeral.Sums
import UmlDrawing.Proofs.Surface.Recorded
import UmlDrawing.Renderer.Registry

/-! Where the runs of a line of text end up. The runs of a line stand side by side: each of them starts
where the widths of the runs before it leave off, and the last one decides the height of the line. -/
namespace UmlDrawing

/-- The members of a list, each with those before it, after some others. -/
def withBefore {α : Type} : List α → List α → List (List α × α)
  | _, [] => []
  | before, a :: as => (before, a) :: withBefore (before ++ [a]) as

/-- An offset that points with doubles for coordinates can be moved by. -/
def Vec.Converts (offset : Vec Scalar) : Prop := offset.x.Converts ∧ offset.y.Converts

lemma Vec.Converts.exists_add {offset : Vec Scalar} (h : offset.Converts) {x y : Scalar}
    (hx : x.Converts) (hy : y.Converts) : ∃ u, offset.add ⟨x, y⟩ = .ok u :=
  Vec.exists_add (Scalar.exists_add h.1 hx) (Scalar.exists_add h.2 hy)

namespace Markup.Node

/-- Something is drawn of every line, be it an empty text. -/
lemma drawable_parse_ne_nil (line : Text) (style : TextStyle) : drawable (parse line style) ≠ [] := by
  induction hlength : line.length using Nat.strongRecOn generalizing line style with
  | ind length ih =>
    rw [parse_eq]
    cases hparts : segments line with
    | nil => simp [drawable, leavesOf, leaves]
    | cons part parts =>
      dsimp only
      rw [List.map_cons, drawable_cons]
      refine List.append_ne_nil_of_left_ne_nil ?_ _
      cases part with
      | plain text => simp [ofSegment, drawable, leavesOf, leaves]
      | run e inner =>
        have hinner := length_of_run_mem_segments (hparts ▸ List.mem_cons_self ..)
        rw [ofSegment, drawable_run]
        exact ih inner.length (by omega) inner _ rfl

end Markup.Node

namespace TextLine

open Sketch
open Markup (Leaf)

/-- The leaves of a line that are drawn. -/
def leaves (line : Text) : List Leaf := Markup.Node.drawable (Markup.Node.parse line)

lemma leaves_ne_nil (line : Text) : leaves line ≠ [] :=
  Markup.Node.drawable_parse_ne_nil line {}

/-- The font of a run at a size. -/
def fontAt (config : Config Scalar) (size : Scalar) (style : TextStyle) : FontStyle Scalar :=
  ⟨config.fontFamily, size, style.bold, style.italic⟩

/-- The height of a line: half that of the default text for a separator, and that of the last leaf that
is drawn for any other line. -/
def lineHeight (g : Gauge) (font : TextStyle → FontStyle Scalar) (line : Text) : Float :=
  if isSeparator line then g.height (font {}) / 2.0
  else g.height (font ((leaves line).getLast (leaves_ne_nil line)).style)

/-- The width of a leaf. -/
def leafWidth (g : Gauge) (font : TextStyle → FontStyle Scalar) (leaf : Leaf) : Float :=
  g.width leaf.literal (font leaf.style)

/-- Where a run is recorded: to the right of the widths before it, moved by the offset and rounded. -/
def runPosition (offset : Vec Scalar) (left top : Scalar) (widths : List Float) :
    Except Fault (Vec Scalar) := do
  let done ← Scalar.sumFrom (.real 0.0) widths
  let x ← Scalar.add left done
  let moved ← offset.add ⟨x, top⟩
  pure (moved.map Scalar.thousandths)

/-- The texts that are recorded of some leaves after those before them on the line. -/
structure RunsDrawn (g : Gauge) (font : TextStyle → FontStyle Scalar) (offset : Vec Scalar)
    (written : Text) (left top : Scalar) (before after : List Leaf) (texts : List TextCall) :
    Prop where
  calls : texts.map (fun c => (c.text, c.font, c.color)) =
    after.map fun leaf => (leaf.literal, font leaf.style, written)
  positions : texts.map (fun c => Except.ok c.position) =
    (withBefore before after).map fun p => runPosition offset left top (p.1.map (leafWidth g font))

variable {g : Gauge} {offset : Vec Scalar} {config : Config Scalar} {size : Scalar} {color : Color}
  {written : Text} {left top : Scalar}

lemma font_eq (h : config.effectiveSize = .ok size) (style : TextStyle) :
    config.font style = .ok (fontAt config size style) := by
  rw [Config.font, h]
  rfl

lemma underline_records (hoffset : offset.Converts) (hcolor : color.inRange = true) {x y : Scalar}
    (hx : x.Converts) (hy : y.Converts) (width height runWidth : Float) :
    Records g offset (underline x y (.real width) (.real height) (.real runWidth) color) () [] := by
  obtain ⟨a, ha⟩ := hx
  obtain ⟨b, hb⟩ := hy
  have hone : Scalar.toFloat (.whole 1) = .ok 1.0 := by rfl
  have hpoint (x y : Float) : ∃ u, offset.add ⟨.real x, .real y⟩ = .ok u :=
    hoffset.exists_add (Scalar.converts_real x) (Scalar.converts_real y)
  refine Records.beginPath.quietly ?_
  refine (Records.ofExcept (Scalar.add_real ha width)).quietly ?_
  refine (Records.ofExcept (Scalar.add_real hb height)).quietly ?_
  refine (Records.ofExcept (Scalar.real_sub (b + height) hone)).quietly ?_
  refine (Records.moveTo (hpoint _ _)).quietly ?_
  refine (Records.ofExcept (Scalar.real_add (a + width) rfl)).quietly ?_
  exact (Records.lineTo (hpoint _ _)).quietly (Records.stroke hcolor [])

/-- A run is recorded after the widths before it. -/
lemma run_records (hsize : config.effectiveSize = .ok size) (hoffset : offset.Converts)
    (hwritten : color.text = .ok written) {x y : Scalar} {a : Float} (hx : x.toFloat = .ok a)
    (hy : y.Converts) (width : Float) (height : Scalar) (leaf : Leaf) {moved : Vec Scalar}
    (hmoved : offset.add ⟨.real (a + width), y⟩ = .ok moved) :
    Records g offset (run x y config color ⟨.real width, height⟩ leaf)
      ⟨.real (width + leafWidth g (fontAt config size) leaf), .real (g.height (fontAt config size leaf.style))⟩
      [⟨leaf.literal, moved.map Scalar.thousandths, fontAt config size leaf.style, written⟩] := by
  have hcolor : color.inRange = true := (Color.text_isOk_iff color).1 ⟨written, hwritten⟩
  refine (Records.ofExcept (font_eq hsize leaf.style)).quietly ?_
  refine (Records.width leaf.literal _).quietly ((Records.height _).quietly ?_)
  have hrest : Records g offset (do
      let left ← Sketch.ofExcept (Arithmetic.add x (Scalar.real width))
      Sketch.draw (.text leaf.literal ⟨left, y⟩ (fontAt config size leaf.style) color)
      let total ← Sketch.ofExcept (Arithmetic.add (Scalar.real width)
        (Scalar.real (leafWidth g (fontAt config size) leaf)))
      pure (⟨total, .real (g.height (fontAt config size leaf.style))⟩ : Extent Scalar))
      ⟨.real (width + leafWidth g (fontAt config size) leaf),
        .real (g.height (fontAt config size leaf.style))⟩
      [⟨leaf.literal, moved.map Scalar.thousandths, fontAt config size leaf.style, written⟩] := by
    refine (Records.ofExcept (Scalar.add_real hx width)).quietly ?_
    refine (Records.text hwritten leaf.literal hmoved _).ended ?_
    exact (Records.ofExcept (Scalar.real_add width rfl)).quietly (Records.pure _)
  dsimp only
  split
  · exact (underline_records hoffset hcolor ⟨a, hx⟩ hy _ _ _).quietly hrest
  · exact hrest

lemma RunsDrawn.nil (before : List Leaf) :
    RunsDrawn g (fontAt config size) offset written left top before [] [] :=
  ⟨rfl, rfl⟩

lemma RunsDrawn.cons {before after : List Leaf} {leaf : Leaf} {position : Vec Scalar}
    {texts : List TextCall}
    (hposition : runPosition offset left top (before.map (leafWidth g (fontAt config size))) =
      .ok position)
    (h : RunsDrawn g (fontAt config size) offset written left top (before ++ [leaf]) after texts) :
    RunsDrawn g (fontAt config size) offset written left top before (leaf :: after)
      (⟨leaf.literal, position, fontAt config size leaf.style, written⟩ :: texts) where
  calls := by rw [List.map_cons, List.map_cons, h.calls]
  positions := by rw [List.map_cons, h.positions, withBefore, List.map_cons, hposition]

/-- The leaves after some others are recorded where the widths of those leave off. The height is that of
the last leaf. -/
lemma foldlM_run_records (hsize : config.effectiveSize = .ok size) (hoffset : offset.Converts)
    (hwritten : color.text = .ok written) (hleft : left.Converts) (htop : top.Converts)
    (before after : List Leaf) {width : Float}
    (hwidth : Scalar.sumFrom (.real 0.0) (before.map (leafWidth g (fontAt config size))) =
      .ok (.real width)) (height : Scalar) :
    ∃ extent texts, Records g offset (after.foldlM (run left top config color) ⟨.real width, height⟩)
        extent texts ∧
      extent.height = (after.getLast?.map fun leaf =>
        Scalar.real (g.height (fontAt config size leaf.style))).getD height ∧
      RunsDrawn g (fontAt config size) offset written left top before after texts := by
  induction after generalizing before width height with
  | nil => exact ⟨_, [], Records.pure _, rfl, .nil before⟩
  | cons leaf after ih =>
    obtain ⟨a, ha⟩ := hleft
    obtain ⟨moved, hmoved⟩ := hoffset.exists_add (Scalar.converts_real (a + width)) htop
    have hposition : runPosition offset left top (before.map (leafWidth g (fontAt config size))) =
        .ok (moved.map Scalar.thousandths) := by
      rw [runPosition, hwidth, ok_bind, Scalar.add_real ha, ok_bind, hmoved]
      rfl
    have hnext : Scalar.sumFrom (.real 0.0) ((before ++ [leaf]).map (leafWidth g (fontAt config size))) =
        .ok (.real (width + leafWidth g (fontAt config size) leaf)) := by
      rw [List.map_append, List.map_singleton, Scalar.sumFrom_concat hwidth]
      exact Scalar.real_add width rfl
    obtain ⟨extent, texts, hrecords, hheight, hdrawn⟩ := ih (before ++ [leaf]) hnext
      (.real (g.height (fontAt config size leaf.style)))
    refine ⟨extent, _, ?_, ?_, hdrawn.cons hposition⟩
    · rw [List.foldlM_cons]
      exact (run_records hsize hoffset hwritten ha htop width height leaf hmoved).bind hrecords
    · rw [hheight, List.getLast?_cons]
      cases after.getLast? <;> rfl

/-- Some leaves are recorded side by side. -/
lemma runs_records (hsize : config.effectiveSize = .ok size) (hoffset : offset.Converts)
    (hwritten : color.text = .ok written) (hleft : left.Converts) (htop : top.Converts)
    {after : List Leaf} (hne : after ≠ []) :
    ∃ extent texts, Records g offset (runs after left top config color) extent texts ∧
      extent.height = .real (g.height (fontAt config size (after.getLast hne).style)) ∧
      RunsDrawn g (fontAt config size) offset written left top [] after texts := by
  obtain ⟨extent, texts, hrecords, hheight, hdrawn⟩ := foldlM_run_records (g := g) hsize hoffset
    hwritten hleft htop [] after rfl (.real (g.height (fontAt config size {})))
  refine ⟨extent, texts, ?_, ?_, hdrawn⟩
  · refine Records.quietly ?_ hrecords
    exact (Records.ofExcept (font_eq hsize {})).quietly (Records.height _)
  · rw [hheight, List.getLast?_eq_getLast_of_ne_nil hne]
    rfl

/-- Where a line of text starts: in the middle of its width, or indented by the padding. -/
def lineLeft (x w : Int) (widths : List Float) (centered : Bool) : Except Fault Scalar :=
  if centered then do
    let total ← Scalar.sumFrom (.whole 0) widths
    let middle ← Arithmetic.half (Scalar.whole w)
    let left ← Arithmetic.half total
    let indent ← Scalar.sub middle left
    Scalar.add (.whole x) indent
  else Scalar.add (.whole x) (.whole padding)

/-- Where a line of text stands below others: below their heights, one after the other, and the
padding. -/
def lineTop (y : Int) (heights : List Float) : Except Fault Scalar := do
  let bottom ← Scalar.sumFrom (.whole y) heights
  Scalar.add bottom (.whole padding)

lemma runWidths_records (hsize : config.effectiveSize = .ok size) (after : List Leaf) :
    Records g offset (runWidths after config)
      ((after.map (leafWidth g (fontAt config size))).map Scalar.real) [] := by
  induction after with
  | nil => exact Records.pure _
  | cons leaf after ih =>
    rw [runWidths, List.mapM_cons]
    refine Records.quietly ?_ (ih.quietly (Records.pure _))
    exact (Records.ofExcept (font_eq hsize leaf.style)).quietly (Records.width _ _)

/-- The middle of a box is found if its position and its width are in the range of doubles. -/
lemma centered_records (hsize : config.effectiveSize = .ok size) {x : Int} {w : Nat}
    (hx : (Scalar.whole x).Converts) (hw : w ≤ Binary64.greatest) {after : List Leaf}
    (hne : after ≠ []) :
    ∃ left, lineLeft x w (after.map (leafWidth g (fontAt config size))) true = .ok left ∧
      left.Converts ∧
      Records g offset (centered after config (.whole x) (.whole w)) left [] := by
  obtain ⟨a, ha⟩ := hx
  obtain ⟨middle, hmiddle⟩ := Scalar.exists_half hw
  have hzero : (Scalar.whole 0).Converts := ⟨0.0, by rfl⟩
  have hwidths : after.map (leafWidth g (fontAt config size)) ≠ [] := mt List.map_eq_nil_iff.1 hne
  obtain ⟨total, htotal⟩ := Scalar.exists_sumFrom hzero hwidths
  have hleft : Scalar.add (.whole x) (.real (middle - total / 2.0)) =
      .ok (.real (a + (middle - total / 2.0))) := Scalar.add_real ha _
  have hindent : Scalar.sub (.real middle) (.real (total / 2.0)) =
      .ok (.real (middle - total / 2.0)) := Scalar.sub_real rfl _
  refine ⟨.real (a + (middle - total / 2.0)), ?_, Scalar.converts_real _, ?_⟩
  · rw [lineLeft, if_pos rfl, htotal, ok_bind, hmiddle, ok_bind, Scalar.half_real, ok_bind, hindent,
      ok_bind, hleft]
  · refine (runWidths_records hsize after).quietly ?_
    refine (Records.ofExcept htotal).quietly ((Records.ofExcept hmiddle).quietly ?_)
    refine (Records.ofExcept (Scalar.half_real total)).quietly ?_
    exact (Records.ofExcept hindent).quietly (Records.ofExcept hleft)

/-- A line of text is recorded run by run below the padding. -/
lemma draw_records (hsize : config.effectiveSize = .ok size) (hoffset : offset.Converts)
    (hwritten : color.text = .ok written) {line : Text} (hline : isSeparator line = false) {x : Int}
    {w : Nat} (hx : x.natAbs ≤ Binary64.greatest) (hw : w ≤ Binary64.greatest) {y : Scalar}
    (hy : Scalar.add y (.whole padding) = .ok top) (htop : top.Converts) (centered : Bool) :
    ∃ left texts,
      Records g offset (draw line config (.whole x) y (.whole w) color ⟨centered, false⟩)
        (.real (lineHeight g (fontAt config size) line)) texts ∧
      lineLeft x w ((leaves line).map (leafWidth g (fontAt config size))) centered = .ok left ∧
      RunsDrawn g (fontAt config size) offset written left top [] (leaves line) texts := by
  have hne := leaves_ne_nil line
  have hnot : ¬ isSeparator line = true := by
    rw [hline]
    exact Bool.false_ne_true
  have hruns {left : Scalar} (hleft : left.Converts) : ∃ texts,
      Records g offset (do
        let extent ← runs (leaves line) left top config color
        pure extent.height) (.real (lineHeight g (fontAt config size) line)) texts ∧
      RunsDrawn g (fontAt config size) offset written left top [] (leaves line) texts := by
    obtain ⟨extent, texts, hrecords, hheight, hdrawn⟩ := runs_records (g := g) hsize hoffset hwritten
      hleft htop hne
    refine ⟨texts, ?_, hdrawn⟩
    have hdone : Records g offset (pure extent.height)
        (Scalar.real (lineHeight g (fontAt config size) line)) [] := by
      rw [hheight, lineHeight, if_neg hnot]
      exact Records.pure _
    exact hrecords.ended hdone
  cases centered with
  | true =>
    obtain ⟨left, hlineLeft, hleft, hquiet⟩ :=
      centered_records (g := g) hsize (Scalar.converts_whole (Binary64.exists_ofInt? hx)) hw hne
    obtain ⟨texts, hrecords, hdrawn⟩ := hruns hleft
    refine ⟨left, texts, ?_, hlineLeft, hdrawn⟩
    rw [draw, if_neg hnot]
    exact (Records.ofExcept hy).quietly (hquiet.quietly hrecords)
  | false =>
    obtain ⟨texts, hrecords, hdrawn⟩ :=
      hruns (Scalar.converts_whole (Binary64.exists_ofInt?_add_two hx))
    refine ⟨_, texts, ?_, rfl, hdrawn⟩
    rw [draw, if_neg hnot]
    exact (Records.ofExcept hy).quietly ((Records.ofExcept (Scalar.add_whole x 2)).quietly hrecords)

end TextLine

end UmlDrawing
