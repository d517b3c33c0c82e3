import UmlDrawing.Proofs.Geometry.Exact
import UmlDrawing.Proofs.Renderer.TextPlaces
import UmlDrawing.Proofs.Surface.Issued

/-! Runs of text in exact arithmetic. They tile their line: each run begins where the one before it ends,
the line under a run is as long as the run, and together the runs are as wide as the line was measured
to be when its place was chosen. A centered line therefore has equal margins. -/
namespace UmlDrawing.TextLine

open Sketch
open Markup (Leaf)

/-- The font of a run. -/
noncomputable def exactFont (config : Config ℝ) (style : TextStyle) : FontStyle ℝ :=
  ⟨config.fontFamily, config.fontSize * config.zoom, style.bold, style.italic⟩

/-- A leaf of a line with its place on the line. -/
structure Run where
  leaf : Leaf
  left : ℝ
  width : ℝ

variable (ruler : Ruler ℝ) (config : Config ℝ)

/-- The width of a leaf. -/
noncomputable def widthOf (leaf : Leaf) : ℝ := ruler.width leaf.literal (exactFont config leaf.style)

/-- The line height of a leaf. -/
noncomputable def heightOf (leaf : Leaf) : ℝ := ruler.height (exactFont config leaf.style)

/-- The line height of text without markup. -/
noncomputable def plainHeight : ℝ := ruler.height (exactFont config {})

/-- The height that a line takes up. -/
noncomputable def taken (line : Text) : ℝ :=
  if isSeparator line then plainHeight ruler config / 2
  else heightOf ruler config ((leaves line).getLast (leaves_ne_nil line))

namespace Run

/-- Where a run ends. -/
noncomputable def right (run : Run) : ℝ := run.left + run.width

/-- The commands that draw a run: its text and, if it is underlined, a line from one of its ends to the
other. -/
noncomputable def commands (top : ℝ) (color : Color) (run : Run) : List (Command ℝ) :=
  let level := top + heightOf ruler config run.leaf - 1
  (if run.leaf.style.underline then
    [.beginPath, .moveTo ⟨run.left, level⟩, .lineTo ⟨run.right, level⟩, .stroke color []]
  else []) ++ [.text run.leaf.literal ⟨run.left, top⟩ (exactFont config run.leaf.style) color]

end Run

/-- The runs of some leaves from a place on. -/
noncomputable def tile : ℝ → List Leaf → List Run
  | _, [] => []
  | left, leaf :: leaves =>
    ⟨leaf, left, widthOf ruler config leaf⟩ :: tile (left + widthOf ruler config leaf) leaves

/-- Runs that tile a line: its leaves in order, each as wide as it is measured to be and beginning where
the one before it ends. -/
structure Tiling (drawn : List Leaf) (left total : ℝ) (placed : List Run) : Prop where
  leaves : placed.map Run.leaf = drawn
  measured : ∀ run ∈ placed, run.width = widthOf ruler config run.leaf
  adjoining : placed.IsChain fun a b => a.right = b.left
  start : placed.head?.map Run.left = some left
  finish : placed.getLast?.map Run.right = some (left + total)

/-- The commands that draw some leaves from a place on. -/
noncomputable def tileCommands (left top : ℝ) (color : Color) (leaves : List Leaf) :
    List (Command ℝ) :=
  (tile ruler config left leaves).flatMap (Run.commands ruler config top color)

variable {ruler config} {x y w left top : ℝ} {color : Color}

lemma font_real (style : TextStyle) : config.font style = .ok (exactFont config style) := rfl

lemma map_leaf_tile (left : ℝ) (leaves : List Leaf) :
    (tile ruler config left leaves).map Run.leaf = leaves := by
  induction leaves generalizing left with
  | nil => rfl
  | cons leaf leaves ih => rw [tile, List.map_cons, ih]

lemma width_of_mem_tile {leaves : List Leaf} {run : Run}
    (h : run ∈ tile ruler config left leaves) : run.width = widthOf ruler config run.leaf := by
  induction leaves generalizing left with
  | nil => cases h
  | cons leaf leaves ih =>
    obtain rfl | h := List.mem_cons.1 h
    · rfl
    · exact ih h

lemma head?_tile {leaves : List Leaf} (hne : leaves ≠ []) :
    (tile ruler config left leaves).head?.map Run.left = some left := by
  cases leaves with
  | nil => exact absurd rfl hne
  | cons leaf leaves => rfl

/-- Each run begins where the one before it ends. -/
lemma isChain_tile (left : ℝ) (leaves : List Leaf) :
    (tile ruler config left leaves).IsChain fun a b => a.right = b.left := by
  induction leaves generalizing left with
  | nil => exact .nil
  | cons leaf leaves ih =>
    cases leaves with
    | nil => exact .singleton _
    | cons next leaves => exact .cons_cons rfl (ih _)

/-- The last run ends where the widths of all runs have been used up. -/
lemma getLast?_tile {leaves : List Leaf} (hne : leaves ≠ []) :
    (tile ruler config left leaves).getLast?.map Run.right =
      some (left + (leaves.map (widthOf ruler config)).sum) := by
  induction leaves generalizing left with
  | nil => exact absurd rfl hne
  | cons leaf leaves ih =>
    cases leaves with
    | nil => simp [tile, Run.right]
    | cons next leaves =>
      rw [tile, tile, List.getLast?_cons_cons, ← tile, ih (List.cons_ne_nil next leaves), add_assoc,
        ← List.sum_cons, ← List.map_cons]

lemma tiling_tile {leaves : List Leaf} (hne : leaves ≠ []) :
    Tiling ruler config leaves left (leaves.map (widthOf ruler config)).sum
      (tile ruler config left leaves) where
  leaves := map_leaf_tile left leaves
  measured _ := width_of_mem_tile
  adjoining := isChain_tile left leaves
  start := head?_tile hne
  finish := getLast?_tile hne

lemma underline_issues (width height runWidth : ℝ) :
    Issues ruler (underline x y width height runWidth color) ()
      [.beginPath, .moveTo ⟨x + width, y + height - 1⟩,
        .lineTo ⟨x + width + runWidth, y + height - 1⟩, .stroke color []] := by
  have hlevel : Arithmetic.sub (y + height) (Arithmetic.ofInt 1) = .ok (y + height - 1) := by simp
  refine (Issues.draw _).bind ?_
  refine (Issues.ofExcept (Arithmetic.real_add x width)).quietly ?_
  refine (Issues.ofExcept (Arithmetic.real_add y height)).quietly ?_
  refine (Issues.ofExcept hlevel).quietly ((Issues.draw _).bind ?_)
  refine (Issues.ofExcept (Arithmetic.real_add (x + width) runWidth)).quietly ?_
  exact (Issues.draw _).bind (Issues.draw _)

/-- A run is drawn behind the width that has been drawn before it. -/
lemma run_issues (done : Extent ℝ) (leaf : Leaf) :
    Issues ruler (run x y config color done leaf)
      ⟨done.width + widthOf ruler config leaf, heightOf ruler config leaf⟩
      (Run.commands ruler config y color ⟨leaf, x + done.width, widthOf ruler config leaf⟩) := by
  have htext : Issues ruler (do
      let left ← Sketch.ofExcept (Arithmetic.add x done.width)
      Sketch.draw (.text leaf.literal ⟨left, y⟩ (exactFont config leaf.style) color)
      let total ← Sketch.ofExcept (Arithmetic.add done.width (widthOf ruler config leaf))
      pure (⟨total, heightOf ruler config leaf⟩ : Extent ℝ))
      ⟨done.width + widthOf ruler config leaf, heightOf ruler config leaf⟩
      [.text leaf.literal ⟨x + done.width, y⟩ (exactFont config leaf.style) color] := by
    refine (Issues.ofExcept (Arithmetic.real_add x done.width)).quietly ((Issues.draw _).ended ?_)
    exact (Issues.ofExcept (Arithmetic.real_add _ _)).quietly (Issues.pure _)
  refine (Issues.ofExcept (font_real leaf.style)).quietly ?_
  refine (Issues.width leaf.literal _).quietly ((Issues.height _).quietly ?_)
  dsimp only [Run.commands]
  split
  · exact (underline_issues _ _ _).bind htext
  · exact htext

/-- Leaves are drawn side by side. The height is that of the last one. -/
lemma foldlM_run_issues (done : Extent ℝ) (leaves : List Leaf) :
    Issues ruler (leaves.foldlM (run x y config color) done)
      ⟨done.width + (leaves.map (widthOf ruler config)).sum,
        (leaves.getLast?.map (heightOf ruler config)).getD done.height⟩
      (tileCommands ruler config (x + done.width) y color leaves) := by
  induction leaves generalizing done with
  | nil => simpa [tileCommands, tile] using Issues.pure done
  | cons leaf leaves ih =>
    have hnext := ih ⟨done.width + widthOf ruler config leaf, heightOf ruler config leaf⟩
    have hheight : (leaves.getLast?.map (heightOf ruler config)).getD (heightOf ruler config leaf) =
        ((leaf :: leaves).getLast?.map (heightOf ruler config)).getD done.height := by
      rw [List.getLast?_cons]
      cases leaves.getLast? <;> rfl
    rw [List.foldlM_cons, List.map_cons, List.sum_cons, tileCommands, tile, List.flatMap_cons]
    rw [hheight, add_assoc, ← add_assoc x] at hnext
    exact (run_issues done leaf).bind hnext

lemma defaultHeight_issues :
    Issues ruler (defaultHeight config) (plainHeight ruler config) [] :=
  (Issues.ofExcept (font_real {})).quietly (Issues.height _)

/-- The runs of a line, with their width and their height. -/
lemma runs_issues {leaves : List Leaf} (hne : leaves ≠ []) :
    Issues ruler (runs leaves left top config color)
      ⟨(leaves.map (widthOf ruler config)).sum, heightOf ruler config (leaves.getLast hne)⟩
      (tileCommands ruler config left top color leaves) := by
  have hruns : Issues ruler (leaves.foldlM (run left top config color)
      ⟨0, plainHeight ruler config⟩) _ _ := foldlM_run_issues _ leaves
  rw [zero_add, add_zero, List.getLast?_eq_some_getLast hne] at hruns
  exact defaultHeight_issues.quietly hruns

/-- The widths that are measured are those of the runs. -/
lemma runWidths_issues (leaves : List Leaf) :
    Issues ruler (runWidths leaves config) (leaves.map (widthOf ruler config)) [] := by
  induction leaves with
  | nil => exact Issues.pure []
  | cons leaf leaves ih =>
    have hwidth : Issues ruler (do
        let font ← Sketch.ofExcept (config.font leaf.style)
        Sketch.width leaf.literal font) (widthOf ruler config leaf) [] :=
      (Issues.ofExcept (font_real leaf.style)).quietly (Issues.width _ _)
    rw [runWidths, List.mapM_cons]
    exact hwidth.quietly (ih.quietly (Issues.pure _))

/-- A centered line starts half its width before the middle. -/
lemma centered_issues (leaves : List Leaf) :
    Issues ruler (centered leaves config x w)
      (x + (w / 2 - (leaves.map (widthOf ruler config)).sum / 2)) [] := by
  have hhalf (a : ℝ) : Arithmetic.half a = .ok (a / 2) := Arithmetic.real_div a two_ne_zero
  refine (runWidths_issues leaves).quietly ?_
  refine (Issues.ofExcept (Arithmetic.real_sum _)).quietly ?_
  refine (Issues.ofExcept (hhalf w)).quietly ((Issues.ofExcept (hhalf _)).quietly ?_)
  exact (Issues.ofExcept (Arithmetic.real_sub _ _)).quietly (Issues.ofExcept (Arithmetic.real_add _ _))

/-- Where the runs of a line of some width begin. -/
noncomputable def exactLeft (placement : Placement) (x w total : ℝ) : ℝ :=
  if placement.center then x + (w / 2 - total / 2) else x + (padding : ℝ)

/-- How far down the runs of a line begin. -/
noncomputable def exactTop (placement : Placement) (y : ℝ) : ℝ :=
  if placement.vcenter then y else y + (padding : ℝ)

/-- A line that is no separator is drawn as its runs, and takes up the height of the last one. -/
lemma draw_issues {line : Text} (hline : isSeparator line = false) (x y w : ℝ) (color : Color)
    (placement : Placement) :
    Issues ruler (draw line config x y w color placement)
      (heightOf ruler config ((leaves line).getLast (leaves_ne_nil line)))
      (tileCommands ruler config
        (exactLeft placement x w ((leaves line).map (widthOf ruler config)).sum)
        (exactTop placement y) color (leaves line)) := by
  have hne := leaves_ne_nil line
  have hpadded (a : ℝ) : Issues ruler (Sketch.ofExcept (Arithmetic.add a (Arithmetic.ofInt padding)))
      (a + (padding : ℝ)) [] := Issues.ofExcept (Arithmetic.real_add a _)
  have hruns (left top : ℝ) : Issues ruler (do
      let extent ← runs (leaves line) left top config color
      pure extent.height) (heightOf ruler config ((leaves line).getLast hne))
      (tileCommands ruler config left top color (leaves line)) :=
    (runs_issues hne).ended (Issues.pure _)
  have hplaced (top : ℝ) : Issues ruler (do
      let left ← if placement.center then centered (leaves line) config x w
        else Sketch.ofExcept (Arithmetic.add x (Arithmetic.ofInt padding))
      let extent ← runs (leaves line) left top config color
      pure extent.height) (heightOf ruler config ((leaves line).getLast hne))
      (tileCommands ruler config
        (exactLeft placement x w ((leaves line).map (widthOf ruler config)).sum) top color
        (leaves line)) := by
    rw [exactLeft]
    cases placement.center with
    | true => exact (centered_issues _).quietly (hruns _ top)
    | false => exact (hpadded x).quietly (hruns _ top)
  rw [draw, hline, if_neg Bool.false_ne_true, exactTop]
  cases placement.vcenter with
  | true => exact (Issues.pure y).quietly (hplaced y)
  | false => exact (hpadded y).quietly (hplaced _)

/-- The runs of a line tile it in exact arithmetic, wherever it is placed and however wide they are. The
line under a run goes from where the run begins to where it ends, and the line is as wide as it was
measured to be when its place was chosen. So a centered line leaves as much space before it as behind
it; any other line begins after the padding. -/
theorem draw_tiles (ruler : Ruler ℝ) (config : Config ℝ) {line : Text}
    (hline : isSeparator line = false) (x y w : ℝ) (color : Color) (placement : Placement) :
    ∃ (placed : List Run) (left total height : ℝ),
      Tiling ruler config (leaves line) left total placed ∧
      (let top := if placement.vcenter then y else y + (padding : ℝ)
       let commands := placed.flatMap (Run.commands ruler config top color)
       Issues ruler (draw line config x y w color placement) height commands ∧
         Issues ruler (runs (leaves line) left top config color) ⟨total, height⟩ commands) ∧
      (∃ widths, Issues ruler (runWidths (leaves line) config) widths [] ∧
        Arithmetic.sum widths = .ok total) ∧
      (placement.center = true →
        left = x + w / 2 - total / 2 ∧ left + total = x + w / 2 + total / 2 ∧
          left - x = x + w - (left + total)) ∧
      (placement.center = false → left = x + (padding : ℝ)) := by
  have hne := leaves_ne_nil line
  refine ⟨tile ruler config _ (leaves line), _, _, _, tiling_tile hne,
    ⟨draw_issues hline x y w color placement, runs_issues hne⟩,
    ⟨_, runWidths_issues _, Arithmetic.real_sum _⟩, fun hcenter => ?_, fun hcenter => ?_⟩
  · rw [exactLeft, if_pos hcenter]
    exact ⟨by ring, by ring, by ring⟩
  · rw [exactLeft, hcenter, if_neg Bool.false_ne_true]

/-- Seven for every character, and fourteen for every line. -/
noncomputable def evenRuler : Ruler ℝ := ⟨fun t _ => 7 * t.length, fun _ => 14⟩

/-- Two runs, each as wide as two characters, in the middle of a hundred. -/
theorem draw_tiles_underlined :
    isSeparator "_ab_ c".toList = false ∧
      ∃ (placed : List Run) (height : ℝ),
        placed.map (fun run => (run.leaf.literal, run.left, run.width)) =
          [("ab".toList, 36, 14), (" c".toList, 50, 14)] ∧
        Issues evenRuler
          (draw "_ab_ c".toList ⟨"serif".toList, 14, 1⟩ 0 0 100 Color.black ⟨true, true⟩) height
          (placed.flatMap (Run.commands evenRuler ⟨"serif".toList, 14, 1⟩ 0 Color.black)) := by
  have hline : isSeparator "_ab_ c".toList = false := by rfl
  obtain ⟨placed, left, total, height, htiling, ⟨hdraw, -⟩, -, hcenter, -⟩ :=
    draw_tiles evenRuler ⟨"serif".toList, 14, 1⟩ hline 0 0 100 Color.black ⟨true, true⟩
  refine ⟨hline, placed, height, ?_, hdraw⟩
  have hleaves : leaves "_ab_ c".toList =
      [⟨{ underline := true }, "ab".toList, false⟩, ⟨{}, " c".toList, false⟩] := by decide +kernel
  rw [hleaves] at htiling
  obtain ⟨hplaced, hmeasured, hadjoining, hstart, hfinish⟩ := htiling
  obtain ⟨a, rest, rfl, ha, hrest⟩ := List.map_eq_cons_iff.1 hplaced
  obtain ⟨b, rest, rfl, hb, hrest⟩ := List.map_eq_cons_iff.1 hrest
  obtain rfl := List.map_eq_nil_iff.1 hrest
  have hfirst : a.width = 14 := by
    rw [hmeasured a (by simp), widthOf, ha]
    change (7 : ℝ) * (2 : ℕ) = 14
    norm_num
  have hsecond : b.width = 14 := by
    rw [hmeasured b (by simp), widthOf, hb]
    change (7 : ℝ) * (2 : ℕ) = 14
    norm_num
  have hnext : a.left + a.width = b.left := by simpa [Run.right] using hadjoining
  have hbegin : a.left = left := by simpa using hstart
  have hend : b.left + b.width = left + total := by simpa [Run.right] using hfinish
  obtain ⟨hleft, -, -⟩ := hcenter rfl
  have hhere : a.left = 36 := by linarith
  have hthere : b.left = 50 := by linarith
  simp [ha, hb, hfirst, hsecond, hhere, hthere]

end UmlDrawing.TextLine
