import UmlDrawing.Proofs.Surface.Sketch
import UmlDrawing.Renderer.Registry

/-! What the built-in renderers do without: they draw on the surface they are given and on no other,
push and pop no states, and ask about the fonts of the settings only. -/
namespace UmlDrawing

variable {α β : Type} [Arithmetic α]

/-- Whether a font is one of the settings. -/
def Config.HasFont (config : Config α) (font : FontStyle α) : Prop :=
  ∃ style, config.font style = .ok font

/-- A sketch that stays on the surface it is given, leaves its states alone and asks about the fonts
of the settings only. -/
abbrev Sketch.Confined (config : Config α) (sketch : Sketch α β) : Prop :=
  sketch.All (fun c => c.movesStates = false) config.HasFont

namespace Sketch.Confined

variable {config : Config α}

lemma drawn {c : Command α} (h : c.movesStates = false) :
    Confined config (Sketch.draw c) :=
  All.draw h

lemma attempt (x : Except Fault β) : Confined config (Sketch.ofExcept x) := All.ofExcept x

lemma colorOf (property : Option Text) (default : Option Color) :
    Confined config (Shape.colorOf (α := α) property default) := by
  refine (attempt _).bind fun result => ?_
  exact (All.report _).bind fun _ => All.pure _

lemma lineColor (e : Element) : Confined config (Shape.lineColor (α := α) e) :=
  (colorOf _ _).bind fun _ => All.pure _

lemma fill (e : Element) : Confined config (Shape.fill (α := α) e) := by
  refine (colorOf _ _).bind fun background => ?_
  split
  · exact All.pure _
  · split
    · exact All.report _
    · exact drawn rfl

lemma stroke (e : Element) : Confined config (Shape.stroke (α := α) e) :=
  (lineColor e).bind fun _ => drawn rfl

lemma finish (e : Element) {outline : Command α} (h : outline.movesStates = false) :
    Confined config (Shape.finish e outline) := by
  refine (drawn rfl).bind fun _ => (drawn h).bind fun _ => ?_
  exact (fill e).bind fun _ => (stroke e).bind fun _ => drawn rfl

lemma separator (x y w : α) (color : Color) : Confined config (Shape.separator x y w color) := by
  refine (drawn rfl).bind fun _ => (drawn rfl).bind fun _ => ?_
  exact (attempt _).bind fun _ => (drawn rfl).bind fun _ => drawn rfl

lemma head (h : ArrowHead α) (color : Color) : Confined config (Shape.head h color) := by
  refine (drawn rfl).bind fun _ => (drawn rfl).bind fun _ => ?_
  dsimp only
  split
  · exact (drawn rfl).bind fun _ => drawn rfl
  · exact (drawn rfl).bind fun _ => drawn rfl
  · exact drawn rfl

lemma lines (g : RelationGeometry α) (color : Color) : Confined config (Shape.lines g color) := by
  rw [Shape.lines]
  split
  · exact All.report _
  · refine (drawn rfl).bind fun _ => (drawn rfl).bind fun _ => ?_
    exact (drawn rfl).bind fun _ => All.forM (fun h => head h color) _

/-- A question about a font of the settings. -/
lemma withFont {style : TextStyle} {next : FontStyle α → Sketch α β}
    (h : ∀ font, config.HasFont font → Confined config (next font)) :
    Confined config (Sketch.ofExcept (config.font style) >>= next) := by
  cases hfont : config.font style with
  | error fault => trivial
  | ok font => exact h font ⟨style, hfont⟩

lemma defaultHeight : Confined config (TextLine.defaultHeight config) :=
  withFont fun _ hfont => All.height hfont

lemma underline (x y width height runWidth : α) (color : Color) :
    Confined config (TextLine.underline x y width height runWidth color) := by
  refine (drawn rfl).bind fun _ => (attempt _).bind fun _ => ?_
  refine (attempt _).bind fun _ => (attempt _).bind fun _ => ?_
  refine (drawn rfl).bind fun _ => (attempt _).bind fun _ => ?_
  exact (drawn rfl).bind fun _ => drawn rfl

lemma run (x y : α) (color : Color) (done : TextLine.Extent α) (leaf : Markup.Leaf) :
    Confined config (TextLine.run x y config color done leaf) := by
  refine withFont fun font hfont => ?_
  refine (All.width hfont).bind fun _ => (All.height hfont).bind fun _ => ?_
  have hrest : ∀ (height runWidth : α), Confined config (do
      let left ← Sketch.ofExcept (Arithmetic.add x done.width)
      Sketch.draw (.text leaf.literal ⟨left, y⟩ font color)
      let width ← Sketch.ofExcept (Arithmetic.add done.width runWidth)
      pure (⟨width, height⟩ : TextLine.Extent α)) := by
    intro height runWidth
    refine (attempt _).bind fun _ => (drawn rfl).bind fun _ => ?_
    exact (attempt _).bind fun _ => All.pure _
  dsimp only
  split
  · exact (underline _ _ _ _ _ _).bind fun _ => hrest _ _
  · exact hrest _ _

lemma runs (leaves : List Markup.Leaf) (x y : α) (color : Color) :
    Confined config (TextLine.runs leaves x y config color) :=
  defaultHeight.bind fun _ => All.foldlM (fun done leaf => run x y color done leaf) _ _

lemma runWidths (leaves : List Markup.Leaf) : Confined config (TextLine.runWidths leaves config) :=
  All.mapM (fun _ => withFont fun _ hfont => All.width hfont) leaves

lemma centered (leaves : List Markup.Leaf) (x w : α) :
    Confined config (TextLine.centered leaves config x w) := by
  refine (runWidths leaves).bind fun _ => (attempt _).bind fun _ => ?_
  refine (attempt _).bind fun _ => (attempt _).bind fun _ => ?_
  exact (attempt _).bind fun _ => attempt _

/-- A line of text. -/
lemma textLine (line : Text) (x y w : α) (color : Color) (placement : TextLine.Placement) :
    Confined config (TextLine.draw line config x y w color placement) := by
  have hrest : ∀ top left : α, Confined config (do
      let extent ← TextLine.runs (Markup.Node.drawable (Markup.Node.parse line)) left top config
        color
      pure extent.height) := by
    intro top left
    exact (runs _ _ _ _).bind fun _ => All.pure _
  have hplaced : ∀ top : α, Confined config (do
      let left ←
        if placement.center then
          TextLine.centered (Markup.Node.drawable (Markup.Node.parse line)) config x w
        else Sketch.ofExcept (Arithmetic.add x (Arithmetic.ofInt TextLine.padding))
      let extent ← TextLine.runs (Markup.Node.drawable (Markup.Node.parse line)) left top config
        color
      pure extent.height) := by
    intro top
    split
    · exact (centered _ _ _).bind fun _ => hrest _ _
    · exact (attempt _).bind fun _ => hrest _ _
  rw [TextLine.draw]
  split
  · refine (separator x y w color).bind fun _ => ?_
    exact defaultHeight.bind fun _ => attempt _
  · dsimp only
    by_cases hv : placement.vcenter = true
    · rw [if_pos hv]
      exact hplaced y
    · rw [if_neg hv]
      exact (attempt _).bind fun _ => hplaced _

/-- A line of the text of an element. -/
lemma compartmentLine (e : Element) (color : Color) (halfLine : α) (state : Renderer.Progress α)
    (line : Text) :
    Confined config (Renderer.compartmentLine e config color halfLine state line) := by
  rw [Renderer.compartmentLine]
  split
  · refine (attempt _).bind fun _ => ?_
    exact (separator _ _ _ _).bind fun _ => All.pure _
  · exact (textLine _ _ _ _ _ _).bind fun _ => (attempt _).bind fun _ => All.pure _

lemma compartments (e : Element) (centerHeading : Bool) :
    Confined config (Renderer.compartments e config centerHeading) := by
  refine (lineColor e).bind fun color => defaultHeight.bind fun _ => ?_
  refine (attempt _).bind fun halfLine => ?_
  refine (All.foldlM (compartmentLine e color halfLine) _ _).bind fun _ => ?_
  exact All.pure _

lemma useCaseLine (e : Element) (color : Color) (lineHeight y : α) (line : Text) :
    Confined config (Renderer.useCaseLine e config color lineHeight y line) := by
  rw [Renderer.useCaseLine]
  split
  · refine (attempt _).bind fun _ => (attempt _).bind fun _ => ?_
    exact (separator _ _ _ _).bind fun _ => All.pure _
  · exact (textLine _ _ _ _ _ _).bind fun _ => attempt _

lemma relationLine (e : Element) (color : Color) (lineHeight x y : α) (line : Text) :
    Confined config (Renderer.relationLine e config color lineHeight x y line) :=
  (textLine _ _ _ _ _ _).bind fun _ => attempt _

lemma relation (e : Element) : Confined config (Renderer.relation e config) := by
  refine All.bind ?_ fun geometry => ?_
  · exact (attempt _).bind fun _ => (All.report _).bind fun _ => attempt _
  · refine (lineColor e).bind fun color => (lines _ _).bind fun _ => ?_
    refine defaultHeight.bind fun lineHeight => (attempt _).bind fun anchor => ?_
    split
    · split
      · exact All.pure _
      · exact All.report _
    · refine (All.foldlM (relationLine e color lineHeight _) _ _).bind fun _ => ?_
      exact All.pure _

lemma useCase (e : Element) : Confined config (Renderer.useCase e config) := by
  refine (finish e rfl).bind fun _ => (lineColor e).bind fun color => ?_
  refine defaultHeight.bind fun lineHeight => (attempt _).bind fun top => ?_
  refine (All.foldlM (useCaseLine e color lineHeight) _ _).bind fun _ => ?_
  exact All.pure _

end Sketch.Confined

/-- All that a built-in renderer draws stays on the surface it is given. -/
theorem BuiltinRenderer.confined (b : BuiltinRenderer) (e : Element) (config : Config α) :
    Sketch.Confined config (b.draw e config) := by
  cases b with
  | plain =>
    exact (Sketch.Confined.finish e rfl).bind fun _ => Sketch.Confined.compartments e false
  | classifier =>
    exact (Sketch.Confined.finish e rfl).bind fun _ => Sketch.Confined.compartments e true
  | useCase => exact Sketch.Confined.useCase e
  | relation => exact Sketch.Confined.relation e

end UmlDrawing
