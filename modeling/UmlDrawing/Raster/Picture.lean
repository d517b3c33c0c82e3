import UmlDrawing.Line.Dashes
import UmlDrawing.Raster.Grid
import UmlDrawing.Raster.Pixel
import UmlDrawing.Raster.Polygon
import UmlDrawing.Raster.Size
import UmlDrawing.Surface.Medium

/-! Images as drawing surfaces. Whatever is painted is masked with the clip region and laid over the
image as a whole, so where parts of it overlap they count once. -/
namespace UmlDrawing.Raster

/-- An image, and the mask that painting is restricted to. -/
structure Picture where
  image : Grid Pixel
  clip : Option (Grid Level) := none
  deriving Inhabited

namespace Picture

/-- What is painted at a place: a paint for every row that has any. -/
abbrev Overlay := (row : Nat) → Option ((column : Nat) → Pixel)

def masked (clip : Option (Grid Level)) (x y : Nat) (paint : Pixel) : Pixel :=
  match clip with
  | none => paint
  | some mask => paint.masked ((mask.get? x y).getD 0)

def lay (p : Picture) (overlay : Overlay) : Picture :=
  { p with
    image := p.image.change fun y =>
      (overlay y).map fun paint x old => (masked p.clip x y (paint x)).onto old }

def inked (s : Stencil) (ink : Pixel) : Overlay := fun y =>
  match s y with
  | [] => none
  | spans => some fun x => if spans.any (·.contains x) then ink else .transparent

def maskOf (width height : Nat) (s : Stencil) : Grid Level :=
  (Grid.replicate width height 0).change fun y =>
    match s y with
    | [] => none
    | spans => some fun x _ => if spans.any (·.contains x) then 255 else 0

/-- The mask where a former mask lets it through. -/
def within (mask : Grid Level) : Option (Grid Level) → Grid Level
  | none => mask
  | some former =>
    mask.change fun y => some fun x level => scaleLevel level ((former.get? x y).getD 0)

def restrict (p : Picture) (s : Stencil) : Picture :=
  { p with clip := some (within (maskOf p.image.width p.image.height s) p.clip) }

/-- The pixels of another image at an offset. -/
def shifted (image : Grid Pixel) (dx dy : Int) : Overlay := fun y =>
  let row := (y : Int) - dy
  if row < 0 ∨ (image.height : Int) ≤ row then none
  else some fun x =>
    let column := (x : Int) - dx
    if column < 0 then .transparent else (image.get? column.toNat row.toNat).getD .transparent

/-- The pixel of a coordinate: its integer part, or the least one if it has none. -/
def cell (a : Scalar) : Except Fault Int := do
  let x ← a.toFloat
  match (Scalar.real x).truncate with
  | .ok n => pure (if isCoordinate n then n else -maxCoordinate - 1)
  | .error _ => pure (-maxCoordinate - 1)

def corner (v : Vec Scalar) : Except Fault Corner := do
  let x ← cell v.x
  let y ← cell v.y
  pure (x, y)

/-- The pieces of a path that have an inside. -/
def areas (path : List (Subpath Scalar)) : List (Subpath Scalar) :=
  path.filter fun s => 3 ≤ s.points.length

def polygons (path : List (Subpath Scalar)) : Except Fault Stencil := do
  let stencils ← (areas path).mapM fun s => do
    let corners ← s.points.mapM corner
    pure (Polygon.stencil corners)
  pure (Stencil.union stencils)

/-- The points of a piece of a path, back to the first one if it is closed. -/
def outline (s : Subpath Scalar) : List (Vec Scalar) :=
  if s.closed then s.points ++ s.points.head?.toList else s.points

/-- The straight pieces that are drawn of a path. -/
def strokes (path : List (Subpath Scalar)) (dash : List Scalar) :
    Except Fault (List (Dashes.Segment Scalar)) := do
  let pieces ← path.mapM fun s => Dashes.ofPolyline (outline s) dash
  pure pieces.flatten

def lines (pieces : List (Dashes.Segment Scalar)) : Except Fault Stencil := do
  let stencils ← pieces.mapM fun (a, b) => do
    let p ← corner a
    let q ← corner b
    pure (LineSegment.stencil ⟨p.1, p.2, q.1, q.2⟩)
  pure (Stencil.union stencils)

def offset (image : Grid Pixel) (position : Vec Scalar) : Except Fault (Int × Int) := do
  let x ← position.x.round
  let y ← position.y.round
  if isCoordinate x && isCoordinate y && isCoordinate (x + image.width)
      && isCoordinate (y + image.height) then
    pure (x, y)
  else .error .pixelOverflow

/-- An empty picture with at least one pixel. -/
def start (size : Vec Scalar) : Except Fault Picture := do
  let w ← size.x.ceil
  let h ← size.y.ceil
  let (w, h) ← imageSize (max w 1) (max h 1)
  pure { image := Grid.replicate w h .transparent }

/-- Lays paint over the picture, if there is any paint. -/
def paint (overlay : Except Fault Overlay) : Action (Canvas Picture Unit) Unit := do
  let o ← Action.ofExcept overlay
  modify fun (shared, p) => (shared, p.lay o)

def areaPaint (path : List (Subpath Scalar)) (color : Color) (alpha : Scalar) :
    Except Fault Overlay := do
  let faded ← color.withAlpha alpha
  let ink ← Pixel.ofColor faded
  let s ← polygons path
  pure (inked s ink)

def linePaint (pieces : List (Dashes.Segment Scalar)) (color : Color) : Except Fault Overlay := do
  let ink ← Pixel.ofColor color
  let s ← lines pieces
  pure (inked s ink)

def textPaint (font : Font) (t : Text) (position : Vec Scalar) (color : Color) :
    Except Fault Overlay := do
  let ink ← Pixel.ofColor color
  let s ← font.stencil t position
  pure (inked s ink)

def imagePaint (image : Grid Pixel) (position : Vec Scalar) : Except Fault Overlay := do
  let (dx, dy) ← offset image position
  pure (shifted image dx dy)

def fill (path : List (Subpath Scalar)) (color : Color) (alpha : Scalar) :
    Action (Canvas Picture Unit) Unit :=
  if (areas path).isEmpty then pure ()
  else paint (areaPaint path color alpha)

def stroke (path : List (Subpath Scalar)) (color : Color) (dash : List Scalar) :
    Action (Canvas Picture Unit) Unit := do
  let pieces ← Action.ofExcept (strokes path dash)
  if pieces.isEmpty then pure ()
  else paint (linePaint pieces color)

def clipTo (path : List (Subpath Scalar)) : Action (Canvas Picture Unit) Unit := do
  let s ← Action.ofExcept (polygons path)
  modify fun (shared, p) => (shared, p.restrict s)

/-- A text is set in its font, if there is anything of it. -/
def text (t : Text) (color : Color) : Lettering Picture Unit :=
  if t = [] then .written fun _ => pure ()
  else .set fun font position => paint (textPaint font t position color)

def place (placed : Picture) (position : Vec Scalar) : Action (Canvas Picture Unit) Unit :=
  paint (imagePaint placed.image position)

instance : Medium Picture Unit (Option (Grid Level)) where
  root size := do
    let p ← start size
    pure ((), p)
  create size _ := do
    let p ← start size
    pure ((), p)
  save p := p.clip
  restore clip p := { p with clip := clip }
  fill := fill
  stroke := stroke
  clip := clipTo
  text t _ color := text t color
  place _ := place

end Picture

end UmlDrawing.Raster
