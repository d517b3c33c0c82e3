import UmlDrawing.Raster.Stencil
import UmlDrawing.Scalar.Basic

/-! Filled polygons. Every row of pixels is cut with the edges in single precision, and filled
between the first and the second cut, the third and the fourth, and so on. Corners where an edge
meets an earlier one that leaves to the same side are moved so that they stay connected. -/
namespace UmlDrawing.Raster

abbrev Corner := Int × Int

/-- An edge of a polygon: its box, its start, and its columns per row. -/
structure Edge where
  xmin : Int
  xmax : Int
  ymin : Int
  ymax : Int
  x0 : Int
  y0 : Int
  slope : Float32
  deriving Inhabited

namespace Edge

def ofCorners (p q : Corner) : Edge :=
  { xmin := min p.1 q.1
    xmax := max p.1 q.1
    ymin := min p.2 q.2
    ymax := max p.2 q.2
    x0 := p.1
    y0 := p.2
    slope :=
      if p.2 = q.2 then 0 else Float32.ofInt (q.1 - p.1) / Float32.ofInt (q.2 - p.2) }

def isHorizontal (e : Edge) : Bool := e.ymin == e.ymax

def crosses (e : Edge) (y : Int) : Bool := decide (e.ymin ≤ y) && decide (y ≤ e.ymax)

/-- The column where the edge cuts the row. -/
def column (e : Edge) (y : Int) : Float32 :=
  Float32.ofInt (y - e.y0) * e.slope + Float32.ofInt e.x0

/-- Whether two edges lean to the same side. -/
def leansWith (e other : Edge) : Bool :=
  !((decide (0 < e.slope) && decide (other.slope ≤ 0))
    || (decide (e.slope < 0) && decide (0 ≤ other.slope)))

/-- Whether two edges meet in the row, at the upper ends of both or at the lower ends of both. -/
def meetsAt (e other : Edge) (y : Int) : Bool :=
  ((y == e.ymin && y == other.ymin) || (y == e.ymax && y == other.ymax))
    && e.column y == other.column y

end Edge

namespace Polygon

/-- The edges of the corners in turn, after an edge from the given corner that is the last one so
far. A horizontal edge that goes on in the direction of the horizontal edge before it prolongs the
last edge. The edges are given backwards. -/
def edgesAfter (previous : Option Corner) : List Corner → List Edge → List Edge
  | p :: q :: rest, edges =>
    let next := Edge.ofCorners p q
    let edges :=
      match previous, edges with
      | some o, last :: others =>
        if p.2 = q.2 ∧ p.2 = o.2 then
          if p.1 < q.1 ∧ o.1 < p.1 then { last with xmax := q.1 } :: others
          else if q.1 < p.1 ∧ p.1 < o.1 then { last with xmin := q.1 } :: others
          else next :: edges
        else next :: edges
      | _, _ => next :: edges
    edgesAfter (some p) (q :: rest) edges
  | _, edges => edges

/-- The edges of a polygon; the last corner is joined to the first one if they differ. -/
def edges (corners : List Corner) : List Edge :=
  let between := (edgesAfter none corners []).reverse
  match corners.head?, corners.getLast? with
  | some first, some last =>
    if first = last then between else between ++ [Edge.ofCorners last first]
  | _, _ => between

def larger (a b : Float32) : Float32 := if a < b then b else a

def smaller (a b : Float32) : Float32 := if b < a then b else a

/-- The column to which a corner is moved where an edge meets an earlier one: the outermost column
of both edges in the next row, or in the row before if there is none. -/
def joint (bottom : Int) (e other : Edge) (y : Int) : Float32 :=
  let near := if y = bottom then y - 1 else y + 1
  let a := e.column near
  let b := other.column near
  if y = e.ymax then
    if 0 < e.slope then larger a b + 1 else smaller a b - 1
  else if 0 < e.slope then smaller a b
  else larger a b + 1

/-- The cuts of a row with one more edge, the earlier edges being given. The cut that is replaced
where the edge meets an earlier one has the number of that edge. -/
def addCut (bottom y : Int) (earlier : List Edge) (cuts : List Float32) (e : Edge) :
    List Float32 :=
  let cut := e.column y
  let cuts := cuts ++ [cut]
  if y = e.ymax ∧ y < bottom then cuts ++ [cut]
  else if e.slope != 0 && cut.floor == cut then
    match earlier.findIdx? fun other => e.leansWith other && e.meetsAt other y with
    | some k => cuts.set k (joint bottom e (earlier.getD k default) y)
    | none => cuts
  else cuts

def cutsFrom (bottom y : Int) : (earlier rest : List Edge) → List Float32 → List Float32
  | _, [], cuts => cuts
  | earlier, e :: rest, cuts =>
    let cuts := if e.crosses y then addCut bottom y earlier cuts e else cuts
    cutsFrom bottom y (earlier ++ [e]) rest cuts

/-- The integer part of a number, the least one if it has none. -/
def wholePart (v : Float32) : Int :=
  match (Scalar.real v.toFloat).floor with
  | .ok n => n
  | .error _ => -2147483648

/-- The first pixel after a cut: a half goes away from zero. -/
def firstPixel (v : Float32) : Int :=
  if 0 ≤ v then wholePart (v + 0.5) else -wholePart (v.abs + 0.5)

/-- The last pixel before a cut: a half goes towards zero. -/
def lastPixel (v : Float32) : Int :=
  if 0 ≤ v then wholePart (v - 0.5).ceil else -wholePart (v.abs - 0.5).ceil

/-- The stretches between the cuts, taken in pairs. -/
def spansOf : List Float32 → List Span
  | a :: b :: rest => ⟨firstPixel a, lastPixel b⟩ :: spansOf rest
  | _ => []

/-- The pixels of a filled polygon. Horizontal edges are filled as they are; the other edges cut
the rows between the first and the last one. -/
def stencil (corners : List Corner) : Stencil :=
  let all := edges corners
  let flat := all.filter Edge.isHorizontal
  let steep := all.filter fun e => !e.isHorizontal
  let top := (all.map Edge.ymin).min?.getD 0
  let bottom := (all.map Edge.ymax).foldl max 0
  fun y =>
    (flat.filter fun e => e.ymin == y).map (fun e => ⟨e.xmin, e.xmax⟩) ++
      if top ≤ y ∧ y ≤ bottom then
        spansOf ((cutsFrom bottom y [] steep []).mergeSort fun a b => decide (a ≤ b))
      else []

end Polygon

end UmlDrawing.Raster
