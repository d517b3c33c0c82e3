/-! Sets of pixels, given by the stretches of every row, and the sets that are boxes and lines. -/
namespace UmlDrawing.Raster

/-- A stretch of a row, with both its ends; it is empty if they are out of order. -/
structure Span where
  first : Int
  last : Int
  deriving DecidableEq, Repr, Inhabited

abbrev Stencil := (row : Int) → List Span

namespace Span

def contains (s : Span) (x : Int) : Bool := decide (s.first ≤ x) && decide (x ≤ s.last)

end Span

namespace Stencil

def contains (s : Stencil) (x y : Int) : Bool := (s y).any (·.contains x)

def union (stencils : List Stencil) : Stencil := fun y => stencils.flatMap (· y)

def box (x y columns rows : Int) : Stencil := fun row =>
  if y ≤ row ∧ row < y + rows ∧ 0 < columns then [⟨x, x + columns - 1⟩] else []

@[simp] theorem contains_union (stencils : List Stencil) (x y : Int) :
    contains (union stencils) x y = stencils.any (contains · x y) := by
  simp [contains, union, List.any_flatMap]

end Stencil

structure LineSegment where
  x0 : Int
  y0 : Int
  x1 : Int
  y1 : Int
  deriving DecidableEq, Repr, Inhabited

namespace LineSegment

def columns (s : LineSegment) : Int := (s.x1 - s.x0).natAbs

def rows (s : LineSegment) : Int := (s.y1 - s.y0).natAbs

/-- One step in the direction of a difference; forward if there is none. -/
def stepOf (d : Int) : Int := if d < 0 then -1 else 1

/-- The distance along the short axis at a distance along the long one: the exact distance to the
nearest integer, a tie away from the start. -/
def across (long short along : Int) : Int := (2 * short * along + long) / (2 * long)

/-- The least distance along the long axis at which the distance along the short one is at least
`k`, for a short axis that is not empty. -/
def reach (long short k : Int) : Int := -((long * (1 - 2 * k)) / (2 * short))

def stretch (s : LineSegment) (lo hi : Int) : Span :=
  if s.x1 < s.x0 then ⟨s.x0 - hi, s.x0 - lo⟩ else ⟨s.x0 + lo, s.x0 + hi⟩

/-- The stretch of a line in a row, if the line is more wide than high. -/
def flatSpan (s : LineSegment) (k : Int) : Span :=
  if s.rows = 0 then s.stretch 0 s.columns
  else
    s.stretch (max 0 (reach s.columns s.rows k))
      (min s.columns (reach s.columns s.rows (k + 1) - 1))

/-- The pixel of a line in a row, if the line is at least as high as wide. -/
def steepSpan (s : LineSegment) (k : Int) : Span :=
  let x := s.x0 + stepOf (s.x1 - s.x0) * across s.rows s.columns k
  ⟨x, x⟩

/-- The pixels of a line: one for every step along its long axis. -/
def stencil (s : LineSegment) : Stencil := fun row =>
  let k := (row - s.y0) * stepOf (s.y1 - s.y0)
  if k < 0 ∨ s.rows < k then []
  else if s.rows < s.columns then [s.flatSpan k]
  else [s.steepSpan k]

example : (List.range 3).map (fun (y : Nat) => stencil ⟨0, 0, 5, 2⟩ y) =
    [[⟨0, 1⟩], [⟨2, 3⟩], [⟨4, 5⟩]] := by decide

end LineSegment

end UmlDrawing.Raster
