import UmlDrawing.Raster.Grid
import UmlDrawing.Raster.Pixel

/-! Images in short: as runs of equal pixels, and by the box of all that is visible. -/
namespace UmlDrawing.Raster

/-- Neighbours that are equal, with their number, after the runs so far, which are given
backwards. -/
def runsAfter {α : Type} [DecidableEq α] : List (Nat × α) → List α → List (Nat × α)
  | done, [] => done.reverse
  | [], a :: r => runsAfter [(1, a)] r
  | (n, b) :: done, a :: r =>
    if a = b then runsAfter ((n + 1, b) :: done) r else runsAfter ((1, a) :: (n, b) :: done) r

def runs {α : Type} [DecidableEq α] (values : List α) : List (Nat × α) := runsAfter [] values

/-- The box that some places of rows span: its left, top, right and bottom, the last two exclusive. -/
structure Extent where
  left : Nat
  top : Nat
  right : Nat
  bottom : Nat
  deriving DecidableEq, Repr, Inhabited

namespace Extent

/-- The first value that satisfies a condition, and the one after the last. -/
def span? {α : Type} (p : α → Bool) (values : List α) : Option (Nat × Nat) :=
  if values.any p then some (values.findIdx p, values.length - values.reverse.findIdx p) else none

def of? {α : Type} (p : α → Bool) (rows : List (List α)) : Option Extent := do
  let (top, bottom) ← span? (fun row => row.any p) rows
  let spans := rows.filterMap (span? p)
  let left ← (spans.map (·.1)).min?
  let right ← (spans.map (·.2)).max?
  some ⟨left, top, right, bottom⟩

end Extent

namespace Grid

def toLists {α : Type} (g : Grid α) : List (List α) := g.rows.toList.map (·.toList)

end Grid

def visibleExtent? (image : Grid Pixel) : Option Extent :=
  Extent.of? (fun p => p.a != 0) image.toLists

example : runs [1, 1, 2, 1] = [(2, 1), (1, 2), (1, 1)] := by decide

example : Extent.of? (· == 1) [[0, 0, 0], [0, 1, 0]] = some ⟨1, 1, 2, 2⟩ := by decide

end UmlDrawing.Raster
