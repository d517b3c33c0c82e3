/-! Rectangles of values, row by row. -/
namespace UmlDrawing.Raster

structure Grid (α : Type) where
  width : Nat
  height : Nat
  rows : Vector (Vector α width) height

namespace Grid

variable {α : Type}

def replicate (width height : Nat) (a : α) : Grid α :=
  ⟨width, height, Vector.replicate height (Vector.replicate width a)⟩

instance [Inhabited α] : Inhabited (Grid α) := ⟨replicate 0 0 default⟩

def get? (g : Grid α) (x y : Nat) : Option α := g.rows[y]?.bind (·[x]?)

/-- The values changed row by row; a row may be left as it is. -/
def change (g : Grid α) (f : (y : Nat) → Option ((x : Nat) → α → α)) : Grid α :=
  { g with
    rows := g.rows.mapIdx fun y row =>
      match f y with
      | none => row
      | some h => row.mapIdx h }

@[simp] theorem width_change (g : Grid α) (f : (y : Nat) → Option ((x : Nat) → α → α)) :
    (g.change f).width = g.width := rfl

@[simp] theorem height_change (g : Grid α) (f : (y : Nat) → Option ((x : Nat) → α → α)) :
    (g.change f).height = g.height := rfl

/-- A change of rows is a change of every value of its own. -/
theorem get?_change (g : Grid α) (f : (y : Nat) → Option ((x : Nat) → α → α)) (x y : Nat) :
    (g.change f).get? x y = (g.get? x y).map ((f y).elim id (· x)) := by
  unfold get? change
  by_cases hy : y < g.height
  · simp only [Vector.getElem?_eq_getElem hy, Vector.getElem_mapIdx, Option.bind_some]
    cases hf : f y with
    | none => simp
    | some h => simp [Vector.getElem?_mapIdx]
  · simp [Vector.getElem?_eq_none (Nat.le_of_not_lt hy)]

theorem get?_replicate {width height : Nat} {a : α} {x y : Nat} (hx : x < width)
    (hy : y < height) : (replicate width height a).get? x y = some a := by
  show (Vector.replicate height (Vector.replicate width a))[y]?.bind (·[x]?) = some a
  simp [hx, hy]

end Grid

end UmlDrawing.Raster
