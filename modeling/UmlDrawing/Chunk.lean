/-! Lists cut into pieces of equal length. -/
namespace UmlDrawing.Chunk

variable {α : Type}

/-- What becomes of a last piece that is too short: it is filled up, or left out. -/
def last (n : Nat) (pad : Bool) (piece : List α) : List (List (Option α)) :=
  if pad && !piece.isEmpty then
    [piece.map some ++ List.replicate (n - piece.length) none]
  else []

/-- The pieces of a list of which the given items of the current piece were already taken. -/
def after (n : Nat) (pad : Bool) (piece : List α) : List α → List (List (Option α))
  | [] => last n pad piece
  | a :: r =>
    let piece' := piece ++ [a]
    if piece'.length = n then piece'.map some :: after n pad [] r else after n pad piece' r

/-- The consecutive pieces of `n` items. Items left over are filled up with missing ones if `pad`
is set, and dropped otherwise. -/
def ofList (n : Nat) (pad : Bool) (items : List α) : List (List (Option α)) :=
  after n pad [] items

@[simp] theorem ofList_nil (n : Nat) (pad : Bool) : ofList n pad ([] : List α) = [] := by
  simp [ofList, after, last]

example : ofList 2 true [1, 2, 3] = [[some 1, some 2], [some 3, none]] := by decide

example : ofList 2 false [1, 2, 3] = [[some 1, some 2]] := by decide

end UmlDrawing.Chunk
