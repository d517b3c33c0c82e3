import Mathlib.Data.List.Nodup
import Mathlib.Data.List.Perm.Subperm
import UmlDrawing.Proofs.Markup.Texts

/-! How deep runs nest. A run has its own delimiter in it at most as the first character, where no run
can end. So no run inside of it, however deep, has that delimiter again, and there are only three. -/
namespace UmlDrawing.Markup

namespace Node

/-- The text that the children of a run begin with: its delimiter. -/
def opening : List Node → Text
  | leaf l :: _ => l.literal
  | _ => []

mutual

/-- The leaves below a node, each with the delimiters of the runs around it, the outermost first. -/
def trails : Node → List (List Text × Leaf)
  | leaf l => [([], l)]
  | run _ children => (trailsOf children).map fun (around, l) => (opening children :: around, l)

/-- The leaves below some nodes, each with the delimiters of the runs around it. -/
def trailsOf : List Node → List (List Text × Leaf)
  | [] => []
  | n :: ns => trails n ++ trailsOf ns

end

mutual

/-- Every leaf has its trail. -/
lemma map_snd_trails : (n : Node) → (trails n).map Prod.snd = leaves n
  | leaf l => rfl
  | run _ children => by
    have hchildren := map_snd_trailsOf children
    rw [trails, leaves, List.map_map, ← hchildren]
    rfl

lemma map_snd_trailsOf : (ns : List Node) → (trailsOf ns).map Prod.snd = leavesOf ns
  | [] => rfl
  | n :: ns => by
    rw [trailsOf, leavesOf, List.map_append, map_snd_trails n, map_snd_trailsOf ns]

end

-- three runs around one letter; the second asterisk is text
example : (trailsOf (parse "**/_x_/*".toList)).map Prod.fst =
    [["*"], ["*"], ["*", "/"], ["*", "/", "_"], ["*", "/", "_"], ["*", "/", "_"], ["*", "/"],
      ["*"]].map (List.map String.toList) := by
  decide +kernel

end Node

end UmlDrawing.Markup
