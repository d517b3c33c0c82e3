import Mathlib.Data.List.Chain
import UmlDrawing.Proofs.Markup.Texts

/-! What is left as text has no markup: each leaf that is drawn, looked at alone, is one leaf again.
Leaves are not cut more often than runs make it necessary. -/
namespace UmlDrawing.Markup

namespace Node

mutual

/-- The lists of children below a node. -/
def childLists : Node → List (List Node)
  | leaf _ => []
  | run _ children => children :: childListsOf children

/-- The lists of children below some nodes. -/
def childListsOf : List Node → List (List Node)
  | [] => []
  | n :: ns => childLists n ++ childListsOf ns

end

/-- Whether the node is a stretch of text that is drawn. -/
def IsPlain : Node → Prop
  | leaf l => l.markup = false
  | run _ _ => False

lemma mem_leavesOf_iff {ns : List Node} {l : Leaf} : l ∈ leavesOf ns ↔ ∃ n ∈ ns, l ∈ leaves n := by
  induction ns with
  | nil => simp [leavesOf]
  | cons n ns ih => simp [leavesOf, ih]

lemma mem_childListsOf_iff {ns children : List Node} :
    children ∈ childListsOf ns ↔ ∃ n ∈ ns, children ∈ childLists n := by
  induction ns with
  | nil => simp [childListsOf]
  | cons n ns ih => simp [childListsOf, ih]

/-- The leaves of a run are its delimiters and the leaves of its inside. -/
lemma mem_leaves_run {style : TextStyle} {e : Emphasis} {inner : List Node} {l : Leaf}
    (h : l ∈ leaves (run style (border style e :: inner ++ [border style e]))) :
    l = ⟨style, [e.delimiter], true⟩ ∨ ∃ n ∈ inner, l ∈ leaves n := by
  rw [leaves] at h
  obtain ⟨n, hn, hl⟩ := mem_leavesOf_iff.1 h
  obtain rfl | hinner := mem_children_iff.1 hn
  · exact .inl (List.mem_singleton.1 hl)
  · exact .inr ⟨n, hinner, hl⟩

lemma parse_nil (style : TextStyle) : parse [] style = [leaf ⟨style, [], false⟩] := rfl

/-- A plain stretch of a line is parsed to itself. -/
lemma parse_of_plain_mem_segments {line text : Text} (h : .plain text ∈ segments line)
    (style : TextStyle) : parse text style = [leaf ⟨style, text, false⟩] := by
  obtain ⟨-, halone⟩ := sound_of_mem_segments _ h
  rw [parse_eq, halone]
  rfl

lemma parse_leaf (line : Text) (style : TextStyle) :
    ∀ n ∈ parse line style, ∀ l ∈ leaves n, l.markup = false →
      parse l.literal l.style = [leaf l] := by
  refine parse_induction (P := fun _ _ n => ∀ l ∈ leaves n, l.markup = false →
    parse l.literal l.style = [leaf l]) ?empty ?plain ?run line style
  case empty =>
    intro style l hl _
    obtain rfl := List.mem_singleton.1 hl
    exact parse_nil style
  case plain =>
    intro line style text htext l hl _
    obtain rfl := List.mem_singleton.1 hl
    exact parse_of_plain_mem_segments htext style
  case run =>
    intro line style e inner _ ih l hl hdrawn
    obtain rfl | ⟨n, hn, hl⟩ := mem_leaves_run hl
    · cases hdrawn
    · exact ih n hn l hl hdrawn

lemma literal_ne_nil (line : Text) (style : TextStyle) :
    ∀ n ∈ parse line style, line ≠ [] → ∀ l ∈ leaves n, l.literal ≠ [] := by
  refine parse_induction (P := fun line _ n => line ≠ [] → ∀ l ∈ leaves n, l.literal ≠ [])
    ?empty ?plain ?run line style
  case empty =>
    intro style hne
    exact absurd rfl hne
  case plain =>
    intro line style text htext _ l hl
    obtain rfl := List.mem_singleton.1 hl
    exact (sound_of_mem_segments _ htext).1
  case run =>
    intro line style e inner hrun ih _ l hl
    obtain rfl | ⟨n, hn, hl⟩ := mem_leaves_run hl
    · exact List.cons_ne_nil _ _
    · exact ih n hn (sound_of_mem_segments _ hrun).1 l hl

/-! Neighbours. -/

/-- A list of nodes no two neighbours of which could be one leaf. -/
def Separated (ns : List Node) : Prop := ns.IsChain fun m n => ¬ (m.IsPlain ∧ n.IsPlain)

lemma separated_parse (line : Text) (style : TextStyle) : Separated (parse line style) := by
  rw [parse_eq, Separated]
  split
  · exact List.isChain_singleton _
  · refine List.isChain_map_of_isChain _ ?_ (isChain_apart_segments line)
    intro first second hapart
    cases first with
    | plain text =>
      cases second with
      | plain text => exact hapart.elim
      | run e inner => simp [ofSegment, IsPlain]
    | run e inner => simp [ofSegment, IsPlain]

lemma not_isPlain_border (style : TextStyle) (e : Emphasis) : ¬ (border style e).IsPlain := by
  simp [border, IsPlain]

lemma separated_run {ns : List Node} (h : Separated ns) (style : TextStyle) (e : Emphasis) :
    Separated (border style e :: ns ++ [border style e]) := by
  have hborder := not_isPlain_border style e
  refine List.isChain_append.2
    ⟨List.isChain_cons.2 ⟨fun n _ hboth => hborder hboth.1, h⟩, List.isChain_singleton _, ?_⟩
  intro m _ n hn hboth
  obtain rfl : border style e = n := by simpa using hn
  exact hborder hboth.2

lemma separated_childLists (line : Text) (style : TextStyle) :
    ∀ n ∈ parse line style, ∀ children ∈ childLists n, Separated children := by
  refine parse_induction (P := fun _ _ n => ∀ children ∈ childLists n, Separated children)
    ?empty ?plain ?run line style
  case empty => exact fun style children hchildren => absurd hchildren List.not_mem_nil
  case plain => exact fun line style text _ children hchildren => absurd hchildren List.not_mem_nil
  case run =>
    intro line style e inner _ ih children hchildren
    rw [childLists] at hchildren
    obtain rfl | hdeeper := List.mem_cons.1 hchildren
    · exact separated_run (separated_parse inner _) _ e
    · obtain ⟨n, hn, hchildren⟩ := mem_childListsOf_iff.1 hdeeper
      obtain rfl | hinner := mem_children_iff.1 hn
      · exact absurd hchildren List.not_mem_nil
      · exact ih n hinner children hchildren

/-- Every leaf that is drawn, parsed alone in its style, is that leaf again. A line that is not empty
has no empty leaves, and nowhere in its tree are two leaves that are drawn next to each other. -/
theorem parse_of_mem_drawable (line : Text) (style : TextStyle) :
    (∀ l ∈ drawable (parse line style), parse l.literal l.style = [leaf l]) ∧
      (line ≠ [] → ∀ l ∈ leavesOf (parse line style), l.literal ≠ []) ∧
      ∀ ns ∈ parse line style :: childListsOf (parse line style), Separated ns := by
  refine ⟨fun l hl => ?_, fun hne l hl => ?_, fun ns hns => ?_⟩
  · obtain ⟨hl, hdrawn⟩ := List.mem_filter.1 hl
    obtain ⟨n, hn, hl⟩ := mem_leavesOf_iff.1 hl
    exact parse_leaf line style n hn l hl (by simpa using hdrawn)
  · obtain ⟨n, hn, hl⟩ := mem_leavesOf_iff.1 hl
    exact literal_ne_nil line style n hn hne l hl
  · obtain rfl | hdeeper := List.mem_cons.1 hns
    · exact separated_parse line style
    · obtain ⟨n, hn, hns⟩ := mem_childListsOf_iff.1 hdeeper
      exact separated_childLists line style n hn ns hns

-- the second asterisk is text, and so is the stroke after the letter
example : drawable (parse "**a/*b/".toList) =
    [⟨{ bold := true }, "*a/".toList, false⟩, ⟨{}, "b/".toList, false⟩] := by
  decide +kernel

end Node

end UmlDrawing.Markup
