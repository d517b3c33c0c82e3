import UmlDrawing.Markup.Node
import UmlDrawing.Proofs.Markup.Segments

/-! What the tree of a line says about the line. The leaves in order are the line; the leaves that
are not drawn are the first and the last leaf of every run, each of them one delimiter, and no
others. Runs are parsed by recursion on their inside, which is shorter than the line. -/
namespace UmlDrawing.Markup

namespace Node

/-- More fuel than characters changes nothing. -/
lemma parseWithin_eq_parseWithin {m n : Nat} {line : Text} (style : TextStyle)
    (hm : line.length < m) (hn : line.length < n) :
    parseWithin m style line = parseWithin n style line := by
  induction m generalizing n line style with
  | zero => omega
  | succ m ih =>
    obtain ⟨n, rfl⟩ : ∃ k, n = k + 1 := ⟨n - 1, by omega⟩
    simp only [parseWithin]
    split
    · rfl
    · apply List.map_congr_left
      intro part hpart
      cases part with
      | plain text => rfl
      | run e inner =>
        have hinner := length_of_run_mem_segments hpart
        simp only [ofSegment]
        rw [ih (style.withEmphasis e) (n := n) (by omega) (by omega)]

/-- The tree of a line in terms of the trees of its runs, without fuel. -/
theorem parse_eq (line : Text) (style : TextStyle) :
    parse line style =
      match segments line with
      | [] => [leaf ⟨style, [], false⟩]
      | parts => parts.map (ofSegment (fun style inner => parse inner style) style) := by
  rw [parse, parseWithin]
  cases hparts : segments line with
  | nil => rfl
  | cons part parts =>
    apply List.map_congr_left
    intro part hpart
    rw [← hparts] at hpart
    cases part with
    | plain text => rfl
    | run e inner =>
      have hinner := length_of_run_mem_segments hpart
      simp only [ofSegment, parse]
      rw [parseWithin_eq_parseWithin (n := inner.length + 1) _ (by omega) (by omega)]

/-- Induction over lines. What is said of a node may depend on the line it belongs to and on the style
of that line: it holds of the plain leaves, and passes from the inside of a run to the run. -/
theorem parse_induction {P : Text → TextStyle → Node → Prop}
    (empty : ∀ style, P [] style (leaf ⟨style, [], false⟩))
    (plain : ∀ line style text, .plain text ∈ segments line →
      P line style (leaf ⟨style, text, false⟩))
    (run : ∀ line style e inner, .run e inner ∈ segments line →
      (∀ n ∈ parse inner (style.withEmphasis e), P inner (style.withEmphasis e) n) →
      P line style (.run (style.withEmphasis e) (border (style.withEmphasis e) e ::
        parse inner (style.withEmphasis e) ++ [border (style.withEmphasis e) e])))
    (line : Text) (style : TextStyle) : ∀ n ∈ parse line style, P line style n := by
  induction hlength : line.length using Nat.strongRecOn generalizing line style with
  | ind length ih =>
    intro n hn
    rw [parse_eq] at hn
    split at hn
    · next hnone =>
      have hline := flatMap_source_segments line
      rw [hnone] at hline
      obtain rfl := List.mem_singleton.1 hn
      rw [← hline]
      exact empty style
    · obtain ⟨part, hpart, rfl⟩ := List.mem_map.1 hn
      cases part with
      | plain text => exact plain line style text hpart
      | run e inner =>
        have hinner := length_of_run_mem_segments hpart
        exact run line style e inner hpart (ih inner.length (by omega) inner _ rfl)

/-- The children of a run are its two delimiters and what it has inside. -/
lemma mem_children_iff {style : TextStyle} {e : Emphasis} {inner : List Node} {n : Node} :
    n ∈ border style e :: inner ++ [border style e] ↔ n = border style e ∨ n ∈ inner := by
  rw [List.mem_append, List.mem_cons, List.mem_singleton]
  tauto

/-- A tree in which exactly the first and the last child of every run are delimiters, both of the
same kind. -/
inductive Delimited : Node → Prop
  | leaf (style : TextStyle) (text : Text) : Delimited (leaf ⟨style, text, false⟩)
  | run (style : TextStyle) (e : Emphasis) (inner : List Node) (h : ∀ n ∈ inner, Delimited n) :
    Delimited (run style (border style e :: inner ++ [border style e]))

theorem delimited_of_mem_parse (line : Text) (style : TextStyle) :
    ∀ n ∈ parse line style, n.Delimited :=
  parse_induction (P := fun _ _ => Delimited) (fun style => .leaf style [])
    (fun _ style text _ => .leaf style text) (fun _ _ e _ _ => .run _ e _) line style

mutual

/-- The leaves below a node without the first and the last leaf of every run. -/
def inside : Node → List Leaf
  | leaf l => [l]
  | run _ children => (insideOf children).tail.dropLast

/-- The leaves below some nodes without the first and the last leaf of every run. -/
def insideOf : List Node → List Leaf
  | [] => []
  | n :: ns => inside n ++ insideOf ns

end

@[simp] lemma insideOf_append (ns ms : List Node) :
    insideOf (ns ++ ms) = insideOf ns ++ insideOf ms := by
  induction ns with
  | nil => rfl
  | cons n ns ih => simp only [List.cons_append, insideOf, ih, List.append_assoc]

@[simp] lemma drawable_cons (n : Node) (ns : List Node) :
    drawable (n :: ns) = drawable [n] ++ drawable ns := by
  simp [drawable, leavesOf]

lemma drawable_eq_insideOf {ns : List Node} (h : ∀ n ∈ ns, drawable [n] = inside n) :
    drawable ns = insideOf ns := by
  induction ns with
  | nil => rfl
  | cons n ns ih =>
    rw [drawable_cons, insideOf, h n (by simp), ih fun m hm => h m (by simp [hm])]

/-- What is drawn of a run is what stands between its delimiters. -/
lemma drawable_run (style : TextStyle) (e : Emphasis) (inner : List Node) :
    drawable [run style (border style e :: inner ++ [border style e])] = drawable inner := by
  simp [drawable, leavesOf, leaves, border]

lemma inside_run (style : TextStyle) (e : Emphasis) (inner : List Node) :
    inside (run style (border style e :: inner ++ [border style e])) = insideOf inner := by
  simp [inside, insideOf, border]

theorem Delimited.drawable_eq_inside {n : Node} (h : n.Delimited) : drawable [n] = inside n := by
  induction h with
  | leaf style text => simp [drawable, leavesOf, leaves, inside]
  | run style e inner _ ih => rw [drawable_run, inside_run, drawable_eq_insideOf ih]

@[simp] lemma sourceText_cons (n : Node) (ns : List Node) :
    sourceText (n :: ns) = sourceText [n] ++ sourceText ns :=
  sourceText_append [n] ns

lemma sourceText_run (style : TextStyle) (e : Emphasis) (inner : List Node) :
    sourceText [run style (border style e :: inner ++ [border style e])] =
      e.delimiter :: sourceText inner ++ [e.delimiter] := by
  simp [sourceText, leavesOf, leaves, border]

lemma sourceText_ofSegment {parseInner : TextStyle → Text → List Node}
    (h : ∀ style inner, sourceText (parseInner style inner) = inner) (style : TextStyle)
    (part : Segment) : sourceText [ofSegment parseInner style part] = part.source := by
  cases part with
  | plain text => simp [ofSegment, sourceText, leavesOf, leaves, Segment.source]
  | run e inner => simp only [ofSegment, sourceText_run, h, Segment.source]

lemma sourceText_map_ofSegment {parseInner : TextStyle → Text → List Node}
    (h : ∀ style inner, sourceText (parseInner style inner) = inner) (style : TextStyle)
    (parts : List Segment) :
    sourceText (parts.map (ofSegment parseInner style)) = parts.flatMap Segment.source := by
  induction parts with
  | nil => rfl
  | cons part parts ih =>
    rw [List.map_cons, sourceText_cons, ih, sourceText_ofSegment h, List.flatMap_cons]

/-- The leaves make up the line, however much fuel there is. -/
lemma sourceText_parseWithin (fuel : Nat) (style : TextStyle) (line : Text) :
    sourceText (parseWithin fuel style line) = line := by
  induction fuel generalizing style line with
  | zero => simp [parseWithin, sourceText, leavesOf, leaves]
  | succ fuel ih =>
    have hline := flatMap_source_segments line
    simp only [parseWithin]
    split
    · next h =>
      rw [h] at hline
      simpa [sourceText, leavesOf, leaves] using hline
    · rw [sourceText_map_ofSegment ih, hline]

/-- The leaves of a parsed line, from left to right, make up the line. Only the delimiters at both
ends of every run are marked as such, and the visible text is that of the leaves without them. -/
theorem sourceText_and_plainText_parse (line : Text) (style : TextStyle) :
    sourceText (parse line style) = line ∧
      (∀ n ∈ parse line style, n.Delimited) ∧
      plainText (parse line style) = (insideOf (parse line style)).flatMap Leaf.literal := by
  have hdelimited := delimited_of_mem_parse line style
  refine ⟨sourceText_parseWithin _ _ _, hdelimited, ?_⟩
  rw [plainText, drawable_eq_insideOf fun n hn => (hdelimited n hn).drawable_eq_inside]

end Node

end UmlDrawing.Markup
