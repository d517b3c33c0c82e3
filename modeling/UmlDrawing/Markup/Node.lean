import UmlDrawing.Markup.Segment

/-! Marked up text as a tree. Runs between delimiters are parsed again, so styles nest. The
delimiters stay in the tree as leaves of their own that are never drawn, so that the leaves always
add up to the line. -/
namespace UmlDrawing.Markup

structure Leaf where
  style : TextStyle
  literal : Text
  markup : Bool := false
  deriving DecidableEq, Repr, Inhabited

/-- Marked up text: a leaf, or a run with all that stands inside it and on its borders. -/
inductive Node where
  | leaf (leaf : Leaf)
  | run (style : TextStyle) (children : List Node)
  deriving Repr, Inhabited

namespace Node

mutual

/-- The leaves below a node, from left to right. -/
def leaves : Node → List Leaf
  | leaf l => [l]
  | run _ children => leavesOf children

def leavesOf : List Node → List Leaf
  | [] => []
  | n :: ns => leaves n ++ leavesOf ns

end

def drawable (nodes : List Node) : List Leaf := (leavesOf nodes).filter fun l => !l.markup

def plainText (nodes : List Node) : Text := (drawable nodes).flatMap Leaf.literal

def sourceText (nodes : List Node) : Text := (leavesOf nodes).flatMap Leaf.literal

/-- The leaf that holds a delimiter. -/
def border (style : TextStyle) (e : Emphasis) : Node := leaf ⟨style, [e.delimiter], true⟩

/-- The node of a segment, with the inside of a run parsed by the given parser. -/
def ofSegment (parseInner : TextStyle → Text → List Node) (style : TextStyle) :
    Segment → Node
  | .plain text => leaf ⟨style, text, false⟩
  | .run e inner =>
    let style := style.withEmphasis e
    run style (border style e :: parseInner style inner ++ [border style e])

/-- The nodes of a line in the given style. The fuel bounds the depth of the tree. -/
def parseWithin : Nat → TextStyle → Text → List Node
  | 0, style, line => [leaf ⟨style, line, false⟩]
  | fuel + 1, style, line =>
    match segments line with
    | [] => [leaf ⟨style, [], false⟩]
    | parts => parts.map (ofSegment (parseWithin fuel) style)

/-- The nodes of a line in the style of the run around it. A line without markup is one leaf. -/
def parse (line : Text) (style : TextStyle := {}) : List Node :=
  parseWithin (line.length + 1) style line

@[simp] theorem leavesOf_append (ns ms : List Node) :
    leavesOf (ns ++ ms) = leavesOf ns ++ leavesOf ms := by
  induction ns with
  | nil => simp [leavesOf]
  | cons n ns ih => simp [leavesOf, ih]

@[simp] theorem sourceText_append (ns ms : List Node) :
    sourceText (ns ++ ms) = sourceText ns ++ sourceText ms := by
  simp [sourceText]

@[simp] theorem plainText_append (ns ms : List Node) :
    plainText (ns ++ ms) = plainText ns ++ plainText ms := by
  simp [plainText, drawable]

example : plainText (parse "a *b /c/* d".toList) = "a b c d".toList := by decide +kernel

end Node

end UmlDrawing.Markup
