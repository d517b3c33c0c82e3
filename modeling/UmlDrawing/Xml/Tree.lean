import UmlDrawing.Xml.Character

/-! Markup documents as trees. -/
namespace UmlDrawing.Xml

abbrev Attribute := Text × Text

/-- A node of a document. Elements that were read have expanded names; those that are to be written
have names as they stand in markup. -/
inductive Node where
  | element (name : Text) (attributes : List Attribute) (children : List Node)
  | text (content : Text)
  | comment (content : Text)
  | instruction (target content : Text)
  | reference (name : Text)
  deriving Repr, Inhabited

namespace Node

/-- The part of an expanded name after its resource, which ends with the first brace. It has to be a
name without a colon. -/
def localName? (name : Text) : Option Text :=
  let part :=
    match name with
    | '\x7b' :: r => ((Text.cut? '\x7d' r).map (·.2)).getD []
    | _ => name
  match part with
  | c :: r =>
    if isNameStart c && r.all isNameChar && !part.elem ':' then some part else none
  | [] => none

def children : Node → List Node
  | element _ _ children => children
  | _ => []

mutual

/-- The text of a node with all that is inside it. References stand for themselves; comments and
processing instructions have no text. -/
def textContent : Node → Text
  | element _ _ children => textOf children
  | text content => content
  | comment _ => []
  | instruction .. => []
  | reference name => '&' :: name ++ [';']

def textOf : List Node → Text
  | [] => []
  | n :: ns => textContent n ++ textOf ns

end

@[simp] theorem textOf_append (ns ms : List Node) : textOf (ns ++ ms) = textOf ns ++ textOf ms := by
  induction ns with
  | nil => simp [textOf]
  | cons n ns ih => simp [textOf, ih]

example : localName? "\x7bu\x7da".toList = some "a".toList := by rfl

example : localName? "a:b".toList = none := by rfl

end Node

end UmlDrawing.Xml
