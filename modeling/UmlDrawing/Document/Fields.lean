import UmlDrawing.Element.Basic
import UmlDrawing.Text.Lowercase
import UmlDrawing.Xml.Tree

/-! The elements of diagrams as documents hold them. A field is a child with the name of the field,
whatever its prefix and the case of its letters; of several the last one counts, and all other nodes
are passed over. -/
namespace UmlDrawing.Document

open Xml (Node)

/-- The name of a node for look-up; nodes that are no elements have the empty one. Not every name that
an element can have is one that can be looked up. -/
def tag : Node → Except Fault Text
  | .element name _ _ => orFault .unreadableName ((Node.localName? name).map Text.lower)
  | _ => .ok []

/-- The integer in the text of a node; a missing or malformed one is zero. -/
def integer (n : Node) : Except Fault Int := Numeral.parseLeading n.textContent 0

def readCoordinate (c : Coordinates) (child : Node) : Except Fault Coordinates := do
  let t ← tag child
  if t = ['x'] then do
    let n ← integer child
    pure { c with x := .number n }
  else if t = ['y'] then do
    let n ← integer child
    pure { c with y := .number n }
  else if t = ['w'] then do
    let n ← integer child
    pure { c with w := .number n }
  else if t = ['h'] then do
    let n ← integer child
    pure { c with h := .number n }
  else pure c

/-- The coordinates that a node holds; those that are missing are zero. -/
def readCoordinates (n : Node) : Except Fault Coordinates := n.children.foldlM readCoordinate {}

def readField (r : ElementRecord) (child : Node) : Except Fault ElementRecord := do
  let t ← tag child
  if t = "id".toList then pure { r with id := child.textContent }
  else if t = "coordinates".toList then do
    let c ← readCoordinates child
    pure { r with coordinates := c }
  else if t = "panel_attributes".toList then pure { r with panel := child.textContent }
  else if t = "additional_attributes".toList then pure { r with additional := child.textContent }
  else if t = "layer".toList then do
    let n ← integer child
    pure { r with layer := some n }
  else pure r

/-- The record of an element; blanks around its kind do not count. -/
def readElement (n : Node) : Except Fault ElementRecord := do
  let r ← n.children.foldlM readField {}
  pure { r with id := Text.trim r.id }

end UmlDrawing.Document
