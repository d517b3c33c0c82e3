import UmlDrawing.Svg.Document
import UmlDrawing.Xml.Printer

/-! The writing of vector graphics. Groups that contain other groups are written out at every place
where they stand; a group that contains itself cannot be written. -/
namespace UmlDrawing.Svg

def field (name : String) (value : Text) : Xml.Attribute := (name.toList, value)

def element (name : String) (attributes : List Xml.Attribute) (children : List Xml.Node) :
    Xml.Node :=
  .element name.toList attributes children

def opacityAttributes (name : String) (opacity : Option Scalar) :
    Except Fault (List Xml.Attribute) :=
  opacity.toList.mapM fun a => do
    let written ← number a
    pure (field name written)

def Paint.attributes : Paint → Except Fault (List Xml.Attribute)
  | .fill ink opacity => do
    let written ← number opacity
    pure [field "fill" ink, field "fill-opacity" written,
      field "stroke" "none".toList]
  | .stroke ink opacity dash => do
    let opacity ← opacityAttributes "stroke-opacity" opacity
    let lengths ← dash.mapM number
    pure ([field "fill" "none".toList, field "stroke" ink,
      field "stroke-width" ['1'],
      field "stroke-dasharray" (Text.join [','] lengths)] ++ opacity)

def pathNode (data : List (Subpath Scalar)) (attributes : List Xml.Attribute) :
    Except Fault Xml.Node := do
  let written ← pathData data
  let written ← measured written
  data.forM unsigned
  let written := if written = [] then "M 0,0".toList else written
  pure (element "path" (field "d" written :: attributes) [])

def textNode (content : Text) (position : Vec Scalar) (font : FontStyle Scalar) (ink : Text) :
    Except Fault Xml.Node := do
  let x ← number position.x
  let y ← number position.y
  let size ← number font.size
  pure (element "text"
    [field "x" x, field "y" y, field "fill" ink,
      field "font-family" font.family, field "font-size" size,
      field "font-weight" font.weightName, field "font-style" font.slantName,
      field "dominant-baseline" "text-before-edge".toList,
      field "xml:space" "preserve".toList]
    [.text content])

def ClipShape.node : ClipShape → Except Fault Xml.Node
  | .path data => pathNode data []
  | .box size =>
    pure (element "rect"
      [field "x" ['0'], field "y" ['0'], field "width" size.x.roundTrip,
        field "height" size.y.roundTrip] [])

def ClipPath.node (c : ClipPath) : Except Fault Xml.Node := do
  let shape ← c.shape.toList.mapM ClipShape.node
  pure (element "clipPath" [field "id" c.name.text] shape)

def Group.attributes (g : Group) : Except Fault (List Xml.Attribute) := do
  let shift ← g.shift.toList.mapM fun p => do
    let written ← point p
    pure (field "transform" ("translate(".toList ++ written ++ [')']))
  pure (shift ++ (g.clip.toList.map fun name => field "clip-path" name.link))

mutual

/-- The nodes of some items. The fuel bounds the depth of the groups. -/
def itemNodes (groups : List Group) : Nat → List Item → Except Fault (List Xml.Node)
  | _, [] => pure []
  | fuel, item :: rest => do
    let node ← itemNode groups fuel item
    let nodes ← itemNodes groups fuel rest
    pure (node :: nodes)
termination_by fuel items => (fuel, items.length + 1)

def itemNode (groups : List Group) : Nat → Item → Except Fault Xml.Node
  | _, .path data paint => do
    let attributes ← paint.attributes
    pathNode data attributes
  | _, .text content position font ink => textNode content position font ink
  | 0, .group _ => .error .cyclicDrawing
  | fuel + 1, .group number => do
    let g := groups.getD number {}
    let attributes ← g.attributes
    let nodes ← itemNodes groups fuel g.items
    pure (element "g" attributes nodes)
termination_by fuel _ => (fuel, 0)

end

namespace Document

def fixedAttributes : List Xml.Attribute :=
  [field "baseProfile" "full".toList, field "version" "1.1".toList,
    field "xmlns" "http://www.w3.org/2000/svg".toList,
    field "xmlns:ev" "http://www.w3.org/2001/xml-events".toList,
    field "xmlns:xlink" "http://www.w3.org/1999/xlink".toList]

/-- The document as a tree. A chain of groups that is longer than the number of groups has one of
them inside itself. -/
def node (d : Document) : Except Fault Xml.Node := do
  let w ← number d.size.x
  let h ← number d.size.y
  let clips ← d.clips.mapM ClipPath.node
  let nodes ← itemNodes d.groups d.groups.length (d.groups.headD {}).items
  pure (element "svg"
    (fixedAttributes ++
      [field "width" w, field "height" h,
        field "viewBox" ("0 0 ".toList ++ w ++ ' ' :: h)])
    (element "defs" [] clips :: nodes))

def print (d : Document) : Except Fault Text := do
  let n ← d.node
  pure (Xml.print n)

end Document

end UmlDrawing.Svg
