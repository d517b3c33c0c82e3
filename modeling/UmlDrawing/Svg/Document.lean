import UmlDrawing.Surface.Medium
import UmlDrawing.Svg.Number
import UmlDrawing.Text.Blank

/-! Vector graphics: documents of nested groups. All surfaces of a drawing are groups of one
document. A surface that was made but not placed is a group that no other group contains. -/
namespace UmlDrawing.Svg

/-- The name of a clip path; no two clip paths of a document have the same number. -/
inductive ClipName where
  /-- a path that drawing was restricted to -/
  | region (n : Nat)
  /-- the box of a surface that was placed -/
  | surface (n : Nat)
  deriving DecidableEq, Repr, Inhabited

/-- What is left of a drawing by a clip path. -/
inductive ClipShape where
  | path (data : List (Subpath Scalar))
  | box (size : Vec Scalar)

/-- A named clip path, without a shape if its shape could not be written. -/
structure ClipPath where
  name : ClipName
  shape : Option ClipShape

/-- How a path is painted; colours are kept as they are written. -/
inductive Paint where
  | fill (ink : Text) (opacity : Scalar)
  | stroke (ink : Text) (opacity : Option Scalar) (dash : List Scalar)

/-- A part of a group; a group inside another one is given by its number. -/
inductive Item where
  | path (data : List (Subpath Scalar)) (paint : Paint)
  | text (content : Text) (position : Vec Scalar) (font : FontStyle Scalar) (ink : Text)
  | group (number : Nat)

structure Group where
  clip : Option ClipName := none
  shift : Option (Vec Scalar) := none
  items : List Item := []
  deriving Inhabited

/-- A document: its size, the clip paths, the groups, and the number of the next clip path. The
first group is the document itself. -/
structure Document where
  size : Vec Scalar
  next : Nat := 0
  clips : List ClipPath := []
  groups : List Group := [{}]

/-- The group of a surface, and the group inside it that is drawn to. -/
structure Sheet where
  root : Nat
  container : Nat
  deriving DecidableEq, Repr, Inhabited

namespace ClipName

def text : ClipName → Text
  | region n => "clip".toList ++ Text.ofNat n
  | surface n => "surface".toList ++ Text.ofNat n

def link (c : ClipName) : Text := "url(#".toList ++ c.text ++ [')']

end ClipName

namespace Document

/-- Takes the next number of a clip path. -/
def takeNumber (d : Document) : Document := { d with next := d.next + 1 }

def addClip (d : Document) (c : ClipPath) : Document := { d with clips := d.clips ++ [c] }

def addGroup (d : Document) (g : Group) : Document := { d with groups := d.groups ++ [g] }

def modifyGroup (d : Document) (number : Nat) (change : Group → Group) : Document :=
  { d with groups := d.groups.modify number change }

def append (d : Document) (number : Nat) (item : Item) : Document :=
  d.modifyGroup number fun g => { g with items := g.items ++ [item] }

@[simp] theorem length_groups_modifyGroup (d : Document) (number : Nat) (change : Group → Group) :
    (d.modifyGroup number change).groups.length = d.groups.length := by
  simp [modifyGroup]

end Document

namespace Sheet

def change (f : Document → Document) : Action (Canvas Sheet Document) Unit :=
  modify fun (d, s) => (f d, s)

def append (item : Item) : Action (Canvas Sheet Document) Unit :=
  modify fun (d, s) => (d.append s.container item, s)

def drawable (path : List (Subpath Scalar)) : Except Fault Bool := do
  let data ← pathData path
  pure (!data.isEmpty)

/-- The opacity of a line as it is given: only if it is less than full. -/
def lineOpacity (color : Color) : Option Scalar :=
  if Scalar.lt color.a (.real 1.0) then some color.a else none

def fill (path : List (Subpath Scalar)) (color : Color) (alpha : Scalar) :
    Action (Canvas Sheet Document) Unit := do
  if ← Action.ofExcept (drawable path) then
    let ink ← Action.ofExcept color.fullText
    let opacity ← Action.ofExcept (Scalar.mul color.a alpha)
    let _ ← Action.ofExcept (number opacity)
    append (.path path (.fill ink opacity))

def stroke (path : List (Subpath Scalar)) (color : Color) (dash : List Scalar) :
    Action (Canvas Sheet Document) Unit := do
  if ← Action.ofExcept (drawable path) then
    let ink ← Action.ofExcept color.fullText
    let _ ← Action.ofExcept ((lineOpacity color).toList.mapM number)
    let _ ← Action.ofExcept (dash.mapM number)
    append (.path path (.stroke ink (lineOpacity color) dash))

/-- Opens a group inside the one that is drawn to, clipped to a path, and draws to it from now on.
The clip path is there, without a shape, even if its path cannot be written. -/
def clip (path : List (Subpath Scalar)) : Action (Canvas Sheet Document) Unit := fun (d, s) =>
  let name := ClipName.region d.next
  let d := d.takeNumber
  match pathData path with
  | .error fault => .error fault (d.addClip ⟨name, none⟩, s)
  | .ok _ =>
    let opened := d.groups.length
    let d := (d.addClip ⟨name, some (.path path)⟩).addGroup { clip := some name }
    .ok () (d.append s.container (.group opened), { s with container := opened })

/-- What a text is written with, if all of it can be written. -/
def textItem (content : Text) (position : Except Fault (Vec Scalar)) (font : FontStyle Scalar)
    (color : Color) : Except Fault Item := do
  let p ← position
  let x ← number p.x
  let y ← number p.y
  let size ← number font.size
  let ink ← color.fullText
  let _ ← measured x
  let _ ← measured y
  let _ ← measured size
  if Text.allBlank font.family then (.error (.attributeValue font.family) : Except Fault Item)
  else pure (.text content p font ink)

def text (content : Text) (position : Except Fault (Vec Scalar)) (font : FontStyle Scalar)
    (color : Color) : Action (Canvas Sheet Document) Unit :=
  if content = [] then pure ()
  else do
    let item ← Action.ofExcept (textItem content position font color)
    append item

/-- A length that can be written: one that is not beyond the reals. -/
def length (a : Scalar) : Except Fault Scalar :=
  match a.toFloat with
  | .ok _ => .ok a
  | .error _ => .error (.attributeValue a.roundTrip)

def boxSize (size : Vec Scalar) : Except Fault (Vec Scalar) := size.mapM length

/-- Whether the group of a surface can be moved to a position. The first group cannot, being the
document itself. -/
def movable (placed : Sheet) (position : Vec Scalar) : Except Fault Unit := do
  let written ← point position
  if placed.root = 0 then .error .documentMoved
  else do
    let _ ← measured written
    pure ()

/-- Puts the group of a surface into the one that is drawn to, moved to a position and clipped to
the box of the surface. A surface that was placed before is moved with its former place. -/
def place (size : Vec Scalar) (placed : Sheet) (position : Vec Scalar) :
    Action (Canvas Sheet Document) Unit := fun (d, s) =>
  let name := ClipName.surface d.next
  let d := d.takeNumber
  match boxSize size with
  | .error fault => .error fault (d.addClip ⟨name, none⟩, s)
  | .ok box =>
    let d := d.addClip ⟨name, some (.box box)⟩
    match movable placed position with
    | .error fault => .error fault (d, s)
    | .ok _ =>
      let d := d.modifyGroup placed.root fun g =>
        { g with shift := some position, clip := some name }
      .ok () (d.append s.container (.group placed.root), s)

def start (size : Vec Scalar) : Except Fault Document := do
  let w ← number size.x
  let h ← number size.y
  let _ ← measured w
  let _ ← measured h
  pure { size := size }

instance : Medium Sheet Document Nat where
  root size := do
    let d ← start size
    pure (d, ⟨0, 0⟩)
  create _ d := .ok (d.addGroup {}, ⟨d.groups.length, d.groups.length⟩)
  save s := s.container
  restore container s := { s with container := container }
  fill := fill
  stroke := stroke
  clip := clip
  text content font color := .written fun position => text content position font color
  place := place

end Sheet

end UmlDrawing.Svg
