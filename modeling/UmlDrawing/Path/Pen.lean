import UmlDrawing.Path.Ellipse

/-! The building of paths. A pen collects finished pieces and the points of the piece it is
drawing; points are moved by the offset in force when they are added. An operation that fails
keeps what it did before it failed. -/
namespace UmlDrawing

/-- A connected piece of a path. An ellipse keeps its centre and radii beside its polygon. -/
structure Subpath (α : Type) where
  points : List (Vec α)
  closed : Bool := false
  ellipse : Option (Vec α × Vec α) := none
  deriving DecidableEq, Repr, Inhabited

structure Pen (α : Type) where
  finished : List (Subpath α) := []
  current : List (Vec α) := []
  offset : Vec α
  deriving DecidableEq, Repr, Inhabited

/-- An action on some state that may fail, keeping what was done before. -/
abbrev Action (σ α : Type) := EStateM Fault σ α

namespace Action

def ofExcept {σ α : Type} : Except Fault α → Action σ α
  | .ok a => pure a
  | .error fault => throw fault

end Action

namespace Pen

open Arithmetic

variable {α : Type} [Arithmetic α]

def initial : Pen α := { offset := Vec.origin }

def beginPath : Action (Pen α) Unit := modify fun p => { p with finished := [], current := [] }

/-- Ends the piece being drawn; a lone point is dropped. -/
def flushed (p : Pen α) : Pen α :=
  { p with
    finished := if 1 < p.current.length then p.finished ++ [{ points := p.current }]
      else p.finished
    current := [] }

def flush : Action (Pen α) Unit := modify flushed

def located (v : Vec α) : Action (Pen α) (Vec α) := do
  let p ← get
  Action.ofExcept (p.offset.add v)

def moveTo (v : Vec α) : Action (Pen α) Unit := do
  flush
  let q ← located v
  modify fun p => { p with current := [q] }

/-- Draws to a point, or starts there if no piece is being drawn. -/
def lineTo (v : Vec α) : Action (Pen α) Unit := do
  let q ← located v
  modify fun p => { p with current := p.current ++ [q] }

/-- Ends the piece being drawn as a closed one and starts the next where it started. -/
def closePath : Action (Pen α) Unit :=
  modify fun p =>
    match p.current with
    | [] => p
    | first :: _ =>
      { p with
        finished := p.finished ++ [{ points := p.current, closed := true }]
        current := [first] }

def linesTo : List (Vec α) → Action (Pen α) Unit
  | [] => pure ()
  | v :: vs => do
    lineTo v
    linesTo vs

def polyline (points : List (Vec α)) (closed : Bool) : Action (Pen α) Unit :=
  match points with
  | [] => pure ()
  | first :: rest => do
    moveTo first
    linesTo rest
    if closed then closePath else pure ()

def rect (x y w h : α) : Action (Pen α) Unit := do
  let right ← Action.ofExcept (add x w)
  let bottom ← Action.ofExcept (add y h)
  polyline [⟨x, y⟩, ⟨right, y⟩, ⟨right, bottom⟩, ⟨x, bottom⟩] false
  closePath
  modify fun p => { p with current := [] }

def ellipseAxes (offset : Vec α) (x y w h : α) : Except Fault (Vec α × Vec α) := do
  let rx ← half w
  let cx ← add x rx
  let ry ← half h
  let cy ← add y ry
  let center ← offset.add ⟨cx, cy⟩
  pure (center, ⟨rx, ry⟩)

def ellipse (x y w h : α) : Action (Pen α) Unit := do
  flush
  let p ← get
  let (center, radii) ← Action.ofExcept (ellipseAxes p.offset x y w h)
  let points ← Action.ofExcept (Ellipse.polygon center radii Ellipse.corners)
  modify fun p =>
    { p with
      finished := p.finished ++
        [{ points := points, closed := true, ellipse := some (center, radii) }] }

/-- The path so far, which ends the piece being drawn. -/
def path : Action (Pen α) (List (Subpath α)) := do
  flush
  let p ← get
  pure p.finished

def translate (d : Vec α) : Action (Pen α) Unit := do
  let offset ← located d
  modify fun p => { p with offset := offset }

end Pen

end UmlDrawing
