import UmlDrawing.Color.Basic
import UmlDrawing.Font.Style
import UmlDrawing.Path.Pen

/-! What a drawing surface can be asked to do. Commands are data, so that one drawing can be played
on surfaces of any kind, and looked at without a surface. -/
namespace UmlDrawing

inductive Command (α : Type) where
  | beginPath
  | moveTo (point : Vec α)
  | lineTo (point : Vec α)
  | closePath
  | polyline (points : List (Vec α)) (closed : Bool)
  | rect (x y w h : α)
  | ellipse (x y w h : α)
  /-- looking at the path, which ends the piece being drawn -/
  | readPath
  | translate (distance : Vec α)
  | pushState
  | popState
  | fill (color : Color) (alpha : Scalar)
  | stroke (color : Color) (dash : List α)
  /-- restricts all further drawing to the current path -/
  | clip
  /-- a text with its upper left corner at a position -/
  | text (text : Text) (position : Vec α) (font : FontStyle α) (color : Color)
  /-- a new surface of the same kind, which gets the next free number -/
  | create (w h : α)
  /-- composites a surface, given by its number, at a position -/
  | place (surface : Nat) (position : Vec α)

namespace Command

variable {α : Type} [Arithmetic α]

def onPen? : Command α → Option (Action (Pen α) Unit)
  | beginPath => some Pen.beginPath
  | moveTo p => some (Pen.moveTo p)
  | lineTo p => some (Pen.lineTo p)
  | closePath => some Pen.closePath
  | polyline points closed => some (Pen.polyline points closed)
  | rect x y w h => some (Pen.rect x y w h)
  | ellipse x y w h => some (Pen.ellipse x y w h)
  | readPath => some Pen.flush
  | translate d => some (Pen.translate d)
  | _ => none

end Command

end UmlDrawing
