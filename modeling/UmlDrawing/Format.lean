import UmlDrawing.Compositor
import UmlDrawing.Raster.Picture
import UmlDrawing.Surface.Recording
import UmlDrawing.Svg.Printer
import UmlDrawing.Text.Lowercase

/-! The output formats. -/
namespace UmlDrawing

inductive Format where
  | raster
  | vector
  | record
  deriving DecidableEq, Repr, Inhabited

/-- What was drawn, in the form of its format. -/
inductive Artwork where
  | image (pixels : Raster.Grid Raster.Pixel)
  | document (document : Svg.Document)
  | recording (calls : List Call)
  deriving Inhabited

/-- What comes of playing a sketch: its result, and what there is to report and to see in any
case. -/
structure Played (β : Type) where
  result : Except Fault β
  notes : List Note
  artwork : Except Fault Artwork

section Views

variable {Content Shared Saved : Type} [Medium Content Shared Saved]

def Studio.show (view : Canvas Content Shared → Artwork) (s : Studio Content Shared Saved)
    (number : Nat) : Except Fault Artwork := do
  let surface ← orFault .noSuchSurface s.surfaces[number]?
  pure (view (s.shared, surface.content))

/-- Plays a sketch on a fresh surface. -/
def Sketch.playAlone {β : Type} (sketch : Sketch Scalar β) (view : Canvas Content Shared → Artwork)
    (size : Vec Scalar) (metrics : Metrics) : Except Fault (Played β) := do
  let studio : Studio Content Shared Saved ← Studio.start size metrics
  match sketch.play 0 studio with
  | .ok b s => pure ⟨.ok b, s.notes, s.show view 0⟩
  | .error fault s => pure ⟨.error fault, s.notes, s.show view 0⟩

end Views

namespace Format

def ofName (name : Text) : Except Fault Format :=
  let lower := Text.lower name
  if lower = "png".toList ∨ lower = "raster".toList then .ok raster
  else if lower = "svg".toList then .ok vector
  else if lower = "record".toList then .ok record
  else .error (.unknownFormat name)

/-- Does something with the surfaces of a format, and with the form that they are shown in. -/
def withMedium {β : Type} (format : Format)
    (use : {Content Shared Saved : Type} → [Medium Content Shared Saved] →
      (Canvas Content Shared → Artwork) → β) : β :=
  match format with
  | raster => use fun (canvas : Canvas Raster.Picture Unit) => .image canvas.2.image
  | vector => use fun (canvas : Canvas Svg.Sheet Svg.Document) => .document canvas.1
  | record => use fun (canvas : Canvas Recording Unit) => .recording canvas.2.calls

def render (format : Format) (c : Compositor) (size : Vec Int) (metrics : Metrics)
    (records : List ElementRecord) : Pass Artwork :=
  format.withMedium fun view => (c.render size metrics records).map view

def play {β : Type} (format : Format) (size : Vec Scalar) (metrics : Metrics)
    (sketch : Sketch Scalar β) : Except Fault (Played β) :=
  format.withMedium fun view => sketch.playAlone view size metrics

end Format

end UmlDrawing
