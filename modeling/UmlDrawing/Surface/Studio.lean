import UmlDrawing.Font.Metrics
import UmlDrawing.Note
import UmlDrawing.Surface.Medium

/-! Drawing with many surfaces. A studio holds all surfaces of a drawing under consecutive numbers,
with what they share, the text metrics and the reports. Surfaces are never removed, and numbers are
counted from a base, so a drawing that starts at some base cannot name the surfaces before it. -/
namespace UmlDrawing

structure Surface (Content Saved : Type) where
  size : Vec Scalar
  pen : Pen Scalar := Pen.initial
  stack : List (Vec Scalar × Saved) := []
  content : Content

structure Studio (Content Shared Saved : Type) where
  shared : Shared
  surfaces : List (Surface Content Saved)
  metrics : Metrics
  notes : List Note := []

namespace Surface

variable {Content Shared Saved : Type} [Medium Content Shared Saved]

def onPen {β : Type} (action : Action (Pen Scalar) β) : Action (Surface Content Saved) β := fun s =>
  match action s.pen with
  | .ok b pen => .ok b { s with pen := pen }
  | .error fault pen => .error fault { s with pen := pen }

/-- Keeps the offset and the state of the medium. -/
def pushState (s : Surface Content Saved) : Surface Content Saved :=
  { s with stack := (s.pen.offset, Medium.save s.content) :: s.stack }

/-- Goes back to the state kept last, if there is one. -/
def popState (s : Surface Content Saved) : Surface Content Saved :=
  match s.stack with
  | [] => s
  | (offset, saved) :: rest =>
    { s with
      pen := { s.pen with offset := offset }
      stack := rest
      content := Medium.restore saved s.content }

@[simp] theorem popState_pushState_stack (s : Surface Content Saved) :
    (popState (pushState s)).stack = s.stack := rfl

@[simp] theorem popState_pushState_pen (s : Surface Content Saved) :
    (popState (pushState s)).pen = s.pen := rfl

end Surface

namespace Studio

variable {Content Shared Saved : Type} [Medium Content Shared Saved]

/-- A studio with nothing but the surface that a drawing starts from. -/
def start (size : Vec Scalar) (metrics : Metrics) :
    Except Fault (Studio Content Shared Saved) := do
  let (shared, content) ← Medium.root size
  pure { shared := shared, surfaces := [{ size := size, content := content }], metrics := metrics }

def surface (on : Nat) : Action (Studio Content Shared Saved) (Surface Content Saved) := do
  let s ← get
  Action.ofExcept (orFault .noSuchSurface s.surfaces[on]?)

def report (notes : List Note) : Action (Studio Content Shared Saved) Unit :=
  modify fun s => { s with notes := s.notes ++ notes }

def onSurface {β : Type} (on : Nat) (action : Action (Surface Content Saved) β) :
    Action (Studio Content Shared Saved) β := do
  let surface ← surface on
  fun s =>
    match action surface with
    | .ok b t => .ok b { s with surfaces := s.surfaces.set on t }
    | .error fault t => .error fault { s with surfaces := s.surfaces.set on t }

def onCanvas (on : Nat) (action : Action (Canvas Content Shared) Unit) :
    Action (Studio Content Shared Saved) Unit := do
  let surface ← surface on
  fun s =>
    let keep := fun (canvas : Canvas Content Shared) =>
      { s with
        shared := canvas.1
        surfaces := s.surfaces.set on { surface with content := canvas.2 } }
    match action (s.shared, surface.content) with
    | .ok _ canvas => .ok () (keep canvas)
    | .error fault canvas => .error fault (keep canvas)

def create (size : Vec Scalar) : Action (Studio Content Shared Saved) Unit := do
  let s ← get
  let (shared, content) ← Action.ofExcept (Medium.create size s.shared)
  let added : Surface Content Saved := { size := size, content := content }
  modify fun s => { s with shared := shared, surfaces := s.surfaces ++ [added] }

/-- A question to the metrics, which may remember something for it. -/
def ask {β : Type} (question : Metrics → Except Fault β × Metrics) :
    Action (Studio Content Shared Saved) β := fun s =>
  let (answer, metrics) := question s.metrics
  match answer with
  | .ok b => .ok b { s with metrics := metrics }
  | .error fault => .error fault { s with metrics := metrics }

/-- Draws a text, with the font that the metrics keep for it if it is set in one. -/
def letter (on : Nat) (lettering : Lettering Content Shared)
    (position : Except Fault (Vec Scalar)) (style : FontStyle Scalar) :
    Action (Studio Content Shared Saved) Unit :=
  match lettering with
  | .written draw => onCanvas on (draw position)
  | .set draw => do
    let corner ← Action.ofExcept position
    let font ← ask fun m => m.font style
    onCanvas on (draw font corner)

/-- Carries out a command on the surface with a number. All numbers are counted from the base. -/
def perform (base on : Nat) (command : Command Scalar) :
    Action (Studio Content Shared Saved) Unit :=
  match command.onPen? with
  | some action => onSurface (base + on) (Surface.onPen action)
  | none =>
    match command with
    | .pushState => onSurface (base + on) (modify Surface.pushState)
    | .popState => onSurface (base + on) (modify Surface.popState)
    | .fill color alpha => do
      let path ← onSurface (base + on) (Surface.onPen Pen.path)
      onCanvas (base + on) (Medium.fill path color alpha)
    | .stroke color dash => do
      let path ← onSurface (base + on) (Surface.onPen Pen.path)
      onCanvas (base + on) (Medium.stroke path color dash)
    | .clip => do
      let path ← onSurface (base + on) (Surface.onPen Pen.path)
      onCanvas (base + on) (Medium.clip path)
    | .text text position font color => do
      let target ← surface (base + on)
      letter (base + on) (Medium.text text font color) (target.pen.offset.add position) font
    | .create w h => do
      let _ ← surface (base + on)
      create ⟨w, h⟩
    | .place number position => do
      let target ← surface (base + on)
      let placed ← surface (base + number)
      let corner ← Action.ofExcept (target.pen.offset.add position)
      onCanvas (base + on) (Medium.place placed.size placed.content corner)
    | _ => pure ()

def width (text : Text) (font : FontStyle Scalar) :
    Action (Studio Content Shared Saved) Scalar :=
  ask fun m => m.width text font

def height (font : FontStyle Scalar) : Action (Studio Content Shared Saved) Scalar :=
  ask fun m => m.height font

/-- An action between pushing and popping the state of a surface, which is popped however the
action ends. -/
def saved {β : Type} (on : Nat) (action : Action (Studio Content Shared Saved) β) :
    Action (Studio Content Shared Saved) β := do
  onSurface on (modify Surface.pushState)
  fun s =>
    match action s with
    | .ok b t =>
      match onSurface on (modify Surface.popState) t with
      | .ok _ u => .ok b u
      | .error fault u => .error fault u
    | .error fault t =>
      match onSurface on (modify Surface.popState) t with
      | .ok _ u => .error fault u
      | .error later u => .error later u

end Studio

end UmlDrawing
