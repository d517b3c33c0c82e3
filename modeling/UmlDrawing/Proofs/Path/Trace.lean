import UmlDrawing.Line.Dashes
import UmlDrawing.Proofs.Path.Pen
import UmlDrawing.Surface.Command

/-! What a pen leaves on the sheet. A trace knows nothing of the pieces of a path: its pen is up or
down, and every line that is drawn while it is down adds one edge. The pieces that a path is made of
have exactly the edges of the trace, in the order in which they were drawn, whatever the pen is asked
to do. -/
open UmlDrawing.Action

namespace UmlDrawing

open Dashes (Segment segments)

section Edges

variable {α : Type} {points : List (Vec α)}

/-- The first and the last of some points. -/
def ends? (points : List (Vec α)) : Option (Vec α × Vec α) :=
  points.head?.bind fun first => points.getLast?.map fun last => (first, last)

/-- The edge that leads from the last of some points back to the first. -/
def closing (points : List (Vec α)) : List (Segment α) :=
  (ends? points).toList.map Prod.swap

@[simp] lemma ends?_nil : ends? ([] : List (Vec α)) = none := rfl

@[simp] lemma ends?_singleton (v : Vec α) : ends? [v] = some (v, v) := rfl

@[simp] lemma segments_nil : segments ([] : List (Vec α)) = [] := rfl

@[simp] lemma segments_singleton (v : Vec α) : segments [v] = [] := rfl

@[simp] lemma segments_cons_cons (v w : Vec α) (rest : List (Vec α)) :
    segments (v :: w :: rest) = (v, w) :: segments (w :: rest) := rfl

lemma ends?_eq_none_iff : ends? points = none ↔ points = [] := by
  cases points with
  | nil => simp
  | cons first rest => simp [ends?, List.getLast?_cons]

/-- A point at the end is the last one, and the first one too if there was none. -/
lemma ends?_concat (points : List (Vec α)) (q : Vec α) :
    ends? (points ++ [q]) = some (((ends? points).map Prod.fst).getD q, q) := by
  cases points with
  | nil => rfl
  | cons first rest => simp [ends?, List.getLast?_cons]

/-- A point at the end adds the edge that leads to it from the last one. -/
lemma segments_concat (points : List (Vec α)) (q : Vec α) :
    segments (points ++ [q]) = segments points ++ (ends? points).toList.map fun e => (e.2, q) := by
  induction points with
  | nil => rfl
  | cons v rest ih =>
    cases rest with
    | nil => rfl
    | cons w rest =>
      rw [List.cons_append, List.cons_append, segments_cons_cons, ← List.cons_append, ih,
        segments_cons_cons, List.cons_append]
      simp [ends?, List.getLast?_cons]

lemma segments_eq_nil (h : points.length ≤ 1) : segments points = [] := by
  rcases points with _ | ⟨v, _ | ⟨w, rest⟩⟩
  · rfl
  · rfl
  · simp at h

namespace Subpath

variable {s : Subpath α}

/-- The edges of a piece: from each point to the next, and back to the first one if it is closed. -/
def edges (s : Subpath α) : List (Segment α) :=
  segments s.points ++ if s.closed then closing s.points else []

/-- A piece with points enough to show: with one if it is closed, and with two if it is open. -/
def Shows (s : Subpath α) : Prop :=
  s.points ≠ [] ∧ (s.closed = false → 2 ≤ s.points.length)

end Subpath

end Edges

section Trace

variable {α : Type} [Arithmetic α]

/-- What has been drawn, and the pen that draws it. -/
structure Trace (α : Type) where
  drawn : List (Segment α) := []
  /-- where the line being drawn began and where the pen is now; nowhere if it is up -/
  down : Option (Vec α × Vec α) := none
  offset : Vec α

namespace Trace

/-- An empty sheet, with the pen up. -/
def initial : Trace α := { offset := Vec.origin }

/-- The point moved by the offset in force. -/
def located (v : Vec α) : Action (Trace α) (Vec α) := do
  let t ← get
  Action.ofExcept (t.offset.add v)

/-- Draws from where the pen is, or puts it down if it is up. -/
def drawTo (q : Vec α) (t : Trace α) : Trace α :=
  match t.down with
  | none => { t with down := some (q, q) }
  | some (first, tip) => { t with drawn := t.drawn ++ [(tip, q)], down := some (first, q) }

/-- Draws back to where the line being drawn began, if there is one. -/
def drawBack (t : Trace α) : Trace α :=
  match t.down with
  | none => t
  | some (first, _) => t.drawTo first

/-- Takes the pen up. -/
def lift : Action (Trace α) Unit := modify fun t => { t with down := none }

def beginPath : Action (Trace α) Unit := modify fun t => { t with drawn := [], down := none }

def lineTo (v : Vec α) : Action (Trace α) Unit := do
  let q ← located v
  modify (drawTo q)

def moveTo (v : Vec α) : Action (Trace α) Unit := do
  lift
  lineTo v

def closePath : Action (Trace α) Unit := modify drawBack

def linesTo : List (Vec α) → Action (Trace α) Unit
  | [] => pure ()
  | v :: vs => do
    lineTo v
    linesTo vs

def polyline (points : List (Vec α)) (closed : Bool) : Action (Trace α) Unit :=
  match points with
  | [] => pure ()
  | first :: rest => do
    moveTo first
    linesTo rest
    if closed then closePath else pure ()

/-- The four edges of a rectangle, after which the pen is up. -/
def rect (x y w h : α) : Action (Trace α) Unit := do
  let right ← Action.ofExcept (Arithmetic.add x w)
  let bottom ← Action.ofExcept (Arithmetic.add y h)
  polyline [⟨x, y⟩, ⟨right, y⟩, ⟨right, bottom⟩, ⟨x, bottom⟩] false
  closePath
  lift

/-- The edges of the polygon of an ellipse, after which the pen is up. -/
def ellipse (x y w h : α) : Action (Trace α) Unit := do
  lift
  let t ← get
  let (center, radii) ← Action.ofExcept (Pen.ellipseAxes t.offset x y w h)
  let corners ← Action.ofExcept (Ellipse.polygon center radii Ellipse.corners)
  modify fun t => { t with drawn := t.drawn ++ (segments corners ++ closing corners) }

def translate (d : Vec α) : Action (Trace α) Unit := do
  let offset ← located d
  modify fun t => { t with offset := offset }

lemma lineTo_apply (v : Vec α) (t : Trace α) :
    lineTo v t =
      match t.offset.add v with
      | .ok q => .ok () (t.drawTo q)
      | .error fault => .error fault t := by
  rw [lineTo, located, bind_assoc, bind_of_ok (get_apply t)]
  cases t.offset.add v <;> rfl

lemma moveTo_apply (v : Vec α) (t : Trace α) : moveTo v t = lineTo v { t with down := none } := rfl

end Trace

/-- What a command does to a trace, if it builds a path. -/
def Command.onTrace? : Command α → Option (Action (Trace α) Unit)
  | beginPath => some Trace.beginPath
  | moveTo p => some (Trace.moveTo p)
  | lineTo p => some (Trace.lineTo p)
  | closePath => some Trace.closePath
  | polyline points closed => some (Trace.polyline points closed)
  | rect x y w h => some (Trace.rect x y w h)
  | ellipse x y w h => some (Trace.ellipse x y w h)
  | translate d => some (Trace.translate d)
  | _ => none

/-- The trace after some commands; one that fails is passed over, but leaves what it drew. -/
def Trace.follow (cs : List (Command α)) (t : Trace α) : Trace α :=
  (cs.filterMap Command.onTrace?).foldl (fun t action => final (action t)) t

/-- The pen after some commands; one that fails is passed over, but leaves what it drew. -/
def Pen.follow (cs : List (Command α)) (p : Pen α) : Pen α :=
  (cs.filterMap Command.onPen?).foldl (fun p action => final (action p)) p

end Trace

namespace Pen

variable {α : Type} {p : Pen α} {t : Trace α}

/-- A pen that has drawn a trace: its pieces and the one that it is drawing have the edges. -/
structure Draws (p : Pen α) (t : Trace α) : Prop where
  offset : p.offset = t.offset
  down : ends? p.current = t.down
  drawn : p.finished.flatMap Subpath.edges ++ segments p.current = t.drawn
  shows : ∀ s ∈ p.finished, s.Shows

namespace Draws

/-- A piece whose edges are drawn is finished, and the pen goes on with points of its own. -/
lemma finish (h : Draws p t) {s : Subpath α} (hs : s.Shows) (added : List (Segment α))
    (hedges : s.edges = segments p.current ++ added) (points : List (Vec α))
    (hpoints : segments points = []) :
    Draws { p with finished := p.finished ++ [s], current := points }
      { t with drawn := t.drawn ++ added, down := ends? points } := by
  refine ⟨h.offset, rfl, ?_, ?_⟩
  · simp [← h.drawn, hedges, hpoints]
  · simp only [List.mem_append, List.mem_singleton]
    rintro r (hr | rfl)
    · exact h.shows r hr
    · exact hs

/-- What is dropped with a lone point has no edges. -/
lemma lift (h : Draws p t) (hcurrent : segments p.current = []) :
    Draws { p with current := [] } { t with down := none } :=
  ⟨h.offset, rfl, by simp [← h.drawn, hcurrent], h.shows⟩

lemma flushed (h : Draws p t) : Draws p.flushed { t with down := none } := by
  by_cases hlength : 1 < p.current.length
  · have hshows : Subpath.Shows { points := p.current } :=
      ⟨List.ne_nil_of_length_pos (Nat.zero_lt_of_lt hlength), fun _ => hlength⟩
    have hfinish := h.finish hshows [] rfl [] rfl
    simpa [Pen.flushed, hlength] using hfinish
  · have hlift := h.lift (segments_eq_nil (by omega))
    simpa [Pen.flushed, hlength] using hlift

lemma drawTo (h : Draws p t) (q : Vec α) :
    Draws { p with current := p.current ++ [q] } (t.drawTo q) := by
  cases hdown : t.down with
  | none =>
    have hcurrent := ends?_eq_none_iff.1 (h.down.trans hdown)
    simp only [Trace.drawTo, hdown]
    exact ⟨h.offset, by simp [hcurrent], by simp [← h.drawn, hcurrent], h.shows⟩
  | some e =>
    have hends := h.down.trans hdown
    simp only [Trace.drawTo, hdown]
    exact ⟨h.offset, by simp [ends?_concat, hends], by simp [← h.drawn, segments_concat, hends],
      h.shows⟩

/-- Closing a piece leaves the pen at a lone point, if it is down. -/
lemma closePath (h : Draws p t) :
    Alike (fun p t => Draws p t ∧ segments p.current = []) (Pen.closePath p) (Trace.closePath t) := by
  rw [Pen.closePath, Trace.closePath, modify_apply, modify_apply]
  cases hcurrent : p.current with
  | nil =>
    have hdown : t.down = none := by simp [← h.down, hcurrent]
    simp only [Trace.drawBack, hdown]
    exact .ok () ⟨h, by simp [hcurrent]⟩
  | cons first rest =>
    obtain ⟨last, hends⟩ : ∃ last, ends? p.current = some (first, last) := by
      simp [hcurrent, ends?, List.getLast?_cons]
    have hdown := h.down.symm.trans hends
    have hshows : Subpath.Shows { points := p.current, closed := true } := ⟨by simp [hcurrent], by simp⟩
    have hedges : Subpath.edges { points := p.current, closed := true } =
        segments p.current ++ [(last, first)] := by
      simp [Subpath.edges, closing, hends]
    have hfinish := h.finish hshows _ hedges [first] (segments_singleton first)
    simp only [Trace.drawBack, Trace.drawTo, hdown]
    rw [← hcurrent]
    exact .ok () ⟨hfinish, rfl⟩

/-- A computation without state goes the same way for pen and trace. -/
lemma ofExcept_bind {β : Type} (h : Draws p t) (x : Except Fault β) {f : β → Action (Pen α) Unit}
    {g : β → Action (Trace α) Unit} (hnext : ∀ b, x = .ok b → Alike Draws (f b p) (g b t)) :
    Alike Draws ((Action.ofExcept x >>= f) p) ((Action.ofExcept x >>= g) t) := by
  cases x with
  | error fault => exact .error fault h
  | ok b =>
    rw [ofExcept_ok_bind, ofExcept_ok_bind]
    exact hnext b rfl

variable [Arithmetic α]

lemma initial : Draws (Pen.initial : Pen α) Trace.initial :=
  ⟨rfl, rfl, rfl, by simp [Pen.initial]⟩

lemma lineTo (h : Draws p t) (v : Vec α) : Alike Draws (Pen.lineTo v p) (Trace.lineTo v t) := by
  have hoffset : p.offset.add v = t.offset.add v := by rw [h.offset]
  rw [Pen.lineTo_apply, Trace.lineTo_apply, hoffset]
  cases t.offset.add v with
  | error fault => exact .error fault h
  | ok q => exact .ok () (h.drawTo q)

lemma moveTo (h : Draws p t) (v : Vec α) : Alike Draws (Pen.moveTo v p) (Trace.moveTo v t) := by
  have hoffset : p.offset.add v = t.offset.add v := by rw [h.offset]
  rw [Pen.moveTo_apply, Trace.moveTo_apply, Trace.lineTo_apply, hoffset]
  dsimp only
  cases t.offset.add v with
  | error fault => exact .error fault h.flushed
  | ok q => exact .ok () (h.flushed.drawTo q)

lemma linesTo (h : Draws p t) (vs : List (Vec α)) :
    Alike Draws (Pen.linesTo vs p) (Trace.linesTo vs t) := by
  induction vs generalizing p t with
  | nil => exact .ok () h
  | cons v vs ih => exact (h.lineTo v).bind (fun _ _ _ h => ih h) fun _ _ h => h

lemma polyline (h : Draws p t) (points : List (Vec α)) (closed : Bool) :
    Alike Draws (Pen.polyline points closed p) (Trace.polyline points closed t) := by
  cases points with
  | nil => exact .ok () h
  | cons first rest =>
    refine (h.moveTo first).bind (fun _ _ _ h => ?_) fun _ _ h => h
    refine (h.linesTo rest).bind (fun _ _ _ h => ?_) fun _ _ h => h
    cases closed with
    | false => exact .ok () h
    | true => exact h.closePath.mono fun _ _ h => h.1

lemma rect (h : Draws p t) (x y w l : α) :
    Alike Draws (Pen.rect x y w l p) (Trace.rect x y w l t) := by
  refine h.ofExcept_bind _ fun right _ => h.ofExcept_bind _ fun bottom _ => ?_
  refine (h.polyline _ false).bind (fun _ _ _ h => ?_) fun _ _ h => h
  refine h.closePath.bind (fun _ _ _ h => ?_) fun _ _ h => h.1
  exact .ok () (h.1.lift h.2)

lemma polygon_ne_nil {center radii : Vec α} {corners : List (Vec α)}
    (h : Ellipse.polygon center radii Ellipse.corners = .ok corners) : corners ≠ [] := by
  have hlength := congrArg List.length (mapM_eq_ok_iff.1 h)
  rintro rfl
  simp [Ellipse.corners] at hlength

lemma ellipse (h : Draws p t) (x y w l : α) :
    Alike Draws (Pen.ellipse x y w l p) (Trace.ellipse x y w l t) := by
  have hflush : (flush : Action (Pen α) Unit) p = .ok () p.flushed := rfl
  have hlift : Trace.lift t = .ok () { t with down := none } := rfl
  have hoffset : p.flushed.offset = t.offset := h.offset
  rw [Pen.ellipse, Trace.ellipse, bind_of_ok hflush, bind_of_ok hlift, bind_of_ok (get_apply _),
    bind_of_ok (get_apply _), hoffset]
  refine h.flushed.ofExcept_bind _ fun axes _ => h.flushed.ofExcept_bind _ fun corners hcorners => ?_
  have hshows : Subpath.Shows { points := corners, closed := true, ellipse := some axes } :=
    ⟨polygon_ne_nil hcorners, by simp⟩
  exact .ok () (h.flushed.finish hshows _ rfl [] rfl)

lemma translate (h : Draws p t) (d : Vec α) :
    Alike Draws (Pen.translate d p) (Trace.translate d t) := by
  have hoffset : p.offset.add d = t.offset.add d := by rw [h.offset]
  rw [Pen.translate, Trace.translate, Trace.located, bind_assoc, bind_of_ok (get_apply t),
    bind_apply, located_apply, hoffset]
  cases t.offset.add d with
  | error fault => exact .error fault h
  | ok offset => exact .ok () ⟨rfl, h.down, h.drawn, h.shows⟩

/-- A command that builds a path leaves pen and trace together, and fails for both or for none. -/
theorem onTrace (h : Draws p t) {c : Command α} {draw : Action (Trace α) Unit}
    (hdraw : c.onTrace? = some draw) :
    ∃ build, c.onPen? = some build ∧ Alike Draws (build p) (draw t) := by
  cases c with
  | beginPath =>
    cases hdraw
    exact ⟨_, rfl, .ok () ⟨h.offset, rfl, rfl, by simp⟩⟩
  | moveTo v =>
    cases hdraw
    exact ⟨_, rfl, h.moveTo v⟩
  | lineTo v =>
    cases hdraw
    exact ⟨_, rfl, h.lineTo v⟩
  | closePath =>
    cases hdraw
    exact ⟨_, rfl, h.closePath.mono fun _ _ h => h.1⟩
  | polyline points closed =>
    cases hdraw
    exact ⟨_, rfl, h.polyline points closed⟩
  | rect x y w l =>
    cases hdraw
    exact ⟨_, rfl, h.rect x y w l⟩
  | ellipse x y w l =>
    cases hdraw
    exact ⟨_, rfl, h.ellipse x y w l⟩
  | translate d =>
    cases hdraw
    exact ⟨_, rfl, h.translate d⟩
  | _ => cases hdraw

/-- Pen and trace stay together along commands that build a path. -/
theorem follow (h : Draws p t) {cs : List (Command α)} (hcs : ∀ c ∈ cs, c.onTrace?.isSome = true) :
    Draws (p.follow cs) (t.follow cs) := by
  induction cs generalizing p t with
  | nil => exact h
  | cons c cs ih =>
    obtain ⟨hc, hcs⟩ := List.forall_mem_cons.1 hcs
    obtain ⟨draw, hdraw⟩ := Option.isSome_iff_exists.1 hc
    obtain ⟨build, hbuild, halike⟩ := h.onTrace hdraw
    have hnext := ih halike.final hcs
    simpa [Pen.follow, Trace.follow, hbuild, hdraw] using hnext

end Draws

/-- A triangle that is left again from its first corner, a rectangle, and a lone point, with the
offset moved in between. -/
def flag : List (Command Scalar) :=
  [.translate ⟨.whole 10, .whole 0⟩, .moveTo ⟨.whole 0, .whole 0⟩, .lineTo ⟨.whole 4, .whole 0⟩,
    .translate ⟨.whole 0, .whole 5⟩, .lineTo ⟨.whole 4, .whole 4⟩, .closePath,
    .lineTo ⟨.whole 1, .whole 1⟩, .rect (.whole 0) (.whole 0) (.whole 2) (.whole 1),
    .moveTo ⟨.whole 7, .whole 7⟩]

/-- A point with whole coordinates. -/
def corner (x y : Int) : Vec Scalar := ⟨.whole x, .whole y⟩

end Pen

end UmlDrawing
