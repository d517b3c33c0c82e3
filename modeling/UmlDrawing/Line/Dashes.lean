import UmlDrawing.Geometry.Vec

/-! Polylines cut into the visible pieces of a dash pattern. Lengths of the pattern are drawn and
left out in turn; the phase is carried across corners. -/
namespace UmlDrawing.Dashes

open Arithmetic

variable {α : Type} [Arithmetic α]

abbrev Segment (α : Type) := Vec α × Vec α

/-- The straight pieces between consecutive points. -/
def segments (points : List (Vec α)) : List (Segment α) := points.zip points.tail

/-- Where a walk along a line stands in the pattern: the entry and what is left of it. -/
structure Phase (α : Type) where
  index : Nat
  remaining : α

/-- The piece of a segment between two distances from its start. -/
def piece (s : Segment α) (length start stop : α) : Except Fault (Segment α) := do
  let along ← s.2.sub s.1
  let direction ← along.divide length
  let toStart ← direction.scale start
  let a ← s.1.add toStart
  let toStop ← direction.scale stop
  let b ← s.1.add toStop
  pure (a, b)

/-- The phase after a step, which moves on in the pattern when an entry is used up. -/
def Phase.advance (pattern : List α) (phase : Phase α) (step : α) : Except Fault (Phase α) := do
  let remaining ← sub phase.remaining step
  if le remaining (ofInt 0) then
    let index := (phase.index + 1) % pattern.length
    let next ← inexact (pattern.getD index zero)
    pure ⟨index, next⟩
  else pure ⟨phase.index, remaining⟩

/-- Walks along one segment from a distance to its end. The fuel bounds the number of steps. -/
def walk (pattern : List α) (s : Segment α) (length : α) :
    Nat → α → Phase α → List (Segment α) → Except Fault (Phase α × List (Segment α))
  | 0, _, _, _ => .error .noProgress
  | fuel + 1, done, phase, pieces =>
    if lt done length then do
      let left ← sub length done
      let step := Arithmetic.min phase.remaining left
      let stop ← add done step
      let pieces ←
        if phase.index % 2 = 0 ∧ lt zero step = true then do
          let p ← piece s length done stop
          pure (pieces ++ [p])
        else pure pieces
      let phase ← phase.advance pattern step
      walk pattern s length fuel stop phase pieces
    else pure (phase, pieces)

/-- A number of steps that is enough for a segment: every round through the pattern gets ahead by
its sum, and negative entries can take back no more than they add up to. A walk fails in its first
round where these numbers are beyond the reals, unless it ends there. -/
def stepBound (pattern : List α) (total length : α) : Nat :=
  let rounds : Except Fault Int := do
    let reach ← pattern.foldlM (fun r p => add r (if lt p zero then Arithmetic.neg p else p)) length
    let rounds ← div reach total
    ceil rounds
  ((rounds.toOption.map Int.toNat).getD 0 + 4) * (pattern.length + 1)

def walkSegment (pattern : List α) (total : α) (state : Phase α × List (Segment α))
    (s : Segment α) : Except Fault (Phase α × List (Segment α)) := do
  let along ← s.2.sub s.1
  let length ← along.length
  if lt zero length then
    walk pattern s length (stepBound pattern total length) zero state.1 state.2
  else pure state

/-- The visible pieces of a polyline. A pattern that is empty or does not add up to a positive
length leaves every segment as it is. -/
def ofPolyline (points : List (Vec α)) (pattern : List α) : Except Fault (List (Segment α)) := do
  let total ← sum pattern
  if pattern.isEmpty || le total (ofInt 0) then pure (segments points)
  else
    let first ← inexact (pattern.headD zero)
    let state ← (segments points).foldlM (walkSegment pattern total) (⟨0, first⟩, [])
    pure state.2

@[simp] theorem ofPolyline_nil (points : List (Vec α)) :
    ofPolyline points [] = .ok (segments points) := rfl

end UmlDrawing.Dashes
