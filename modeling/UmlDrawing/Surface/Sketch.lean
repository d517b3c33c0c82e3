import UmlDrawing.Surface.Studio

/-! Drawings that are still to be made. A sketch is a tree of commands and of questions about texts,
whose answers decide how it goes on. It can be played in a studio of any kind, or followed without
one. A command or a question that fails ends a sketch unless the sketch says otherwise. -/
namespace UmlDrawing

/-- A drawing with a result. Surfaces are named by numbers; the first one is the one drawn on. -/
inductive Sketch (α β : Type) where
  | done (result : β)
  | fail (fault : Fault)
  | note (note : Note) (next : Sketch α β)
  | command (on : Nat) (command : Command α) (next : Except Fault Unit → Sketch α β)
  | askWidth (text : Text) (font : FontStyle α) (next : Except Fault α → Sketch α β)
  | askHeight (font : FontStyle α) (next : Except Fault α → Sketch α β)

namespace Sketch

variable {α β γ : Type}

def ofExcept : Except Fault β → Sketch α β
  | .ok b => done b
  | .error fault => fail fault

def bind (s : Sketch α β) (f : β → Sketch α γ) : Sketch α γ :=
  match s with
  | done b => f b
  | fail fault => fail fault
  | note n next => note n (next.bind f)
  | command on c next => command on c fun r => (next r).bind f
  | askWidth t font next => askWidth t font fun r => (next r).bind f
  | askHeight font next => askHeight font fun r => (next r).bind f

instance : Monad (Sketch α) where
  pure := done
  bind := bind

def draw (c : Command α) : Sketch α Unit := command 0 c ofExcept

def width (t : Text) (font : FontStyle α) : Sketch α α := askWidth t font ofExcept

def height (font : FontStyle α) : Sketch α α := askHeight font ofExcept

def report : List Note → Sketch α Unit
  | [] => done ()
  | n :: ns => note n (report ns)

/-- Plays a sketch on the surface with a number and on those made after it. -/
def play {Content Shared Saved : Type} [Medium Content Shared Saved] (base : Nat) :
    Sketch Scalar β → Action (Studio Content Shared Saved) β
  | done b => pure b
  | fail fault => throw fault
  | note n next => do
    Studio.report [n]
    play base next
  | command on c next => fun s =>
    match Studio.perform base on c s with
    | .ok _ t => play base (next (.ok ())) t
    | .error fault t => play base (next (.error fault)) t
  | askWidth text font next => fun s =>
    match Studio.width text font s with
    | .ok w t => play base (next (.ok w)) t
    | .error fault t => play base (next (.error fault)) t
  | askHeight font next => fun s =>
    match Studio.height font s with
    | .ok h t => play base (next (.ok h)) t
    | .error fault t => play base (next (.error fault)) t

@[simp] theorem pure_eq_done (b : β) : (pure b : Sketch α β) = done b := rfl

@[simp] theorem done_bind (b : β) (f : β → Sketch α γ) : (done b >>= f) = f b := rfl

@[simp] theorem fail_bind (fault : Fault) (f : β → Sketch α γ) :
    ((fail fault : Sketch α β) >>= f) = fail fault := rfl

end Sketch

end UmlDrawing
