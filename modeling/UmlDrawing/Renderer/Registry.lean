import UmlDrawing.Renderer.Basic

/-! Which renderer draws which kind of element. A kind without a renderer is drawn as the kind
`Default`. -/
namespace UmlDrawing

/-- Renderers, or names for them, by kind; a kind that is registered again keeps its place. -/
structure Registry (R : Type) where
  entries : List (Text × R) := []
  deriving Inhabited

namespace Registry

variable {R S : Type}

def lookup (kind : Text) : List (Text × R) → Option R
  | [] => none
  | (k, r) :: rest => if k = kind then some r else lookup kind rest

def put (kind : Text) (r : R) : List (Text × R) → List (Text × R)
  | [] => [(kind, r)]
  | (k, s) :: rest => if k = kind then (kind, r) :: rest else (k, s) :: put kind r rest

def register (g : Registry R) (kind : Text) (r : R) : Registry R := ⟨put kind r g.entries⟩

def get? (g : Registry R) (kind : Text) : Option R := lookup kind g.entries

def contains (g : Registry R) (kind : Text) : Bool := (g.get? kind).isSome

def size (g : Registry R) : Nat := g.entries.length

def kinds (g : Registry R) : List Text := (g.entries.map (·.1)).mergeSort Text.le

/-- The renderer that draws a kind, and what there is to report. -/
def find (g : Registry R) (kind : Text) : Except Fault R × List Note :=
  match g.get? kind with
  | some r => (.ok r, [])
  | none => (orFault .noRenderer (g.get? Element.defaultKind), [.kindUnknown kind])

def map (f : R → S) (g : Registry R) : Registry S := ⟨g.entries.map fun (k, r) => (k, f r)⟩

@[simp] theorem lookup_put (kind other : Text) (r : R) (entries : List (Text × R)) :
    lookup other (put kind r entries) = if kind = other then some r else lookup other entries := by
  induction entries with
  | nil => rfl
  | cons p rest ih =>
    obtain ⟨k, s⟩ := p
    by_cases hk : k = kind
    · subst hk
      by_cases h : k = other <;> simp [put, lookup, h]
    · by_cases h : k = other
      · subst h
        simp [put, lookup, hk, Ne.symm hk]
      · simp [put, lookup, hk, h, ih]

@[simp] theorem get?_register (g : Registry R) (kind other : Text) (r : R) :
    (g.register kind r).get? other = if kind = other then some r else g.get? other :=
  lookup_put ..

end Registry

inductive BuiltinRenderer where
  | plain
  | classifier
  | useCase
  | relation
  deriving DecidableEq, Repr, Inhabited

namespace BuiltinRenderer

def draw {α : Type} [Arithmetic α] : BuiltinRenderer → Renderer α
  | plain => Renderer.plain
  | classifier => Renderer.classifier
  | useCase => Renderer.useCase
  | relation => Renderer.relation

def registry : Registry BuiltinRenderer :=
  ⟨[(Element.defaultKind, plain), ("UMLGeneric".toList, classifier),
    ("UMLClass".toList, classifier), ("UMLObject".toList, classifier),
    ("UMLUseCase".toList, useCase), ("Relation".toList, relation)]⟩

end BuiltinRenderer

end UmlDrawing
