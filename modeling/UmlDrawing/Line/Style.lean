import UmlDrawing.Text.Blank
import UmlDrawing.Note

/-! Line styles: a left arrowhead, a body that says how the line is dashed, and a right arrowhead,
as in `<<<.>`. Every part may be missing. -/
namespace UmlDrawing

inductive Dash where
  | solid
  | long
  | short
  deriving DecidableEq, Repr, Inhabited

namespace Dash

/-- The lengths drawn and left out in turn; none for a solid line. -/
def pattern : Dash → List Int
  | solid => []
  | long => [6, 6]
  | short => [2, 2]

def ofBody (body : Text) : Dash :=
  if body = ['.'] then long else if body = ['.', '.'] then short else solid

@[simp] theorem ofBody_nil : ofBody [] = solid := rfl

end Dash

inductive HeadFill where
  | none
  | inverse
  | foreground
  deriving DecidableEq, Repr, Inhabited

/-- The arrowheads, numbered by the length of their tokens. -/
inductive ArrowKind where
  | none
  | opened
  | hollowTriangle
  | filledTriangle
  | hollowDiamond
  | filledDiamond
  deriving DecidableEq, Repr, Inhabited

namespace ArrowKind

def ofLength : Nat → ArrowKind
  | 1 => opened
  | 2 => hollowTriangle
  | 3 => filledTriangle
  | 4 => hollowDiamond
  | 5 => filledDiamond
  | _ => none

def length : ArrowKind → Nat
  | none => 0
  | opened => 1
  | hollowTriangle => 2
  | filledTriangle => 3
  | hollowDiamond => 4
  | filledDiamond => 5

/-- Whether a token repeats one character. -/
def uniform : Text → Bool
  | [] => true
  | c :: r => r.all (· = c)

/-- Whether a token stands for an arrowhead or for none. -/
def supported (token : Text) : Bool := uniform token && decide (token.length ≤ 5)

/-- The arrowhead that a token stands for. Tokens that mix characters or that are too long stand
for none. -/
def ofToken (token : Text) : ArrowKind :=
  if supported token then ofLength token.length else none

def notes (token : Text) : List Note := if supported token then [] else [.arrowIgnored token]

def fill : ArrowKind → HeadFill
  | hollowTriangle | hollowDiamond => .inverse
  | filledTriangle | filledDiamond => .foreground
  | none | opened => .none

@[simp] theorem ofLength_length (k : ArrowKind) : ofLength k.length = k := by cases k <;> rfl

@[simp] theorem ofToken_nil : ofToken [] = none := rfl

theorem ofToken_replicate {n : Nat} (c : Char) (h : n ≤ 5) :
    ofToken (List.replicate n c) = ofLength n := by
  have : uniform (List.replicate n c) = true := by
    cases n <;> simp [uniform, List.replicate_succ]
  simp [ofToken, supported, this, h]

end ArrowKind

structure LineStyle where
  dash : Dash := .solid
  left : Text := []
  right : Text := []
  deriving DecidableEq, Repr, Inhabited

namespace LineStyle

def isHead (c : Char) : Bool := c == '<' || c == '>'

def isBody (c : Char) : Bool := c == '-' || c == '.'

/-- The style that a token without blanks around it stands for; what follows the right arrowhead
does not matter. -/
def ofToken (token : Text) : LineStyle :=
  let afterLeft := token.dropWhile isHead
  let afterBody := afterLeft.dropWhile isBody
  { dash := .ofBody (afterLeft.takeWhile isBody)
    left := token.takeWhile isHead
    right := afterBody.takeWhile isHead }

/-- The style that a property stands for; a missing or blank one is a plain line. -/
def decode (property : Option Text) : LineStyle :=
  let token := Text.trim (property.getD [])
  ofToken (if token = [] then ['-'] else token)

def leftKind (s : LineStyle) : ArrowKind := .ofToken s.left

def rightKind (s : LineStyle) : ArrowKind := .ofToken s.right

@[simp] theorem decode_none : decode none = {} := rfl

example : decode (some " <<<.> x".toList) = ⟨.long, "<<<".toList, ">".toList⟩ := by decide

end LineStyle

end UmlDrawing
