import UmlDrawing.Text.Basic

/-! Styles of text runs and the characters that switch them on. -/
namespace UmlDrawing

structure TextStyle where
  bold : Bool := false
  italic : Bool := false
  underline : Bool := false
  deriving DecidableEq, Repr, Inhabited

/-- The flags that can be switched on within a line. -/
inductive Emphasis where
  | bold
  | italic
  | underline
  deriving DecidableEq, Repr, Inhabited

namespace Emphasis

/-- The character on both sides of a run with the flag. -/
def delimiter : Emphasis → Char
  | bold => '*'
  | italic => '/'
  | underline => '_'

def ofChar? (c : Char) : Option Emphasis :=
  if c = '*' then some bold
  else if c = '/' then some italic
  else if c = '_' then some underline
  else none

@[simp] theorem ofChar?_delimiter (e : Emphasis) : ofChar? e.delimiter = some e := by
  cases e <;> rfl

theorem ofChar?_eq_some_iff {c : Char} {e : Emphasis} : ofChar? c = some e ↔ c = e.delimiter := by
  constructor
  · intro h
    unfold ofChar? at h
    split at h
    · cases h; simpa [delimiter]
    · split at h
      · cases h; simpa [delimiter]
      · split at h
        · cases h; simpa [delimiter]
        · cases h
  · rintro rfl
    simp

end Emphasis

namespace TextStyle

def withEmphasis (s : TextStyle) : Emphasis → TextStyle
  | .bold => { s with bold := true }
  | .italic => { s with italic := true }
  | .underline => { s with underline := true }

def has (s : TextStyle) : Emphasis → Bool
  | .bold => s.bold
  | .italic => s.italic
  | .underline => s.underline

@[simp] theorem has_withEmphasis (s : TextStyle) (e f : Emphasis) :
    (s.withEmphasis e).has f = (decide (e = f) || s.has f) := by
  cases e <;> cases f <;> simp [withEmphasis, has]

end TextStyle

end UmlDrawing
