import UmlDrawing.Text.Basic

/-! What terminals take for styles in a text: an escape, a bracket, some parameters and a letter. -/
namespace UmlDrawing.Text

/-- The character that starts what is meant for the terminal. -/
def styleMark : Char := '\x1b'

def isParameter (c : Char) : Bool := c.isDigit || c == ';' || c == '?'

/-- A text without styles, after the beginning of one, which is given backwards; it is kept if it
turns out to be none. -/
def unstyledAfter : Text → Text → Text
  | held, [] => held.reverse
  | held, c :: r =>
    if c = styleMark then held.reverse ++ unstyledAfter [c] r
    else if held = [] then c :: unstyledAfter [] r
    else if held = [styleMark] then
      if c = '[' then unstyledAfter [c, styleMark] r else held.reverse ++ c :: unstyledAfter [] r
    else if isParameter c then unstyledAfter (c :: held) r
    else if c.isAlpha then unstyledAfter [] r
    else held.reverse ++ c :: unstyledAfter [] r

def unstyled (t : Text) : Text := unstyledAfter [] t

theorem unstyledAfter_of_forall {t : Text} (h : ∀ c ∈ t, c ≠ styleMark) : unstyledAfter [] t = t := by
  induction t with
  | nil => rfl
  | cons c r ih =>
    have hc : c ≠ styleMark := h c List.mem_cons_self
    have hr := ih fun d hd => h d (List.mem_cons_of_mem _ hd)
    simp [unstyledAfter, hc, hr]

theorem unstyled_of_forall {t : Text} (h : ∀ c ∈ t, c ≠ styleMark) : unstyled t = t :=
  unstyledAfter_of_forall h

example : unstyled "a\x1b[1;31mb\x1b[Kc".toList = "abc".toList := by rfl

example : unstyled "a\x1b[1\x1bb".toList = "a\x1b[1\x1bb".toList := by rfl

end UmlDrawing.Text
