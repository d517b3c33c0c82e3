/-! A text is a list of code points. Every rule of this library about text is a rule on its
characters, so nothing here depends on how strings are stored. -/
namespace UmlDrawing

abbrev Text := List Char

namespace Text

/-- The pieces between the separators, one more than there are separators. -/
def splitOn (sep : Char) : Text → List Text
  | [] => [[]]
  | c :: r =>
    if c = sep then [] :: splitOn sep r
    else
      match splitOn sep r with
      | [] => [[c]]
      | piece :: pieces => (c :: piece) :: pieces

def join (sep : Text) : List Text → Text
  | [] => []
  | [t] => t
  | t :: u :: ts => t ++ sep ++ join sep (u :: ts)

/-- The text before the first occurrence of the character and the text after it. -/
def cut? (sep : Char) : Text → Option (Text × Text)
  | [] => none
  | c :: r => if c = sep then some ([], r) else (cut? sep r).map fun (a, b) => (c :: a, b)

/-- What follows the beginning, if the text begins that way. -/
def dropStart? : Text → Text → Option Text
  | [], t => some t
  | _ :: _, [] => none
  | c :: cs, d :: ds => if c = d then dropStart? cs ds else none

def startsWith (t start : Text) : Bool := (dropStart? start t).isSome

def endsWith (t stop : Text) : Bool := startsWith t.reverse stop.reverse

def contains (t part : Text) : Bool :=
  match t with
  | [] => part.isEmpty
  | c :: r => startsWith (c :: r) part || contains r part

def ofNat (n : Nat) : Text := Nat.toDigits 10 n

def ofInt : Int → Text
  | .ofNat n => ofNat n
  | .negSucc n => '-' :: ofNat (n + 1)

/-- A natural number in lower case hexadecimal, filled with zeros to the width. -/
def hex (width n : Nat) : Text :=
  let digits := Nat.toDigits 16 n
  List.replicate (width - digits.length) '0' ++ digits

/-- A natural number in upper case hexadecimal, filled with zeros to the width. -/
def hexUpper (width n : Nat) : Text := (hex width n).map Char.toUpper

/-- The number of bytes that the text takes in units of eight bits. -/
def utf8Size (t : Text) : Nat := t.foldl (fun n c => n + c.utf8Size) 0

def inRanges (ranges : List (Nat × Nat)) (n : Nat) : Bool :=
  ranges.any fun (first, last) => decide (first ≤ n) && decide (n ≤ last)

/-- Texts are ordered character by character, a text before its continuations. -/
def le : Text → Text → Bool
  | [], _ => true
  | _ :: _, [] => false
  | c :: cs, d :: ds => if c = d then le cs ds else decide (c < d)

theorem splitOn_ne_nil (sep : Char) (t : Text) : splitOn sep t ≠ [] := by
  cases t with
  | nil => simp [splitOn]
  | cons c r =>
    simp only [splitOn]
    split
    · simp
    · split <;> simp

@[simp] theorem startsWith_nil (t : Text) : startsWith t [] = true := by
  cases t <;> rfl

@[simp] theorem dropStart?_append (start t : Text) : dropStart? start (start ++ t) = some t := by
  induction start with
  | nil => simp [dropStart?]
  | cons c cs ih => simpa [dropStart?] using ih

theorem join_splitOn (sep : Char) (t : Text) : join [sep] (splitOn sep t) = t := by
  induction t with
  | nil => rfl
  | cons c r ih =>
    simp only [splitOn]
    rcases h : splitOn sep r with _ | ⟨piece, _ | ⟨next, pieces⟩⟩
    · exact absurd h (splitOn_ne_nil sep r)
    · rw [h] at ih
      by_cases hc : c = sep <;> simp_all [join]
    · rw [h] at ih
      by_cases hc : c = sep <;> simp_all [join]

example : splitOn ';' "1;2;".toList = ["1".toList, "2".toList, []] := by decide

end Text

end UmlDrawing
