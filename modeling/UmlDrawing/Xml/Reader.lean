import UmlDrawing.Xml.Character
import UmlDrawing.Xml.Name

/-! Reading the small parts of markup: names, quoted texts, blanks and references to characters. A
reader takes what it reads off the text, or fails. -/
namespace UmlDrawing.Xml

/-- Reads something from the beginning of a text. -/
abbrev Reader (α : Type) := StateT Text Option α

namespace Reader

def takeWhile (p : Char → Bool) : Reader Text := fun t => some (t.takeWhile p, t.dropWhile p)

def blanks : Reader Unit := fun t => some ((), t.dropWhile isBlank)

/-- Drops blanks, of which there must be some. -/
def someBlanks : Reader Unit := fun t =>
  match t with
  | c :: r => if isBlank c then some ((), r.dropWhile isBlank) else none
  | [] => none

def looksAt (s : String) : Reader Bool := fun t => some (Text.startsWith t s.toList, t)

/-- Takes the given characters, which must be there. -/
def expect (s : String) : Reader Unit := fun t => (Text.dropStart? s.toList t).map fun r => ((), r)

/-- Takes the given characters if they are there. -/
def accept (s : String) : Reader Bool := fun t =>
  match Text.dropStart? s.toList t with
  | some r => some (true, r)
  | none => some (false, t)

/-- The text so far, given backwards, with the rest up to a mark, and what follows the mark. -/
def cutAt (mark : Text) : Text → Text → Option (Text × Text)
  | _, [] => none
  | done, c :: r =>
    match Text.dropStart? mark (c :: r) with
    | some rest => some (done.reverse, rest)
    | none => cutAt mark (c :: done) r

def upTo (s : String) : Reader Text := fun t => cutAt s.toList [] t

def maxNameSize : Nat := 50000

def name : Reader Text := fun t =>
  match t with
  | c :: r =>
    let n := c :: r.takeWhile isNameChar
    if isNameStart c && decide (Text.utf8Size n ≤ maxNameSize) then
      some (n, r.dropWhile isNameChar)
    else none
  | [] => none

/-- The name in a tag, and whether it is as it should be. Colons that separate nothing belong to the
part of the name where they stand. -/
def qualifiedName : Reader (QName × Bool) := do
  let n ← name
  match Text.cut? ':' n with
  | none => pure (⟨none, n⟩, true)
  | some (label, part) =>
    if label.isEmpty || !isPlainStart part then pure (⟨none, n⟩, false)
    else
      match Text.cut? ':' part with
      | none => pure (⟨some label, part⟩, true)
      | some (_, rest) =>
        if rest.isEmpty || (rest.head?.map isNameStart).getD false then
          pure (⟨some label, part⟩, false)
        else failure
where
  /-- Whether a text starts like a name without a colon. -/
  isPlainStart (t : Text) : Bool := (t.head?.map fun c => c != ':' && isNameStart c).getD false

def word : Reader Text := do
  let w ← takeWhile isNameChar
  if w.isEmpty || decide (maxNameSize < Text.utf8Size w) then failure else pure w

/-- A text in quotes of either kind, without them. -/
def quoted : Reader Text := do
  if ← accept "\"" then upTo "\"" else
    expect "'"
    upTo "'"

def equals : Reader Unit := do
  blanks
  expect "="
  blanks

def quotedWhere (p : Text → Bool) : Reader Text := do
  let v ← quoted
  if p v then pure v else failure

def digitIn? (base : Nat) (c : Char) : Option Nat :=
  let n :=
    if c.isDigit then some (c.toNat - 48)
    else if 'a' ≤ c ∧ c ≤ 'f' then some (c.toNat - 87)
    else if 'A' ≤ c ∧ c ≤ 'F' then some (c.toNat - 55)
    else none
  n.bind fun d => if d < base then some d else none

/-- The value of some digits, of which there must be one. -/
def digitsIn? (base : Nat) (digits : Text) : Option Nat :=
  if digits.isEmpty then none
  else
    digits.foldlM (fun n c => (digitIn? base c).map fun d => min (n * base + d) 0x110000) 0

/-- The character of a numeric reference, after its mark. -/
def numericReference : Reader Char := do
  let base := if ← accept "x" then 16 else 10
  let digits ← upTo ";"
  match digitsIn? base digits with
  | some n =>
    let c := Char.ofNat n
    if c.toNat = n ∧ isChar c = true then pure c else failure
  | none => failure

def comment : Reader Text := do
  let content ← upTo "--"
  expect ">"
  if content.all isChar then pure content else failure

/-- A processing instruction, after its mark. Its target is not the word that starts a
declaration. -/
def instruction : Reader (Text × Text) := do
  let target ← name
  if target.map Char.toLower = "xml".toList then failure
  if ← accept "?>" then pure (target, [])
  else
    someBlanks
    let content ← upTo "?>"
    if content.all isChar then pure (target, content) else failure

end Reader

end UmlDrawing.Xml
