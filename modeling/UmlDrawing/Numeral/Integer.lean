import UmlDrawing.Fault
import UmlDrawing.Text.Blank
import UmlDrawing.Text.Digit

/-! Integers as they are written. A field of a document is read by its leading integer, whatever
follows it; a colour component must be an integer as a whole. Digits of every script count. -/
namespace UmlDrawing.Numeral

/-- The number with the given digits, the most significant one first. -/
def ofDigits (base : Nat) (digits : List Nat) : Nat :=
  digits.foldl (fun n d => base * n + d) 0

@[simp] theorem ofDigits_nil (base : Nat) : ofDigits base [] = 0 := rfl

@[simp] theorem ofDigits_append_singleton (base : Nat) (digits : List Nat) (d : Nat) :
    ofDigits base (digits ++ [d]) = base * ofDigits base digits + d := by
  simp [ofDigits]

/-- Decimal numerals with more digits than this are refused. -/
def maxDigits : Nat := 4300

def decimal (digits : List Nat) : Except Fault Nat :=
  if maxDigits < digits.length then .error .tooManyDigits else .ok (ofDigits 10 digits)

def signed (negative : Bool) (n : Nat) : Int := if negative then -(n : Int) else n

/-- Whether a minus sign comes first, and the text after the sign if there is one. -/
def cutSign : Text → Bool × Text
  | '-' :: r => (true, r)
  | '+' :: r => (false, r)
  | t => (false, t)

def leadingDigits : Text → List Nat
  | [] => []
  | c :: r =>
    match Text.digitValue? c with
    | some d => d :: leadingDigits r
    | none => []

/-- The sign and the digits of the integer that the text begins with, blanks aside. -/
def leading? (t : Text) : Option (Bool × List Nat) :=
  let (negative, r) := cutSign (Text.trimStart t)
  match leadingDigits r with
  | [] => none
  | digits => some (negative, digits)

/-- The integer that the text begins with, or the default if it begins with none. -/
def parseLeading (t : Text) (default : Int) : Except Fault Int :=
  match leading? t with
  | none => .ok default
  | some (negative, digits) => (decimal digits).map (signed negative)

def isPadding (c : Char) : Bool :=
  if c.toNat < 128 then c == ' ' || (9 ≤ c.toNat && c.toNat ≤ 13) else Text.isBlank c

def trimPadding (t : Text) : Text :=
  ((t.dropWhile isPadding).reverse.dropWhile isPadding).reverse

/-- The value of a digit or letter in a base of at most 36. -/
def digitInBase? (base : Nat) (c : Char) : Option Nat :=
  let value? :=
    match Text.digitValue? c with
    | some d => some d
    | none =>
      if 'a' ≤ c.toLower ∧ c.toLower ≤ 'z' then some (c.toLower.toNat - 'a'.toNat + 10) else none
  value?.filter (· < base)

/-- The digits of a text that holds nothing but digits and single underscores between them. -/
def groupedDigits? (base : Nat) : Text → Option (List Nat)
  | [] => none
  | [c] => (digitInBase? base c).map ([·])
  | c :: '_' :: r => do
    let d ← digitInBase? base c
    let digits ← groupedDigits? base r
    pure (d :: digits)
  | c :: r => do
    let d ← digitInBase? base c
    let digits ← groupedDigits? base r
    pure (d :: digits)

/-- The text after the mark of hexadecimal numerals, which is optional. -/
def dropHexMark : Text → Text
  | '0' :: 'x' :: '_' :: r => r
  | '0' :: 'X' :: '_' :: r => r
  | '0' :: 'x' :: r => r
  | '0' :: 'X' :: r => r
  | t => t

def parseDecimal (t : Text) : Except Fault Int := do
  let (negative, r) := cutSign (trimPadding t)
  let digits ← orFault .malformedInteger (groupedDigits? 10 r)
  (decimal digits).map (signed negative)

def parseHex (t : Text) : Except Fault Int := do
  let (negative, r) := cutSign (trimPadding t)
  let digits ← orFault .malformedInteger (groupedDigits? 16 (dropHexMark r))
  pure (signed negative (ofDigits 16 digits))

example : parseLeading " -12.5px".toList 0 = .ok (-12) := rfl

example : parseDecimal " 1_0 ".toList = .ok 10 := rfl

example : parseHex "0xff".toList = .ok 255 := rfl

end UmlDrawing.Numeral
