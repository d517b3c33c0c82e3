import UmlDrawing.Numeral.Integer
import UmlDrawing.Numeral.Binary64

/-! Real numerals: decimal fractions with an optional power of ten, and the names of the doubles
that are no numbers. The value is the nearest double. -/
namespace UmlDrawing.Numeral

/-- The digits that the text begins with, single underscores between them left out, and the rest
of the text. -/
def cutDigits : Text → List Nat × Text
  | [] => ([], [])
  | c :: '_' :: (r@(c' :: _)) =>
    match Text.digitValue? c with
    | none => ([], c :: '_' :: r)
    | some d =>
      if Text.isDigit c' then
        let (digits, rest) := cutDigits r
        (d :: digits, rest)
      else ([d], '_' :: r)
  | c :: r =>
    match Text.digitValue? c with
    | none => ([], c :: r)
    | some d =>
      let (digits, rest) := cutDigits r
      (d :: digits, rest)

/-- The power of ten at the end of a numeral; none if the text is anything else. -/
def parsePower? : Text → Option Int
  | [] => some 0
  | c :: r =>
    if c = 'e' ∨ c = 'E' then
      let (negative, r) := cutSign r
      match cutDigits r with
      | ([], _) => none
      | (digits, []) => some (signed negative (ofDigits 10 digits))
      | _ => none
    else none

/-- The double nearest to `n * 10 ^ power`, without ever writing out a hopeless power. -/
def nearest (negative : Bool) (n : Nat) (power : Int) : Float :=
  let size := power + (Nat.toDigits 10 n).length
  if n = 0 ∨ size < -400 then Binary64.ofRatio negative 0 1
  else if 400 < size then Binary64.ofRatio negative (tenTo 400) 1
  else
    match power with
    | .ofNat k => Binary64.ofRatio negative (n * tenTo k) 1
    | .negSucc k => Binary64.ofRatio negative n (tenTo (k + 1))

def parseUnsigned? (negative : Bool) (t : Text) : Option Float :=
  let name := t.map Char.toLower
  if name = "inf".toList ∨ name = "infinity".toList then
    some (Float.ofBits (if negative then 0xFFF0000000000000 else 0x7FF0000000000000))
  else if name = "nan".toList then some (Float.ofBits 0x7FF8000000000000)
  else
    let (whole, r) := cutDigits t
    let (fraction, r) :=
      match r with
      | '.' :: r => cutDigits r
      | r => ([], r)
    if whole = [] ∧ fraction = [] then none
    else
      (parsePower? r).map fun power =>
        nearest negative (ofDigits 10 (whole ++ fraction)) (power - fraction.length)

def parseReal? (t : Text) : Option Float :=
  let (negative, r) := cutSign (trimPadding t)
  parseUnsigned? negative r

/-- The double that a text denotes once its blanks are off, or the default. -/
def parseRealOr (t : Text) (default : Float) : Float :=
  (parseReal? (Text.trim t)).getD default

end UmlDrawing.Numeral
