import UmlDrawing.Chunk
import UmlDrawing.Color.Basic
import UmlDrawing.Color.Names
import UmlDrawing.Numeral.Real
import UmlDrawing.Text.Lowercase

/-! How colours are written in documents: lists of components, hexadecimal digits, names, and the
notations by hue. -/
namespace UmlDrawing.Color

open Numeral

/-- A colour from its list of components, the opacity being optional. -/
def ofList (source : Text) : Except Fault Color := do
  match Text.splitOn ',' source with
  | [r, g, b, a] =>
    let alpha ← orFault .malformedReal (parseReal? a)
    let r ← parseDecimal r
    let g ← parseDecimal g
    let b ← parseDecimal b
    pure { r := r, g := g, b := b, a := .real alpha }
  | [r, g, b] =>
    let r ← parseDecimal r
    let g ← parseDecimal g
    let b ← parseDecimal b
    pure { r := r, g := g, b := b }
  | _ => .error (.componentCount source)

def ofHexParts (parts : List Text) (alpha : Scalar) : Except Fault Color := do
  match ← parts.mapM parseHex with
  | [r, g, b] => pure { r := r, g := g, b := b, a := alpha }
  | _ => .error .hexLength

/-- The numerals of one digit each, doubled. -/
def doubled (digits : Text) : List Text := digits.map fun c => [c, c]

def paired (digits : Text) : List Text := (Chunk.ofList 2 false digits).map fun p => p.filterMap id

/-- The opacity that a hexadecimal numeral stands for, as a part of the greatest one. -/
def hexAlpha (digits : Text) (greatest : Int) : Except Fault Scalar := do
  let n ← parseHex digits
  Scalar.div (.whole n) (.whole greatest)

/-- A colour from 3, 4, 6 or 8 hexadecimal digits, with or without a mark before them. -/
def ofHex (source : Text) : Except Fault Color := do
  let digits := (Text.dropStart? ['#'] source).getD source
  match digits.length with
  | 3 => ofHexParts (doubled digits) (.real 1.0)
  | 4 =>
    let alpha ← hexAlpha (digits.drop 3) 15
    ofHexParts (doubled (digits.take 3)) alpha
  | 6 => ofHexParts (paired digits) (.real 1.0)
  | 8 =>
    let alpha ← hexAlpha (digits.drop 6) 255
    ofHexParts (paired (digits.take 6)) alpha
  | _ => .error .hexLength

/-- Whether the character is a hexadecimal digit in lower case. -/
def isPlainHex (c : Char) : Bool := ('0' ≤ c && c ≤ '9') || ('a' ≤ c && c ≤ 'f')

/-- The arguments between the parentheses after the given name; a line end may follow. -/
def arguments? (name t : Text) : Option (List Text) := do
  let rest ← Text.dropStart? (name ++ ['(']) t
  let rest := if rest.getLast? = some '\n' then rest.dropLast else rest
  if rest.getLast? = some ')' then some (Text.splitOn ',' rest.dropLast) else none

/-- An argument that consists of digits, blanks aside. -/
def natArgument? (t : Text) : Option Nat :=
  let body := Text.trim t
  if body ≠ [] ∧ body.all Text.isDigit then
    some (ofDigits 10 (leadingDigits body))
  else none

/-- An argument that ends in a percent sign, without it; no blank stands before the sign. -/
def percentage? (t : Text) : Option Text :=
  let body := Text.trim t
  if body.getLast? = some '%' then
    let number := body.dropLast
    if (number.getLast?.map Text.isBlank).getD true then none else some number
  else none

def realArgument? (t : Text) : Option Float :=
  let body := Text.trim t
  let afterWhole := body.dropWhile Text.isDigit
  let afterPoint := (Text.dropStart? ['.'] afterWhole).getD afterWhole
  if (body.head?.map Text.isDigit).getD false ∧ afterPoint.all Text.isDigit then parseReal? body
  else none

/-- A number raised by one half and cut off after the point. -/
def byteOf (x : Float) : Option Int := (Scalar.truncate (.real (x + 0.5))).toOption

/-- The part of a number after its point, taken from the next integer below. -/
def fraction (x : Float) : Float :=
  match Scalar.truncate (.real x) with
  | .error _ => x
  | .ok n =>
    let r := x - Float.ofInt n
    if r < 0.0 then r + 1.0 else if r == 0.0 then 0.0 else r

/-- One component of a colour given by hue, between its least and its greatest value. -/
def hueComponent (low high hue : Float) : Float :=
  let hue := fraction hue
  if hue < 1.0 / 6.0 then low + (high - low) * hue * 6.0
  else if hue < 0.5 then high
  else if hue < 2.0 / 3.0 then low + (high - low) * (2.0 / 3.0 - hue) * 6.0
  else low

def ofLightness (h l s : Float) : Float × Float × Float :=
  if s == 0.0 then (l, l, l)
  else
    let high := if l <= 0.5 then l * (1.0 + s) else l + s - l * s
    let low := 2.0 * l - high
    (hueComponent low high (h + 1.0 / 3.0), hueComponent low high h,
      hueComponent low high (h - 1.0 / 3.0))

def ofValue (h s v : Float) : Float × Float × Float :=
  if s == 0.0 then (v, v, v)
  else
    let sector : Int := ((Scalar.truncate (.real (h * 6.0))).toOption).getD 0
    let f := h * 6.0 - Float.ofInt sector
    let p := v * (1.0 - s)
    let q := v * (1.0 - s * f)
    let t := v * (1.0 - s * (1.0 - f))
    match (sector % 6).toNat with
    | 0 => (v, t, p)
    | 1 => (q, v, p)
    | 2 => (p, v, t)
    | 3 => (p, q, v)
    | 4 => (t, p, v)
    | _ => (v, p, q)

def bytesOf (rgb : Float × Float × Float) : Option Color := do
  let r ← byteOf (rgb.1 * 255.0)
  let g ← byteOf (rgb.2.1 * 255.0)
  let b ← byteOf (rgb.2.2 * 255.0)
  some { r := r, g := g, b := b }

/-- A hexadecimal colour among the names, its opacity left out. -/
def hexName? (t : Text) : Option Color := do
  let digits ← Text.dropStart? ['#'] t
  let digits := if digits.getLast? = some '\n' then digits.dropLast else digits
  if digits.all isPlainHex then
    match digits.length with
    | 3 | 4 => (ofHexParts (doubled (digits.take 3)) (.real 1.0)).toOption
    | 6 | 8 => (ofHexParts (paired (digits.take 6)) (.real 1.0)).toOption
    | _ => none
  else none

def numbersName? (t : Text) : Option Color :=
  match arguments? "rgb".toList t, arguments? "rgba".toList t with
  | some [r, g, b], _ => do
    some { r := (← natArgument? r : Nat), g := (← natArgument? g : Nat),
           b := (← natArgument? b : Nat) }
  | _, some [r, g, b, a] => do
    let _ ← natArgument? a
    some { r := (← natArgument? r : Nat), g := (← natArgument? g : Nat),
           b := (← natArgument? b : Nat) }
  | _, _ => none

def percentByte? (t : Text) : Option Int := do
  let number ← percentage? t
  let n ← natArgument? number
  let x ← (Scalar.toFloat (.whole (n * 255))).toOption
  byteOf (x / 100.0)

def percentName? (t : Text) : Option Color :=
  match arguments? "rgb".toList t with
  | some [r, g, b] => do
    some { r := ← percentByte? r, g := ← percentByte? g, b := ← percentByte? b }
  | _ => none

/-- The three numbers of a notation by hue, the second and third as parts of one hundred. -/
def hueArguments? (name t : Text) : Option (Float × Float × Float) :=
  match arguments? name t with
  | some [h, s, l] => do
    let h ← realArgument? h
    let s ← realArgument? (← percentage? s)
    let l ← realArgument? (← percentage? l)
    some (h / 360.0, s / 100.0, l / 100.0)
  | _ => none

def hueName? (t : Text) : Option Color :=
  match hueArguments? "hsl".toList t with
  | some (h, s, l) => bytesOf (ofLightness h l s)
  | none =>
    match hueArguments? "hsb".toList t, hueArguments? "hsv".toList t with
    | some (h, s, v), _ => bytesOf (ofValue h s v)
    | _, some (h, s, v) => bytesOf (ofValue h s v)
    | none, none => none

/-- A colour by a name, or by one of the notations that are taken for names. Names have at most a
hundred characters. -/
def ofName? (name : Text) : Option Color :=
  if 100 < name.length then none
  else
    match named? name with
    | some (r, g, b) => some { r := r, g := g, b := b }
    | none =>
      (hexName? name).or ((numbersName? name).or ((percentName? name).or (hueName? name)))

/-- A colour as it is written in a document. Case, blanks around it, and blanks and underscores
within names do not matter. -/
def parse (source : Text) : Except Fault Color :=
  let t := Text.lower (Text.trim source)
  if (Text.startsWith t "rgb(".toList || Text.startsWith t "rgba(".toList)
      && Text.endsWith t [')'] then
    ofList (((Text.cut? '(' t).map (·.2)).getD []).dropLast
  else if Text.startsWith t ['#'] then ofHex (t.drop 1)
  else
    let name := t.filter fun c => c ≠ '_' && c ≠ ' '
    orFault (.unknownColor t) (ofName? name)

end UmlDrawing.Color
