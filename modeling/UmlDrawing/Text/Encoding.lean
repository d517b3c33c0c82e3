import UmlDrawing.Text.Basic

/-! Texts as bytes: the encodings of eight, sixteen and thirty-two bit units. Decoding accepts
only what is well-formed. -/
namespace UmlDrawing.Text

abbrev Bytes := List UInt8

def utf8Char (c : Char) : Bytes :=
  let n := c.toNat
  let tail := fun (m : Nat) => (0x80 + m % 64).toUInt8
  if n < 0x80 then [n.toUInt8]
  else if n < 0x800 then [(0xC0 + n / 64).toUInt8, tail n]
  else if n < 0x10000 then [(0xE0 + n / 4096).toUInt8, tail (n / 64), tail n]
  else [(0xF0 + n / 262144).toUInt8, tail (n / 4096), tail (n / 64), tail n]

def toUtf8 (t : Text) : Bytes := t.flatMap utf8Char

def char? (n : Nat) : Option Char := if h : n.isValidChar then some (Char.ofNatAux n h) else none

/-- The character that a first byte with a value and the following bytes stand for. A number that
is less than the least one for so many bytes has a shorter form and is refused, as it is where bytes
are missing. -/
def fromTail? (least start : Nat) (tail : List UInt8) : Option Char :=
  if tail.all fun b => b.toNat / 64 = 2 then
    let n := tail.foldl (fun n b => n * 64 + b.toNat % 64) start
    if least ≤ n then char? n else none
  else none

def cutUtf8? : Bytes → Option (Char × Bytes)
  | [] => none
  | a :: r =>
    if a < 0x80 then some (Char.ofNat a.toNat, r)
    else if a < 0xC0 then none
    else if a < 0xE0 then (fromTail? 0x80 (a.toNat % 32) (r.take 1)).map (·, r.drop 1)
    else if a < 0xF0 then (fromTail? 0x800 (a.toNat % 16) (r.take 2)).map (·, r.drop 2)
    else if a < 0xF8 then (fromTail? 0x10000 (a.toNat % 8) (r.take 3)).map (·, r.drop 3)
    else none

/-- The text so far, given backwards, with that of the remaining bytes. The fuel bounds the number
of characters. -/
def ofUtf8From? : Nat → Text → Bytes → Option Text
  | _, done, [] => some done.reverse
  | 0, _, _ :: _ => none
  | fuel + 1, done, b :: bytes =>
    match cutUtf8? (b :: bytes) with
    | some (c, rest) => ofUtf8From? fuel (c :: done) rest
    | none => none

def ofUtf8? (bytes : Bytes) : Option Text := ofUtf8From? bytes.length [] bytes

/-- The text of which every byte is the number of a character. -/
def ofLatin1 (bytes : Bytes) : Text := bytes.map fun b => Char.ofNat b.toNat

/-- The sixteen bit units of some bytes after those so far, which are given backwards, the more
significant byte first or last. A byte alone at the end is no unit. -/
def units16 (bigEndian : Bool) : List Nat → Bytes → List Nat
  | done, a :: b :: r =>
    let unit := if bigEndian then a.toNat * 256 + b.toNat else b.toNat * 256 + a.toNat
    units16 bigEndian (unit :: done) r
  | done, _ => done.reverse

/-- The text so far, given backwards, with that of the remaining sixteen bit units. The first unit of
a pair stands for nothing at the end. -/
def ofUnits16? : Text → List Nat → Option Text
  | done, [] => some done.reverse
  | done, [u] =>
    if 0xD800 ≤ u ∧ u < 0xDC00 then some done.reverse
    else (char? u).map fun c => (c :: done).reverse
  | done, u :: v :: r =>
    if 0xD800 ≤ u ∧ u < 0xDC00 then
      if 0xDC00 ≤ v ∧ v < 0xE000 then
        match char? (0x10000 + (u - 0xD800) * 0x400 + (v - 0xDC00)) with
        | some c => ofUnits16? (c :: done) r
        | none => none
      else none
    else
      match char? u with
      | some c => ofUnits16? (c :: done) (v :: r)
      | none => none

/-- The text in units of sixteen bits, if the bytes are well-formed so far as they are complete. -/
def ofUtf16? (bigEndian : Bool) (bytes : Bytes) : Option Text :=
  ofUnits16? [] (units16 bigEndian [] bytes)

/-- The text so far, given backwards, with that of the remaining bytes in units of thirty-two bits.
Fewer bytes than a unit has stand for nothing at the end. -/
def ofUtf32From? (bigEndian : Bool) : Text → Bytes → Option Text
  | done, a :: b :: c :: d :: r =>
    let bytes := if bigEndian then [a, b, c, d] else [d, c, b, a]
    let unit := bytes.foldl (fun n x => n * 256 + x.toNat) 0
    match char? unit with
    | some x => ofUtf32From? bigEndian (x :: done) r
    | none => none
  | done, _ => some done.reverse

/-- The text in units of thirty-two bits, if the bytes are well-formed so far as they are complete. -/
def ofUtf32? (bigEndian : Bool) (bytes : Bytes) : Option Text := ofUtf32From? bigEndian [] bytes

example : ofUtf8? (toUtf8 "aé日😀".toList) = some "aé日😀".toList := by rfl

example : ofUtf8? [0xC0, 0x80] = none := by rfl

end UmlDrawing.Text
