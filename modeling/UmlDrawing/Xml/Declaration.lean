import UmlDrawing.Text.CodePage
import UmlDrawing.Xml.Reader

/-! The declaration at the beginning of a document, and the decoding that it asks for. -/
namespace UmlDrawing.Xml

structure Declaration where
  encoding : Option Text := none
  standalone : Bool := false
  deriving DecidableEq, Repr, Inhabited

namespace Declaration

open Reader

def isVersion (v : Text) : Bool :=
  match v with
  | '1' :: '.' :: digits => digits.all Char.isDigit
  | _ => false

def isEncodingName (n : Text) : Bool :=
  match n with
  | c :: r => c.isAlpha && r.all fun d => d.isAlphanum || d == '.' || d == '_' || d == '-'
  | [] => false

/-- An item with a name and a value, after the blanks before it. -/
def item (n : String) (p : Text → Bool) : Reader Text := do
  expect n
  equals
  quotedWhere p

/-- The rest of a declaration, where blanks have to stand before an item. -/
def tail (spaced : Bool) : Reader Declaration := do
  let encoding ←
    if ← looksAt "encoding" then
      if spaced then some <$> item "encoding" isEncodingName else failure
    else pure none
  let spaced ← gap (spaced && encoding.isNone)
  let standalone ←
    if ← looksAt "standalone" then
      if spaced then
        let v ← item "standalone" fun v => v == "yes".toList || v == "no".toList
        pure (v == "yes".toList)
      else failure
    else pure false
  blanks
  expect "?>"
  pure ⟨encoding, standalone⟩
where
  /-- Drops blanks and says whether there were any, or had been. -/
  gap (before : Bool) : Reader Bool := do
    if before then pure true
    else
      let b ← takeWhile isBlank
      pure !b.isEmpty

/-- A declaration, after its mark and with the blanks after that. -/
def read : Reader Declaration := do
  someBlanks
  let _ ← item "version" isVersion
  let b ← takeWhile isBlank
  tail !b.isEmpty

def isThere (t : Text) : Bool :=
  match Text.dropStart? "<?xml".toList t with
  | some (c :: _) => isBlank c
  | _ => false

def cut? (t : Text) : Option (Declaration × Text) :=
  if isThere t then read.run (t.drop 5) else some ({}, t)

end Declaration

inductive Encoding where
  | utf8
  | utf16 (bigEndian : Bool)
  | utf32 (bigEndian : Bool)
  | page (p : Text.CodePage)
  | other (name : Text)
  deriving Repr

namespace Encoding

/-- The encoding that a document declares by name. Units of sixteen bits cannot be declared in
units of eight. -/
def ofName (n : Text) : Encoding :=
  if ["UTF-8", "UTF8"].any fun m => n.map Char.toUpper = m.toList then utf8
  else
    match Text.CodePage.ofName? n with
    | some p => page p
    | none => other n

/-- The text of some bytes, where encodings without a table are decoded as given. -/
def decode? (others : Text.Decoders) : Encoding → Text.Bytes → Option Text
  | utf8, bytes => Text.ofUtf8? bytes
  | utf16 bigEndian, bytes => Text.ofUtf16? bigEndian bytes
  | utf32 bigEndian, bytes => Text.ofUtf32? bigEndian bytes
  | page p, bytes => p.decode? bytes
  | other n, bytes => others n bytes

/-- The encoding that the first bytes show, and the bytes without its mark. Where there is no mark,
the units can be told by the beginning of a declaration. -/
def ofStart? (bytes : Text.Bytes) : Option (Encoding × Text.Bytes) :=
  match bytes with
  | 0xEF :: 0xBB :: 0xBF :: r => some (utf8, r)
  | 0xFF :: 0xFE :: 0 :: 0 :: r => some (utf32 false, r)
  | 0 :: 0 :: 0xFE :: 0xFF :: r => some (utf32 true, r)
  | 0xFF :: 0xFE :: r => some (utf16 false, r)
  | 0xFE :: 0xFF :: r => some (utf16 true, r)
  | 0x3C :: 0 :: 0x3F :: 0 :: _ => some (utf16 false, bytes)
  | 0 :: 0x3C :: 0 :: 0x3F :: _ => some (utf16 true, bytes)
  | 0 :: 0 :: 0 :: 0x3C :: _ => some (utf32 true, bytes)
  | _ => none

/-- The encoding of a document and its bytes without the mark of the encoding. The first bytes decide,
then the declaration; where there is neither, the units have eight bits. -/
def detect? (bytes : Text.Bytes) : Option (Encoding × Text.Bytes) :=
  match ofStart? bytes with
  | some found => some found
  | none =>
    match Declaration.cut? (Text.ofLatin1 bytes) with
    | some ({ encoding := some n, .. }, _) => some (ofName n, bytes)
    | some ({ encoding := none, .. }, _) => some (utf8, bytes)
    | none => none

end Encoding

/-- The text of a document given as bytes, with its line ends in one form. -/
def decode? (others : Text.Decoders) (bytes : Text.Bytes) : Option Text := do
  let (encoding, bytes) ← Encoding.detect? bytes
  let t ← encoding.decode? others bytes
  pure (normalizeLines t)

example : decode? .basic (Text.toUtf8 "<?xml version='1.0' encoding='latin1'?>é".toList) =
    some "<?xml version='1.0' encoding='latin1'?>Ã©".toList := by rfl

end UmlDrawing.Xml
