import UmlDrawing.Text.Basic

/-! The characters of markup documents: those that may occur at all, blanks, and those of names. -/
namespace UmlDrawing.Xml

def isChar (c : Char) : Bool :=
  Text.inRanges [(0x9, 0xA), (0xD, 0xD), (0x20, 0xD7FF), (0xE000, 0xFFFD), (0x10000, 0x10FFFF)]
    c.toNat

def isBlank (c : Char) : Bool := c == ' ' || c == '\t' || c == '\n' || c == '\r'

/-- The code points that can start a name, the colon and the letters of the basic alphabet apart. -/
def nameStartRanges : List (Nat × Nat) :=
  [(0xC0, 0xD6), (0xD8, 0xF6), (0xF8, 0x2FF), (0x370, 0x37D), (0x37F, 0x1FFF), (0x200C, 0x200D),
   (0x2070, 0x218F), (0x2C00, 0x2FEF), (0x3001, 0xD7FF), (0xF900, 0xFDCF), (0xFDF0, 0xFFFD),
   (0x10000, 0xEFFFF)]

def isNameStart (c : Char) : Bool :=
  c.isAlpha || c == ':' || c == '_' || Text.inRanges nameStartRanges c.toNat

def isNameChar (c : Char) : Bool :=
  isNameStart c || c.isDigit || c == '-' || c == '.'
    || Text.inRanges [(0xB7, 0xB7), (0x300, 0x36F), (0x203F, 0x2040)] c.toNat

/-- The text so far, given backwards, with the rest of it after its line ends are in one form. -/
def normalizeFrom : Text → Text → Text
  | done, [] => done.reverse
  | done, '\r' :: '\n' :: r => normalizeFrom ('\n' :: done) r
  | done, '\r' :: r => normalizeFrom ('\n' :: done) r
  | done, c :: r => normalizeFrom (c :: done) r

/-- Line ends in one form: a carriage return, alone or before a line feed, becomes a line feed. -/
def normalizeLines (t : Text) : Text := normalizeFrom [] t

theorem isNameChar_of_isNameStart {c : Char} (h : isNameStart c = true) : isNameChar c = true := by
  simp [isNameChar, h]

example : normalizeLines "a\r\nb\rc".toList = "a\nb\nc".toList := by decide

end UmlDrawing.Xml
