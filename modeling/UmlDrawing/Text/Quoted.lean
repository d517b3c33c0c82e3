import UmlDrawing.Text.Printable

/-! Texts as they are quoted in messages. A quoted text stands between single quotes, or between
double quotes if that saves escaping; what cannot be printed is written by its code point. -/
namespace UmlDrawing.Text

/-- The quote that needs fewer escapes; the single quote if both need some. -/
def quoteFor (t : Text) : Char := if '\'' ∈ t ∧ '"' ∉ t then '"' else '\''

def escape (quote c : Char) : Text :=
  if c = quote ∨ c = '\\' then ['\\', c]
  else if c = '\n' then ['\\', 'n']
  else if c = '\r' then ['\\', 'r']
  else if c = '\t' then ['\\', 't']
  else if isPrintable c then [c]
  else if c.toNat < 0x100 then ['\\', 'x'] ++ hex 2 c.toNat
  else if c.toNat < 0x10000 then ['\\', 'u'] ++ hex 4 c.toNat
  else ['\\', 'U'] ++ hex 8 c.toNat

def quoted (t : Text) : Text :=
  let quote := quoteFor t
  quote :: t.flatMap (escape quote) ++ [quote]

example : quoted "it's".toList = "\"it's\"".toList := by rfl

example : quoted "a\x7f\n".toList = "'a\\x7f\\n'".toList := by rfl

end UmlDrawing.Text
