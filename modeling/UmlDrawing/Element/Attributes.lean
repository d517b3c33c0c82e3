import UmlDrawing.Text.Blank

/-! Attribute blocks: text lines mixed with properties of the form `key=value`. -/
namespace UmlDrawing

/-- Properties by key. A key that is written again keeps its place and takes the new value. -/
abbrev Properties := List (Text × Text)

namespace Properties

def insert (key value : Text) : Properties → Properties
  | [] => [(key, value)]
  | (k, v) :: r => if k = key then (key, value) :: r else (k, v) :: insert key value r

def get? : Properties → Text → Option Text
  | [], _ => none
  | (k, v) :: r, key => if k = key then some v else get? r key

def sorted (props : Properties) : Properties := props.mergeSort fun p q => Text.le p.1 q.1

@[simp] theorem get?_nil (key : Text) : get? [] key = none := rfl

@[simp] theorem get?_insert (props : Properties) (key value other : Text) :
    get? (insert key value props) other =
      if key = other then some value else get? props other := by
  induction props with
  | nil => rfl
  | cons p r ih =>
    obtain ⟨k, v⟩ := p
    by_cases hk : k = key
    · subst hk
      by_cases h : k = other <;> simp [insert, get?, h]
    · by_cases h : k = other
      · subst h
        simp [insert, get?, hk, Ne.symm hk]
      · simp [insert, get?, hk, h, ih]

end Properties

namespace AttributeBlock

def isKeyChar (c : Char) : Bool := !Text.isBlank c && c != '='

/-- The key and the value that a text begins with, with `=` between them. The key takes as many
characters as it can, and gives them back one by one as long as no `=` follows. -/
def keyed? : Text → Option (Text × Text)
  | [] => none
  | c :: r =>
    if isKeyChar c then
      ((keyed? r).map fun (key, value) => (c :: key, value)).or
        ((Text.dropStart? ['='] r).map fun value => ([c], value))
    else none

def unkeyed? (t : Text) : Option (Text × Text) :=
  (Text.dropStart? ['='] t).map fun value => ([], value)

/-- The key and the value at the leftmost place of a text where there are any. Only at the first
place of a line the key may be empty. -/
def searchFrom? (first : Bool) : Text → Option (Text × Text)
  | [] => none
  | c :: r =>
    ((keyed? (c :: r)).or (if first then unkeyed? (c :: r) else none)).or (searchFrom? false r)

/-- The key and the value of a line, if it is a property. Blanks around the key do not count. -/
def property? (line : Text) : Option (Text × Text) :=
  (searchFrom? true line).map fun (key, value) => (Text.trim key, value)

/-- The key and the value of a line of a help text, if it is a property: the first `=` of the line
separates them, and blanks around the key do not count. -/
def helpProperty? (line : Text) : Option (Text × Text) :=
  (Text.cut? '=' line).map fun (key, value) => (Text.trim key, value)

def textLines (property? : Text → Option (Text × Text)) (source : Text) : List Text :=
  (Text.splitOn '\n' source).filter fun line => (property? line).isNone

/-- The properties of a block, the last line of a key deciding its value. -/
def properties (property? : Text → Option (Text × Text)) (source : Text) : Properties :=
  ((Text.splitOn '\n' source).filterMap property?).foldl
    (fun props p => Properties.insert p.1 p.2 props) []

end AttributeBlock

structure Attributes where
  lines : List Text
  properties : Properties
  deriving DecidableEq, Repr, Inhabited

namespace Attributes

/-- Separates the text lines and the properties of an attribute block. -/
def parse (source : Text) : Attributes :=
  ⟨AttributeBlock.textLines AttributeBlock.property? source,
    AttributeBlock.properties AttributeBlock.property? source⟩

def parseHelp (source : Text) : Properties :=
  AttributeBlock.properties AttributeBlock.helpProperty? source

example : parse "bg=red\nTitle\n--\nn: int = 0".toList =
    ⟨["Title".toList, "--".toList, "n: int = 0".toList], [("bg".toList, "red".toList)]⟩ := by
  rfl

example : (parse "a==b".toList).properties = [("a".toList, "=b".toList)] := by
  rfl

end Attributes

end UmlDrawing
