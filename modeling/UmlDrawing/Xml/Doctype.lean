import UmlDrawing.Xml.Character

/-! What is known of the type of a document: the entities that it defines and the attributes that its
elements can have. -/
namespace UmlDrawing.Xml

inductive Entity where
  | internal (replacement : Text)
  /-- a replacement that would need something outside the document -/
  | missing
  | outside
  /-- something that is no markup -/
  | unparsed
  deriving DecidableEq, Repr, Inhabited

inductive ValueKind where
  | free
  | identity
  | name
  | names
  | word
  | words
  deriving DecidableEq, Repr

namespace ValueKind

def isName : Text → Bool
  | c :: r => isNameStart c && r.all isNameChar
  | [] => false

def isWord (t : Text) : Bool := !t.isEmpty && t.all isNameChar

/-- Whether a value, in which no blanks are left but single ones between words, is of a kind. -/
def admits : ValueKind → Text → Bool
  | free, _ => true
  | identity, t => isName t
  | name, t => isName t
  | names, t => (Text.splitOn ' ' t).all isName
  | word, t => isWord t
  | words, t => (Text.splitOn ' ' (t.dropWhile isBlank)).all isWord

/-- A value as attributes of a kind have it: where not every text is allowed, blanks only separate
words. -/
def tidy : ValueKind → Text → Text
  | free, t => t
  | _, t => Text.join [' '] ((Text.splitOn ' ' t).filter fun w => !w.isEmpty)

example : tidy .words " a  b ".toList = "a b".toList := by decide

example : admits .word "a b".toList = false := by rfl

end ValueKind

structure AttributeRule where
  element : Text
  name : Text
  kind : ValueKind
  default : Option Text
  deriving DecidableEq, Repr

structure Doctype where
  entities : List (Text × Entity) := []
  /-- the entities of the document type itself -/
  parameters : List (Text × Entity) := []
  /-- the first declaration of every attribute -/
  attributes : List AttributeRule := []
  elements : List Text := []
  notations : List Text := []
  /-- whether there may be declarations that were not read -/
  isPartial : Bool := false
  /-- whether the document says that it needs no such declarations -/
  standalone : Bool := false
  deriving Repr, Inhabited

namespace Doctype

/-- Whether an entity that was not declared makes the document ill-formed. -/
def mustDeclare (d : Doctype) : Bool := d.standalone || !d.isPartial

def rule? (d : Doctype) (element name : Text) : Option AttributeRule :=
  d.attributes.find? fun r => r.element == element && r.name == name

/-- The kind of an attribute of an element; undeclared ones are free. -/
def kindOf (d : Doctype) (element name : Text) : ValueKind :=
  ((d.rule? element name).map (·.kind)).getD .free

/-- The declared entity with a name; the first declaration counts. -/
def entity? (d : Doctype) (name : Text) : Option Entity := d.entities.lookup name

def hasIdentity (d : Doctype) (element : Text) : Bool :=
  d.attributes.any fun r => r.element == element && r.kind == .identity

end Doctype

def predefined? (n : Text) : Option Char :=
  if n = "lt".toList then some '<'
  else if n = "gt".toList then some '>'
  else if n = "amp".toList then some '&'
  else if n = "quot".toList then some '"'
  else if n = "apos".toList then some '\''
  else none

end UmlDrawing.Xml
