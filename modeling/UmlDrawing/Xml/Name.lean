import UmlDrawing.Text.Basic

/-! Names of elements and attributes. In markup they have a label before a colon; a document that was
read has expanded names instead, where the resource of the label stands in braces. -/
namespace UmlDrawing.Xml

/-- A name as a tag has it: the label before its first colon, if there is one, and the rest. -/
structure QName where
  label : Option Text
  part : Text
  deriving DecidableEq, Repr

namespace QName

def written (n : QName) : Text :=
  match n.label with
  | some l => l ++ ':' :: n.part
  | none => n.part

/-- A declared name cut at its first colon, unless that is where it starts. -/
def ofDeclared (n : Text) : QName :=
  match Text.cut? ':' n with
  | some (c :: label, part) => ⟨some (c :: label), part⟩
  | _ => ⟨none, n⟩

/-- The name with its label replaced by the resource for it. A label for which there is none stays
where it is. -/
def expanded (n : QName) (resource : Option Text) : Text :=
  match resource with
  | some r => '\x7b' :: r ++ '\x7d' :: n.part
  | none => n.written

example : (ofDeclared "a:b:c".toList).part = "b:c".toList := by decide

example : (ofDeclared ":a".toList).label = none := by decide

end QName

end UmlDrawing.Xml
