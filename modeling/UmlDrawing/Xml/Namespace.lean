import UmlDrawing.Xml.Complaint
import UmlDrawing.Xml.Name
import UmlDrawing.Xml.Tree
import UmlDrawing.Xml.Uri

/-! The labels before the colon of names. Attributes of an element bind labels to resources for
everything inside it; the names of an element and of its attributes are resolved with these and with
the bindings around it. -/
namespace UmlDrawing.Xml

/-- What labels are bound to, the innermost binding first. Names without a label have the empty
one. -/
abbrev Scope := List (Text × Text)

namespace Scope

def xmlResource : Text := "http://www.w3.org/XML/1998/namespace".toList

def reservedResource : Text := "http://www.w3.org/2000/xmlns/".toList

/-- The label that an attribute binds, if it binds one; the empty one stands for names without. -/
def bound? (n : QName) : Option Text :=
  match n.label with
  | none => if n.part = "xmlns".toList then some [] else none
  | some l => if l = "xmlns".toList then some n.part else none

/-- What is wrong with the resource of a binding: for names without a label it should be
absolute. -/
def resourceComplaints (label resource : Text) : Log :=
  match Uri.ofText? resource with
  | none => [.error]
  | some uri => if label.isEmpty && !uri.isAbsolute then [.warning] else []

/-- Whether a binding takes effect, and what is wrong with it. Names without a label can be set free
of a resource, others cannot. -/
def judge (label resource : Text) : Bool × Log :=
  if label.isEmpty then
    if resource.isEmpty then (true, [])
    else
      let log := resourceComplaints label resource
      if resource = xmlResource ∨ resource = reservedResource then (false, .error :: log)
      else (true, log)
  else if label = "xml".toList then (false, if resource = xmlResource then [] else [.error])
  else if resource = xmlResource ∨ resource = reservedResource ∨ resource.isEmpty
      ∨ label = "xmlns".toList then (false, [.error])
  else (true, resourceComplaints label resource)

def resource? (scope : Scope) (label : Text) : Option Text :=
  if label = "xml".toList then some xmlResource else scope.lookup label

def ofElement? (scope : Scope) (n : QName) : Option Text :=
  (scope.resource? (n.label.getD [])).filter fun r => !r.isEmpty

/-- The name of an attribute with the resource for it, and what is wrong with it. A name without a
label has no resource. -/
def ofAttribute (scope : Scope) (n : QName) : (QName × Option Text) × Log :=
  match n.label with
  | none => ((n, none), [])
  | some l =>
    match scope.resource? l with
    | some r => ((n, some r), [])
    | none => ((n, none), [.error])

/-- The first of some resolved names that stands for the same attribute as another one. -/
def sameAs? (names : List (QName × Option Text)) (n : QName × Option Text) :
    Option (QName × Option Text) :=
  names.find? fun m => m.1.part == n.1.part && m.2 == n.2

/-- What is wrong with resolved names that stand for the same attribute as one of those before them;
refused where even the label is the same. -/
def clashes? : List (QName × Option Text) → List (QName × Option Text) → Option Log
  | _, [] => some []
  | seen, n :: names =>
    match sameAs? seen n with
    | none => clashes? (seen ++ [n]) names
    | some m =>
      if m.1.label = n.1.label then none else (clashes? seen names).map fun log => log ++ [.error]

example : judge "x".toList [] = (false, [.error]) := by rfl

example : judge [] "rel".toList = (true, [.warning]) := by rfl

end Scope

end UmlDrawing.Xml
