/-! What a document does wrong without becoming unreadable. Such faults are noted in the order in
which they are found, and the last of them decides whether the document is accepted. -/
namespace UmlDrawing.Xml

/-- A fault in a document that can be read all the same. -/
inductive Complaint where
  /-- something that is allowed but was hardly meant -/
  | warning
  /-- an entity that is used but was not declared where it could be seen -/
  | undeclared
  | error
  /-- something that is not allowed and that is no part of the document itself -/
  | aside
  deriving DecidableEq, Repr

/-- Complaints, the latest one first. -/
abbrev Log := List Complaint

namespace Log

/-- Whether the latest complaint about the document itself is harmless. -/
def endsWell (log : Log) : Bool :=
  match log.find? (· ≠ .aside) with
  | some .error | some .undeclared => false
  | _ => true

/-- Whether nothing worse is there than entities that were not declared. -/
def isMild (log : Log) : Bool := log.all fun c => c == .undeclared || c == .warning

/-- Whether a document with these complaints is accepted: a harmless one makes good whatever came
before it. -/
def isAcceptable (log : Log) : Bool := log.endsWell || log.isMild

@[simp] theorem isAcceptable_nil : isAcceptable [] = true := rfl

@[simp] theorem isAcceptable_warning (log : Log) : isAcceptable (.warning :: log) = true := rfl

@[simp] theorem isAcceptable_error (log : Log) : isAcceptable (.error :: log) = false := rfl

theorem isAcceptable_of_isMild {log : Log} (h : log.isMild = true) : log.isAcceptable = true := by
  simp [isAcceptable, h]

end Log

end UmlDrawing.Xml
