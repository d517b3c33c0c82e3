import UmlDrawing.Xml.Complaint
import UmlDrawing.Xml.Doctype
import UmlDrawing.Xml.Reader

/-! The reading of a document as a whole: what was found out so far, beside the text that is left.
Entities can interrupt a text by others, and how much text they add up to is limited. -/
namespace UmlDrawing.Xml

structure Input where
  /-- tells inputs apart -/
  number : Nat := 0
  /-- the number of bytes of the whole text -/
  size : Nat
  rest : Text
  deriving Repr, Inhabited

namespace Input

def ofText (number : Nat) (t : Text) : Input := ⟨number, Text.utf8Size t, t⟩

def consumed (i : Input) : Nat := i.size - Text.utf8Size i.rest

end Input

structure Reading where
  input : Input
  /-- the texts that the input interrupts, the innermost one first -/
  around : List Input := []
  /-- the number of inputs that there were -/
  inputs : Nat := 1
  doctype : Doctype := {}
  /-- the number of bytes that entities stood for -/
  copied : Nat := 0
  /-- whether the text is what an entity stands for -/
  isAside : Bool := false
  log : Log := []
  /-- the values of the attributes that identify elements -/
  identities : List Text := []
  /-- the entities that were looked through, with the number of bytes they stand for -/
  sizes : List (Text × Nat) := []
  /-- the entities whose replacement was read as content -/
  parsed : List Text := []
  deriving Repr, Inhabited

abbrev Parser (α : Type) := StateT Reading Option α

instance : MonadLift Reader Parser where
  monadLift r := fun s =>
    (r.run s.input.rest).map fun (a, t) => (a, { s with input := { s.input with rest := t } })

namespace Parser

/-- Notes some complaints, the latest one first. -/
def complainAll (log : Log) : Parser Unit :=
  modify fun s =>
    let log := if s.isAside then (log.filter (· == .error)).map fun _ => .aside else log
    { s with log := log ++ s.log }

def complain (c : Complaint) : Parser Unit := complainAll [c]

def ensure (condition : Bool) (c : Complaint) : Parser Unit :=
  if condition then pure () else complain c

/-- The number of bytes that entities may stand for in any case. -/
def freeBytes : Nat := 1000000

/-- How many times more bytes than were read entities may stand for beyond that. -/
def maxGrowth : Nat := 5

/-- The number of bytes that every use of an entity counts for beside its replacement. -/
def useCost : Nat := 20

def charge (bytes : Nat) : Parser Unit := do
  let s ← get
  let copied := s.copied + bytes + useCost
  if freeBytes < copied && decide (s.input.consumed < copied / maxGrowth) then failure
  set { s with copied := copied }

def atEnd : Parser Bool := do pure (← get).input.rest.isEmpty

/-- An entity that was not declared: a complaint, unless it had to be declared. -/
def undeclared (c : Complaint) : Parser Unit := do
  let s ← get
  if s.isAside || s.doctype.mustDeclare then failure
  complain c

/-- A processing instruction, after its mark. Targets with a colon are wrong, and those that start
like the word for declarations are dubious but for two of them. -/
def instruction : Parser (Text × Text) := do
  let (target, content) ← (Reader.instruction : Reader (Text × Text))
  let start := (target.take 3).map Char.toLower
  if start = "xml".toList then
    if ["xml-stylesheet", "xml-model"].any fun s => target = s.toList then
      return (target, content)
    complain .warning
  ensure (!target.elem ':') .error
  pure (target, content)

def token (s : String) : Parser Unit := Reader.expect s

end Parser

end UmlDrawing.Xml
