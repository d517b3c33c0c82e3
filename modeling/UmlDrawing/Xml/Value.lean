import UmlDrawing.Xml.Reading

/-! Values in quotes: those of attributes, in which references to entities stay but have to lead
somewhere, and those of entities, in which other entities of the document type are replaced. -/
namespace UmlDrawing.Xml

inductive Piece where
  | plain (t : Text)
  /-- a character by its number -/
  | numeric (c : Char)
  | entity (name : Text)
  deriving DecidableEq, Repr

namespace Piece

/-- The name of an entity and what follows its reference, after the mark. -/
def entityName : Reader Text := do
  let n ← Reader.name
  Reader.expect ";"
  pure n

/-- The stretches of a value. The fuel bounds the number of references. -/
def cut? : Nat → Text → Option (List Piece)
  | 0, _ => none
  | fuel + 1, t =>
    let start := plain (t.takeWhile (· != '&'))
    match t.dropWhile (· != '&') with
    | [] => some [start]
    | _ :: '#' :: r => do
      let (c, rest) ← Reader.numericReference.run r
      let pieces ← cut? fuel rest
      pure (start :: numeric c :: pieces)
    | _ :: r => do
      let (n, rest) ← entityName.run r
      let pieces ← cut? fuel rest
      pure (start :: entity n :: pieces)

def ofText? (t : Text) : Option (List Piece) := cut? (t.length + 1) t

/-- A blank of any kind as the one that attributes keep. -/
def flatten (c : Char) : Char := if isBlank c then ' ' else c

/-- A character as attributes keep it where it was given by a reference: the mark of references
stays one. -/
def kept (c : Char) : Text := if c = '&' then "&#38;".toList else [c]

/-- A stretch as attributes keep it, where an entity stands for something. -/
def value : Piece → Text
  | plain t => t.map flatten
  | numeric c => kept c
  | entity n =>
    match predefined? n with
    | some c => kept c
    | none => '&' :: n ++ [';']

/-- Whether a reference to an entity is left in a value as attributes keep it. -/
def hasEntity : Text → Bool
  | [] => false
  | '&' :: '#' :: r => hasEntity r
  | c :: r => c == '&' || hasEntity r

example : ofText? "a&#38;b&c;".toList =
    some [plain ['a'], numeric '&', plain ['b'], entity ['c'], plain []] := by rfl

end Piece

namespace Parser

def pieces (t : Text) : Parser (List Piece) := fun s => (Piece.ofText? t).map fun ps => (ps, s)

def entityDepth : Nat := 40

/-- The replacement of an entity that is used in the value of an attribute: it has to be declared, no
markup, and in the document. -/
def usable? (d : Doctype) (n : Text) : Option (Option Entity) :=
  match d.entity? n with
  | some (.internal t) => if t.elem '<' then none else some (some (.internal t))
  | some .missing => some (some .missing)
  | some _ => none
  | none => some none

/-- Looks through the replacement of an entity that is used in the value of an attribute, so far as
entities may be nested. -/
def lookThrough : Nat → Text → Parser Unit
  | 0, _ => failure
  | levels + 1, t => do
    (← pieces t).forM fun piece =>
      match piece with
      | .entity n => do
        if (predefined? n).isSome then pure ()
        else
          match usable? (← get).doctype n with
          | none => failure
          | some none => undeclared .undeclared
          | some (some (.internal t)) =>
            charge (Text.utf8Size t)
            lookThrough levels t
          | some (some _) => pure ()
      | _ => pure ()

/-- Looks through an entity that is used in the value of an attribute, unless that was done before.
What was looked through while the document type is read is not remembered. -/
def useInValue (levels : Nat) (isDeclaring : Bool) (n t : Text) : Parser Unit := do
  let s ← get
  match s.sizes.lookup n with
  | some size => charge size
  | none =>
    set { s with copied := Text.utf8Size t }
    lookThrough levels t
    let inner ← get
    if !isDeclaring then set { inner with sizes := (n, inner.copied) :: inner.sizes }
    charge s.copied

/-- A stretch of the value of an attribute as it is kept, and the entity in it that was not
declared, of which nothing is kept. -/
def keepPiece (levels : Nat) (isDeclaring : Bool) (piece : Piece) : Parser (Text × List Text) :=
  match piece with
  | .entity n => do
    if (predefined? n).isSome then pure (piece.value, [])
    else
      match usable? (← get).doctype n with
      | none => failure
      | some none =>
        undeclared .undeclared
        pure ([], [n])
      | some (some (.internal t)) =>
        useInValue levels isDeclaring n t
        pure (piece.value, [])
      | some (some _) => pure (piece.value, [])
  | _ => pure (piece.value, [])

/-- The value of an attribute, and the entities in it that were not declared. -/
def attributeValue (levels : Nat) (isDeclaring : Bool) : Parser (Text × List Text) := do
  let t ← (Reader.quoted : Reader Text)
  if t.elem '<' || !t.all isChar then failure
  let kept ← (← pieces t).mapM (keepPiece levels isDeclaring)
  pure (kept.flatMap (·.1), kept.flatMap (·.2))

def isMark (c : Char) : Bool := c == '&' || c == '%'

/-- Whether all references to entities in the value of an entity are complete; those to entities of
the document type may be excluded. The fuel bounds the number of references. -/
def areComplete (excluded : Bool) : Nat → Text → Bool
  | 0, _ => false
  | fuel + 1, t =>
    match t.dropWhile fun c => !isMark c with
    | [] => true
    | '&' :: '#' :: r => areComplete excluded fuel r
    | c :: r =>
      match Piece.entityName.run r with
      | some (_, rest) => !(c == '%' && excluded) && areComplete excluded fuel rest
      | none => false

/-- The value of an entity with references to characters replaced, and those to entities of the
document type by what a function gives for them; other references stay. There is none where an entity
has no value. The fuel bounds the number of references. -/
def substitute (parameter : Text → Parser (Option Text)) : Nat → Text → Parser (Option Text)
  | 0, _ => failure
  | fuel + 1, t =>
    let start := t.takeWhile fun c => !isMark c
    let goOn := fun (part rest : Text) => do
      pure ((← substitute parameter fuel rest).map fun after => start ++ part ++ after)
    match t.dropWhile fun c => !isMark c with
    | [] => pure (some start)
    | '&' :: '#' :: r =>
      match Reader.numericReference.run r with
      | some (c, rest) => goOn [c] rest
      | none => failure
    | '&' :: r => goOn ['&'] r
    | _ :: r =>
      match Piece.entityName.run r with
      | some (n, rest) => do
        match ← parameter n with
        | some value => goOn value rest
        | none => pure none
      | none => failure

def noteParameter : Parser Unit :=
  modify fun s => { s with doctype := { s.doctype with isPartial := true } }

/-- What a value stands for, so far as entities may be nested. -/
def replacement : Nat → Text → Parser (Option Text)
  | 0, _ => failure
  | levels + 1, t => substitute (fun n => do
      let found := (← get).doctype.parameters.lookup n
      if found.isNone then undeclared .warning
      noteParameter
      match found with
      | none => pure (some [])
      | some (.internal value) =>
        charge (Text.utf8Size value)
        replacement levels value
      | some _ =>
        complain .warning
        pure none) (t.length + 1) t

/-- The value of an entity. Entities of the document type can only be used in it where it is itself
part of one. -/
def entityValue : Parser Entity := do
  let t ← (Reader.quoted : Reader Text)
  let excluded := (← get).around.isEmpty
  if !t.all isChar || !areComplete excluded (t.length + 1) t then failure
  match ← replacement entityDepth t with
  | some value => pure (.internal value)
  | none => pure .missing

end Parser

end UmlDrawing.Xml
