import UmlDrawing.Xml.Letter
import UmlDrawing.Xml.Uri
import UmlDrawing.Xml.Value

/-! The declarations of a document type. Entities of the document type can stand for any number of
them; inside such an entity they can also stand wherever a blank can. Nothing outside the document is
read. -/
namespace UmlDrawing.Xml.Parser

/-- How many texts can be read at the same time before one more is started. -/
def maxInputs : Nat := 40

/-- More steps than the declarations of a document can take, given how far entities can grow. -/
def stepLimit : Parser Nat := do
  let s ← get
  pure ((s.input :: s.around).foldl (fun n i => n + i.size) (2 * freeBytes))

/-- Goes on with another text until that ends. -/
def interrupt (t : Text) : Parser Unit := do
  let s ← get
  if maxInputs < s.around.length + 1 then failure
  set { s with
    input := .ofText s.inputs t, around := s.input :: s.around, inputs := s.inputs + 1 }

def resume (outer : Input) (around : List Input) : Parser Unit := do
  charge (← get).input.size
  modify fun s => { s with input := outer, around := around }

/-- A reference to an entity of the document type, after its mark. What is outside the document is
passed over. -/
def parameterReference : Parser Unit := do
  let n ← (Piece.entityName : Reader Text)
  match (← get).doctype.parameters.lookup n with
  | some .outside => pure ()
  | some (.internal t) =>
    interrupt t
    noteParameter
  | some _ => failure
  | none =>
    undeclared .warning
    noteParameter

/-- Blanks, with the references between them; whether there is anything. The end of a text that was
interrupting another one counts as a blank. The fuel bounds the number of references. -/
def gapWith : Nat → Parser Bool
  | 0 => failure
  | fuel + 1 => do
    let blanks ← (Reader.takeWhile isBlank : Reader Text)
    let s ← get
    match s.input.rest, s.around with
    | [], outer :: around =>
      resume outer around
      let _ ← gapWith fuel
      pure true
    | '%' :: r, _ :: _ =>
      if (r.head?.map isBlank).getD true then pure !blanks.isEmpty
      else
        token "%"
        parameterReference
        let _ ← gapWith fuel
        pure true
    | _, _ => pure !blanks.isEmpty

/-- Blanks between the parts of a declaration; whether there are any. -/
def gap : Parser Bool := do gapWith (← stepLimit)

def someGap : Parser Unit := do
  if ← gap then pure () else failure

/-- The end of a declaration, which has to stand in the text where the declaration started. -/
def endIn (number : Nat) : Parser Unit := do
  if (← get).input.number ≠ number then failure
  token ">"

def looksAtQuote : Parser Bool := do
  pure ((← (Reader.looksAt "\"" : Reader Bool)) || (← (Reader.looksAt "'" : Reader Bool)))

def isPublicId (t : Text) : Bool :=
  t.all fun c => c.isAlphanum || " \r\n-'()+,./:=?;!*#@$_%".toList.elem c

structure ExternalId where
  isPublic : Bool
  /-- the resource, which only a public identifier can lack -/
  system : Option Text
  deriving Repr

/-- Where something outside the document is to be found, if that follows. A public identifier may
stand alone in a notation. -/
def externalId? (alone : Bool) : Parser (Option ExternalId) := do
  let literal : Reader Text := Reader.quotedWhere (·.all isChar)
  if ← Reader.accept "SYSTEM" then
    someGap
    pure (some ⟨false, some (← literal)⟩)
  else if ← Reader.accept "PUBLIC" then
    someGap
    let _ ← (Reader.quotedWhere isPublicId : Reader Text)
    let blanks ← gap
    if blanks && (← looksAtQuote) then pure (some ⟨true, some (← literal)⟩)
    else if alone then pure (some ⟨true, none⟩)
    else failure
  else pure none

/-- The resource of an entity; whether it refers to one. A part of a resource is no entity. -/
def checkSystem (system : Text) : Parser Bool :=
  match Uri.ofText? system with
  | none => do
    complain .error
    pure false
  | some uri => if uri.hasFragment then failure else pure true

/-- What an entity outside the document is, after its resource: one that is no markup names its
notation. -/
def outsideEntity : Parser Entity := do
  let blanks ← gap
  if ← Reader.accept "NDATA" then
    if !blanks then failure
    someGap
    if !(← (Reader.looksAt ">" : Reader Bool)) then
      let _ ← (Reader.name : Reader Text)
    pure .unparsed
  else pure .outside

/-- What an entity is declared to be, after its name; nothing where that is not worth keeping. -/
def entityDefinition (isParameter : Bool) : Parser (Option Entity) := do
  if ← looksAtQuote then
    let e ← entityValue
    pure (if isParameter && e == .missing then none else some e)
  else
    match ← externalId? false with
    | some ⟨_, some system⟩ =>
      let refers ← checkSystem system
      if isParameter then pure (if refers then some .outside else none)
      else some <$> outsideEntity
    | _ => failure

def entityDeclaration (number : Nat) : Parser Unit := do
  someGap
  let isParameter ← (Reader.accept "%" : Reader Bool)
  if isParameter then someGap
  let n ← (Reader.name : Reader Text)
  ensure (!n.elem ':') .error
  someGap
  let e ← entityDefinition isParameter
  let _ ← gap
  endIn number
  modify fun s =>
    let d := s.doctype
    let added := (e.map fun e => (n, e)).toList
    { s with doctype :=
        if isParameter then { d with parameters := d.parameters ++ added }
        else { d with entities := d.entities ++ added } }

def occurrence : Reader Unit := do
  if ← Reader.accept "?" then pure ()
  else if ← Reader.accept "*" then pure ()
  else
    let _ ← Reader.accept "+"
    pure ()

def maxGroupDepth : Nat := 128

mutual

/-- One part of what an element may contain, inside so many parentheses. The fuel bounds the number
of parts. -/
def particle (depth : Nat) : Nat → Parser Unit
  | 0 => failure
  | fuel + 1 => do
    let _ ← gap
    if ← Reader.accept "(" then group (depth + 1) (← get).input.number fuel
    else
      let _ ← (Reader.name : Reader Text)
      occurrence
    let _ ← gap
    pure ()

/-- Parts in parentheses, after the first one, up to the other one in the same text. -/
def group (depth number : Nat) : Nat → Parser Unit
  | 0 => failure
  | fuel + 1 => do
    if maxGroupDepth < depth then failure
    particle depth fuel
    if ← Reader.looksAt "|" then parts depth number "|" fuel else parts depth number "," fuel
    occurrence

/-- The remaining parts of a group, with a separator before each. -/
def parts (depth number : Nat) (separator : String) : Nat → Parser Unit
  | 0 => failure
  | fuel + 1 => do
    if ← Reader.accept ")" then
      if (← get).input.number ≠ number then failure
    else
      token separator
      particle depth fuel
      parts depth number separator fuel

end

/-- The elements that may stand between text, up to the closing parenthesis; whether there are
any. The fuel bounds their number. -/
def mixedNames (found : Bool) : Nat → Parser Bool
  | 0 => failure
  | fuel + 1 => do
    let _ ← gap
    if ← Reader.looksAt ")" then pure found
    else
      token "|"
      let _ ← gap
      let _ ← (Reader.name : Reader Text)
      mixedNames true fuel

def contentModel : Parser Unit := do
  if ← Reader.accept "EMPTY" then pure ()
  else if ← Reader.accept "ANY" then pure ()
  else
    token "("
    let number := (← get).input.number
    let _ ← gap
    if ← Reader.accept "#PCDATA" then
      let any ← mixedNames false (← stepLimit)
      if (← get).input.number ≠ number then failure
      token ")"
      let starred ← (Reader.accept "*" : Reader Bool)
      if any && !starred then failure
    else group 1 number (← stepLimit)

/-- A declaration of an element, after its mark. Every element has one. -/
def elementDeclaration (number : Nat) : Parser Unit := do
  someGap
  let n ← (Reader.name : Reader Text)
  someGap
  contentModel
  let _ ← gap
  endIn number
  ensure (!(← get).doctype.elements.elem n) .error
  modify fun s => { s with doctype := { s.doctype with elements := n :: s.doctype.elements } }

/-- Words with bars between them, up to the closing parenthesis, each one once. The fuel bounds their
number. -/
def alternatives (one : Reader Text) (seen : List Text) : Nat → Parser Unit
  | 0 => failure
  | fuel + 1 => do
    let _ ← gap
    let w ← one
    ensure (!seen.elem w) .error
    let _ ← gap
    if ← Reader.accept ")" then pure ()
    else
      token "|"
      alternatives one (w :: seen) fuel

/-- The kinds of values with a word of their own. -/
def kindWords : List (String × ValueKind) :=
  [("CDATA", .free), ("IDREFS", .names), ("IDREF", .name), ("ID", .identity), ("ENTITY", .name),
   ("ENTITIES", .names), ("NMTOKENS", .words), ("NMTOKEN", .word)]

/-- The first of some words that the text goes on with, and what stands beside it. -/
def oneOf {α : Type} : List (String × α) → Reader (Option α)
  | [] => pure none
  | (w, a) :: r => do
    if ← Reader.accept w then pure (some a) else oneOf r

def valueKind : Parser ValueKind := do
  match ← (oneOf kindWords : Reader (Option ValueKind)) with
  | some kind => pure kind
  | none =>
    let ofNotation ← (Reader.accept "NOTATION" : Reader Bool)
    if ofNotation then someGap
    token "("
    let one := if ofNotation then Reader.name else Reader.word
    alternatives one [] (← stepLimit)
    pure (if ofNotation then .name else .words)

def attributeDefault (kind : ValueKind) : Parser (Option Text) := do
  if ← Reader.accept "#REQUIRED" then pure none
  else if ← Reader.accept "#IMPLIED" then pure none
  else
    if ← Reader.accept "#FIXED" then someGap
    let (v, _) ← attributeValue entityDepth true
    pure (some (kind.tidy v))

/-- Whether the part of a name after its first colon starts as it should. -/
def isSplittable (n : Text) : Bool :=
  match (QName.ofDeclared n).label, (QName.ofDeclared n).part with
  | some _, c :: _ => isLetter c || c == '_' || c == ':'
  | _, _ => true

/-- Adds the declaration of an attribute. Its name must be one that can be split, its default one of
its values; an element has one attribute for its identity, and the name for that is used for nothing
else. Only the first declaration counts. -/
def declareAttribute (r : AttributeRule) : Parser Unit := do
  ensure (r.name ≠ "xml:id".toList || r.kind == .identity) .error
  if !isSplittable r.name then failure
  ensure (r.default.all r.kind.admits) .error
  let d := (← get).doctype
  if (d.rule? r.element r.name).isSome then complain .warning
  else
    ensure (r.kind ≠ .identity || !d.hasIdentity r.element) .error
    modify fun s => { s with doctype := { d with attributes := d.attributes ++ [r] } }

/-- The attributes that are declared for an element, up to the end of the declaration. The fuel bounds
their number. -/
def attributeDeclarations (element : Text) (number : Nat) : Nat → Parser Unit
  | 0 => failure
  | fuel + 1 => do
    if ← Reader.looksAt ">" then endIn number
    else
      let n ← (Reader.name : Reader Text)
      someGap
      let kind ← valueKind
      someGap
      let value ← attributeDefault kind
      if !(← (Reader.looksAt ">" : Reader Bool)) then someGap
      declareAttribute ⟨element, n, kind, value⟩
      attributeDeclarations element number fuel

def attributeDeclaration (number : Nat) : Parser Unit := do
  someGap
  let element ← (Reader.name : Reader Text)
  let _ ← gap
  attributeDeclarations element number (← stepLimit)

def notationDeclaration (number : Nat) : Parser Unit := do
  someGap
  let n ← (Reader.name : Reader Text)
  ensure (!n.elem ':') .error
  someGap
  if (← externalId? true).isNone then failure
  let _ ← gap
  endIn number
  ensure (!(← get).doctype.notations.elem n) .aside
  modify fun s => { s with doctype := { s.doctype with notations := n :: s.doctype.notations } }

/-- One declaration, or what may stand between two of them. A mark that starts no declaration is
passed over. -/
def declaration : Parser Unit := do
  let number := (← get).input.number
  if ← Reader.accept "<!--" then
    let _ ← (Reader.comment : Reader Text)
  else if ← Reader.accept "<!ENTITY" then entityDeclaration number
  else if ← Reader.accept "<!ELEMENT" then elementDeclaration number
  else if ← Reader.accept "<!ATTLIST" then attributeDeclaration number
  else if ← Reader.accept "<!NOTATION" then notationDeclaration number
  else if ← Reader.accept "<!" then pure ()
  else if ← Reader.accept "<?" then
    let _ ← instruction
  else
    token "%"
    parameterReference

/-- Declarations up to the closing bracket. The fuel bounds their number. -/
def declarations : Nat → Parser Unit
  | 0 => failure
  | fuel + 1 => do
    let _ ← gap
    if (← get).around.isEmpty && (← Reader.accept "]") then pure ()
    else
      declaration
      declarations fuel

def doctype : Parser Unit := do
  Reader.blanks
  let _ ← (Reader.name : Reader Text)
  Reader.blanks
  let outside ← externalId? false
  if outside.isSome then noteParameter
  Reader.blanks
  if ← Reader.accept "[" then
    declarations (← stepLimit)
  Reader.blanks
  token ">"

end UmlDrawing.Xml.Parser
