import UmlDrawing.Xml.Declaration
import UmlDrawing.Xml.Letter
import UmlDrawing.Xml.Namespace
import UmlDrawing.Xml.Subset

/-! The reading of documents. Elements are collected in the order of their end tags, with those that
are still open on a stack; documents that cannot be read to their end are refused, and those that can
be are accepted by the complaints about them. -/
namespace UmlDrawing.Xml

/-- An element whose end was not read yet, with its nodes so far backwards. -/
structure OpenElement where
  /-- the name as the end tag has to have it -/
  written : Text
  expanded : Text
  attributes : List Attribute
  scope : Scope
  nodes : List Node := []
  deriving Inhabited

namespace OpenElement

/-- Stands for the text of an entity, which has no tags around it. -/
def untagged (scope : Scope) : OpenElement := ⟨[], [], [], scope, []⟩

def add (e : OpenElement) (n : Node) : OpenElement := { e with nodes := n :: e.nodes }

def close (e : OpenElement) : Node := .element e.expanded e.attributes e.nodes.reverse

end OpenElement

structure StartTag where
  element : OpenElement
  isClosed : Bool
  /-- the entities in the values of its attributes that were not declared -/
  undeclared : List Text

namespace Parser

/-- The greatest number of elements around an element. -/
def maxDepth : Nat := 256

structure Given where
  /-- the bindings among them that take effect -/
  bindings : Scope := []
  attributes : List (QName × Text) := []
  undeclared : List Text := []

/-- Takes a binding that no other attribute of the element makes as well. -/
def Given.bind (g : Given) (label resource : Text) : Parser Given := do
  let (isKept, log) := Scope.judge label resource
  complainAll log
  if !isKept then pure g
  else if (g.bindings.lookup label).isSome then failure
  else pure { g with bindings := (label, resource) :: g.bindings }

def givenAttribute (levels : Nat) (element : QName) (g : Given) : Parser Given := do
  let (n, isProper) ← (Reader.qualifiedName : Reader (QName × Bool))
  ensure isProper .error
  Reader.equals
  let (v, undeclared) ← attributeValue levels false
  let v := ((← get).doctype.kindOf element.written n.written).tidy v
  if n = ⟨some "xml".toList, "space".toList⟩ then
    ensure (v = "default".toList || v = "preserve".toList) .warning
  let g := { g with undeclared := g.undeclared ++ undeclared }
  match Scope.bound? n with
  | some label => g.bind label v
  | none => pure { g with attributes := g.attributes ++ [(n, v)] }

/-- The attributes of a start tag, up to its end; whether the element ends with it. The fuel bounds
their number. -/
def attributes (levels : Nat) (element : QName) (g : Given) : Nat → Parser (Given × Bool)
  | 0 => failure
  | fuel + 1 => do
    let gap ← (Reader.takeWhile isBlank : Reader Text)
    if ← Reader.accept "/>" then pure (g, true)
    else if ← Reader.accept ">" then pure (g, false)
    else if gap.isEmpty then failure
    else
      let g ← givenAttribute levels element g
      attributes levels element g fuel

/-- The attributes that elements with a name have without being given, with their declared names. -/
def defaults (element : QName) : Parser (List (QName × Text)) := do
  pure ((← get).doctype.attributes.filterMap fun r =>
    if QName.ofDeclared r.element = element then
      r.default.map fun v => (QName.ofDeclared r.name, v)
    else none)

/-- The bindings that an element has without being given; those that are given come first. -/
def defaultBindings (defaults : List (QName × Text)) (given : Scope) : Scope :=
  defaults.foldl (fun bindings (n, v) =>
    match Scope.bound? n with
    | some label =>
      if label = "xml".toList || (bindings.lookup label).isSome then bindings
      else (label, v) :: bindings
    | none => bindings) given

/-- The attributes that an element has without being given, after those that are. -/
def addDefaults (scope : Scope) (names : List (QName × Option Text)) (defaults : List (QName × Text)) :
    Parser Unit :=
  match defaults with
  | [] => pure ()
  | (n, v) :: rest => do
    if (Scope.bound? n).isSome then
      charge (Text.utf8Size v)
      addDefaults scope names rest
    else
      let (name, log) := scope.ofAttribute n
      complainAll log
      match Scope.sameAs? names name with
      | some same =>
        ensure (same.1.label = n.label) .error
        addDefaults scope names rest
      | none =>
        charge (Text.utf8Size v)
        addDefaults scope (names ++ [name]) rest

/-- Notes the identity of an element, which no other element has. -/
def identify (v : Text) : Parser Unit := do
  if v.isEmpty then pure ()
  else if (← get).identities.elem v then complain .error
  else modify fun s => { s with identities := v :: s.identities }

/-- Notes the identity that an attribute gives to an element, if it does that. A value that depends on
an entity gives none. -/
def identifyBy (element : QName) (a : QName × Text) : Parser Unit := do
  if Piece.hasEntity a.2 then pure ()
  else if a.1 = ⟨some "xml".toList, "id".toList⟩ then
    ensure (isIdentifier a.2) .error
    identify a.2
  else if (← get).doctype.kindOf element.written a.1.written == .identity then identify a.2
  else pure ()

def openElement (scope : Scope) (n : QName) (g : Given) : Parser OpenElement := do
  let defaults ← defaults n
  let inner := defaultBindings defaults g.bindings ++ scope
  let names := g.attributes.map fun a => inner.ofAttribute a.1
  names.forM fun (_, log) => complainAll log
  match Scope.clashes? [] (names.map (·.1)) with
  | none => failure
  | some log =>
    complainAll log
    addDefaults inner (names.map (·.1)) defaults
    let resource := inner.ofElement? n
    ensure (n.label.isNone || resource.isSome) .error
    g.attributes.forM (identifyBy n)
    pure
      { written := n.written, expanded := n.expanded resource,
        attributes := g.attributes.map fun a => (a.1.written, a.2), scope := inner }

/-- A start tag, after its mark. The fuel bounds the number of attributes. -/
def startTag (levels : Nat) (scope : Scope) (fuel : Nat) : Parser StartTag := do
  let (n, isProper) ← (Reader.qualifiedName : Reader (QName × Bool))
  ensure isProper .error
  let (g, isClosed) ← attributes levels n {} fuel
  pure ⟨← openElement scope n g, isClosed, g.undeclared⟩

def endTag (n : Text) : Reader Unit := do
  let m ← Reader.name
  if m ≠ n then failure
  Reader.blanks
  Reader.expect ">"

def characters : Reader Text := do
  let t ← Reader.takeWhile fun c => c != '<' && c != '&'
  if t.all isChar && !Text.contains t "]]>".toList then pure t else failure

/-- A stretch of text in which nothing is markup, after its mark. -/
def verbatim : Reader Text := do
  let t ← Reader.upTo "]]>"
  if t.all isChar then pure t else failure

/-- Reads the replacement of an entity as content, with the bindings where it is used, and gives the
number of bytes that entities stand for in it. -/
abbrev Expansion := Text → Scope → Parser Nat

/-- The use of an entity in content. It has to be markup; what is in the document is read when it is
used for the first time. -/
def useInContent (expand : Expansion) (scope : Scope) (n : Text) : Parser Unit := do
  let s ← get
  match s.doctype.entity? n with
  | none => undeclared .undeclared
  | some .outside => pure ()
  | some (.internal t) =>
    if s.parsed.elem n then charge ((s.sizes.lookup n).getD 0)
    else
      let size := Text.utf8Size t + (← expand t scope)
      modify fun s => { s with parsed := n :: s.parsed, sizes := (n, size) :: s.sizes }
      charge size
  | some _ => failure

def reference (expand : Expansion) (scope : Scope) : Parser Node := do
  if ← Reader.accept "#" then
    let c ← (Reader.numericReference : Reader Char)
    pure (.text [c])
  else
    let n ← (Piece.entityName : Reader Text)
    match predefined? n with
    | some c => pure (.text [c])
    | none =>
      useInContent expand scope n
      pure (.reference n)

/-- A node that is no element, if the text goes on with one. -/
def simpleNode? (expand : Expansion) (scope : Scope) : Parser (Option Node) := do
  if ← Reader.accept "<!--" then
    let t ← (Reader.comment : Reader Text)
    pure (some (.comment t))
  else if ← Reader.accept "<![CDATA[" then
    let t ← (verbatim : Reader Text)
    pure (some (.text t))
  else if ← Reader.accept "<?" then
    let (target, t) ← instruction
    pure (some (.instruction target t))
  else if ← Reader.accept "&" then some <$> reference expand scope
  else if ← Reader.looksAt "<" then pure none
  else
    let t ← (characters : Reader Text)
    pure (some (.text t))

/-- Reads on inside an open element, with the elements around it, up to the end of the outermost one.
An outermost element without tags ends with the text. The fuel bounds the number of nodes. -/
def contentWith (levels : Nat) (expand : Expansion) :
    Nat → List OpenElement → OpenElement → Parser Node
  | 0, _, _ => failure
  | fuel + 1, outer, e => do
    if ← atEnd then
      if outer.isEmpty && e.written.isEmpty then pure e.close else failure
    else if ← Reader.accept "</" then
      endTag e.written
      match outer with
      | [] => pure e.close
      | parent :: outer => contentWith levels expand fuel outer (parent.add e.close)
    else
      match ← simpleNode? expand e.scope with
      | some n => contentWith levels expand fuel outer (e.add n)
      | none =>
        token "<"
        let tag ← startTag levels e.scope (fuel + 1)
        if maxDepth ≤ outer.length then failure
        let e := tag.undeclared.foldl (fun e n => e.add (.reference n)) e
        if tag.isClosed then contentWith levels expand fuel outer (e.add tag.element.close)
        else contentWith levels expand fuel (e :: outer) tag.element

/-- Reads the replacement of an entity with a reader of content, beside the text where it is used. -/
def expandWith (content : Nat → List OpenElement → OpenElement → Parser Node) : Expansion :=
  fun t scope s =>
    let start := { s with input := .ofText 0 t, around := [], copied := 0, isAside := true }
    match (content (t.length + 1) [] (.untagged scope)).run start with
    | some (_, inner) =>
      some (inner.copied,
        { s with
          log := inner.log, identities := inner.identities, sizes := inner.sizes,
          parsed := inner.parsed })
    | none => none

/-- Content in which entities can be nested so deep. -/
def content : Nat → Nat → List OpenElement → OpenElement → Parser Node
  | 0 => contentWith 0 fun _ _ => failure
  | levels + 1 => contentWith (levels + 1) (expandWith (content levels))

/-- Comments, processing instructions and blanks. The fuel bounds their number. -/
def skipMisc : Nat → Parser Unit
  | 0 => failure
  | fuel + 1 => do
    Reader.blanks
    if ← Reader.accept "<!--" then
      let _ ← (Reader.comment : Reader Text)
      skipMisc fuel
    else if ← Reader.accept "<?" then
      let _ ← instruction
      skipMisc fuel
    else pure ()

/-- The root element of a document, after its declaration, and what stands around it. -/
def document : Parser Node := do
  let fuel := (← get).input.rest.length + 1
  skipMisc fuel
  if ← Reader.accept "<!DOCTYPE" then
    doctype
    skipMisc fuel
  token "<"
  let tag ← startTag entityDepth [] fuel
  let root ←
    if tag.isClosed then pure tag.element.close
    else content entityDepth fuel [] tag.element
  skipMisc fuel
  if ← atEnd then pure root else failure

end Parser

def parseText? (t : Text) : Option Node := do
  let (declaration, rest) ← Declaration.cut? t
  let start : Reading :=
    { input := ⟨0, Text.utf8Size t, rest⟩, doctype := { standalone := declaration.standalone } }
  let (root, s) ← Parser.document.run start
  if s.log.isAcceptable then some root else none

/-- The root element of a document given as bytes, if the document is accepted. -/
def parse? (others : Text.Decoders) (bytes : Text.Bytes) : Option Node :=
  (decode? others bytes).bind parseText?

end UmlDrawing.Xml
