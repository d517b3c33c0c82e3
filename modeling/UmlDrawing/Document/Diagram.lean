import UmlDrawing.Config
import UmlDrawing.Document.Fields
import UmlDrawing.FileName
import UmlDrawing.Numeral.Real
import UmlDrawing.Xml.Parser

/-! Diagrams as documents hold them: a zoom level, a help text with settings, and elements. -/
namespace UmlDrawing

structure Diagram where
  /-- ten is the natural size -/
  zoomLevel : Scalar
  help : Text
  records : List ElementRecord
  deriving Inhabited

namespace Diagram

def config (d : Diagram) : Except Fault (Config Scalar × List Note) := do
  let c ← Config.ofZoomLevel d.zoomLevel
  c.withHelpText d.help

end Diagram

namespace Document

open Xml (Node)

mutual

/-- All nodes inside a node, each before those inside it. -/
def descendants : Node → List Node
  | .element _ _ children => descendantsOf children
  | _ => []

def descendantsOf : List Node → List Node
  | [] => []
  | n :: ns => n :: (descendants n ++ descendantsOf ns)

end

/-- The first of some nodes that has a name, if all before it can be looked up. -/
def find? (name : String) : List Node → Except Fault (Option Node)
  | [] => .ok none
  | n :: ns => do
    if (← tag n) = name.toList then pure (some n) else find? name ns

def collect {α : Type} (name : String) (f : Node → Except Fault α) :
    List Node → Except Fault (List α)
  | [] => .ok []
  | n :: ns => do
    if (← tag n) = name.toList then
      let a ← f n
      (a :: ·) <$> collect name f ns
    else collect name f ns

def defaultZoomLevel : Float := 10.0

/-- The zoom level that a text gives, and what there is to report: one that is not above zero is
replaced. -/
def zoomLevelOf (t : Text) : Float × List Note :=
  let level := Numeral.parseRealOr t defaultZoomLevel
  if level ≤ 0.0 then (defaultZoomLevel, [.zoomIgnored t]) else (level, [])

def readZoomLevel (inside : List Node) : Except Fault (Float × List Note) := do
  match ← find? "zoom_level" inside with
  | some z => pure (zoomLevelOf z.textContent)
  | none => pure (defaultZoomLevel, [])

def readContent (inside : List Node) : Except Fault (Text × List ElementRecord) := do
  let help ← find? "help_text" inside
  let records ← collect "element" readElement inside
  pure ((help.map Node.textContent).getD [], records)

def readDiagram (n : Node) : Except Fault Diagram × List Note :=
  let inside := descendants n
  match readZoomLevel inside with
  | .error fault => (.error fault, [])
  | .ok (level, notes) =>
    match readContent inside with
    | .ok (help, records) =>
      (.ok ⟨.real level, help, records⟩, notes ++ [.diagramRead records.length])
    | .error fault => (.error fault, notes)

/-- The diagrams that some nodes hold, up to the first that cannot be read. -/
def readDiagrams : List Node → Except Fault (List Diagram) × List Note
  | [] => (.ok [], [])
  | n :: ns =>
    match readDiagram n with
    | (.error fault, notes) => (.error fault, notes)
    | (.ok d, notes) =>
      let (ds, more) := readDiagrams ns
      (ds.map (d :: ·), notes ++ more)

/-- The nodes of the diagrams of a document: its root if that is one, else all inside it. -/
def diagramNodes (root : Node) : Except Fault (List Node) := do
  if (← tag root) = "diagram".toList then pure [root]
  else collect "diagram" pure (descendants root)

/-- The diagrams of a document, and what there is to report. -/
def ofRoot (root : Node) : Except Fault (List Diagram) × List Note :=
  match diagramNodes root with
  | .error fault => (.error fault, [])
  | .ok [] => (.ok [], [.noDiagrams])
  | .ok ns => readDiagrams ns

def ofBytes (bytes : Text.Bytes) (others : Text.Decoders := .basic) :
    Except Fault (List Diagram) × List Note :=
  match Xml.parse? others bytes with
  | some root => ofRoot root
  | none => (.error .malformedDocument, [])

/-- Whether a text is markup instead of the name of a file. -/
def isMarkup (source : Text) : Bool := Text.startsWith (Text.trimStart source) ['<']

/-- The diagrams of a document given as markup, which is read from its bytes. Any other text names a
file, and there is none. -/
def ofSource (source : Text) (others : Text.Decoders := .basic) :
    Except Fault (List Diagram) × List Note :=
  if isMarkup source then ofBytes (Text.toUtf8 source) others
  else (.error (FileName.absence source), [])

end Document

end UmlDrawing
