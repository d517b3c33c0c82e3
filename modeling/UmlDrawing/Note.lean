import UmlDrawing.Fault

/-! What the library reports besides its results. A note says what happened; its wording, its
severity and the part of the program that reports it are functions of that. -/
namespace UmlDrawing

inductive Severity where
  | debug
  | info
  | warning
  | error
  deriving DecidableEq, Repr

namespace Severity

/-- The severities in ascending order. -/
def rank : Severity → Nat
  | debug => 0
  | info => 1
  | warning => 2
  | error => 3

def name : Severity → Text
  | debug => "DEBUG".toList
  | info => "INFO".toList
  | warning => "WARNING".toList
  | error => "ERROR".toList

end Severity

inductive Note where
  | fontSizeIgnored (value : Text)
  /-- a colour is unknown; the default is given as it is written -/
  | colorIgnored (value default : Text)
  | sizeClamped (id : Text) (w h : Int)
  | arrowIgnored (token : Text)
  /-- a line is too short for arrowheads -/
  | headsOmitted (points : Nat)
  | lineOmitted (points : Nat)
  | fillOmitted (kind : Text)
  /-- a relation without points has text -/
  | labelOmitted
  | kindUnknown (kind : Text)
  | drawingFailed (kind : Text) (x y : Int) (fault : Fault)
  | rendered (elements : Nat) (w h : Int)
  | zoomIgnored (value : Text)
  | diagramRead (elements : Nat)
  | noDiagrams
  | configured (config : Text)
  deriving DecidableEq, Repr

namespace Note

def severity : Note → Severity
  | fontSizeIgnored _ | colorIgnored .. | sizeClamped .. | kindUnknown _ | zoomIgnored _
  | noDiagrams => .warning
  | drawingFailed .. => .error
  | _ => .debug

/-- The name under which a part of the program reports. -/
def channel : Note → Text
  | fontSizeIgnored _ => "uxfcanvas.config".toList
  | colorIgnored .. => "uxfcanvas.diagram.capstyle".toList
  | sizeClamped .. => "uxfcanvas.diagram._element".toList
  | arrowIgnored _ | headsOmitted _ => "uxfcanvas.diagram._lines".toList
  | lineOmitted _ | fillOmitted _ | labelOmitted | kindUnknown _ => "uxfcanvas.renderers".toList
  | drawingFailed .. | rendered .. => "uxfcanvas.compositor".toList
  | zoomIgnored _ | diagramRead _ | noDiagrams => "uxfcanvas.uxf".toList
  | configured _ => "uxfcanvas._scripts.render".toList

def message : Note → Text
  | fontSizeIgnored value => "Ignoring invalid font size ".toList ++ Text.quoted value
  | colorIgnored value default =>
    "Unknown color ".toList ++ Text.quoted value ++ ", using ".toList ++ default
      ++ " instead".toList
  | sizeClamped id w h =>
    "Element ".toList ++ Text.quoted id ++ " has a negative size (".toList ++ Text.ofInt w
      ++ ", ".toList ++ Text.ofInt h ++ "), clamping to zero".toList
  | arrowIgnored token => "Unsupported arrowhead token ".toList ++ Text.quoted token
  | headsOmitted n =>
    "Not drawing arrowheads for a line with ".toList ++ Text.ofNat n ++ " points".toList
  | lineOmitted n => "Not drawing a line with ".toList ++ Text.ofNat n ++ " points".toList
  | fillOmitted kind => "Not filling ".toList ++ kind ++ " with zero area".toList
  | labelOmitted => "Not drawing text of a relation without points".toList
  | kindUnknown kind =>
    "Unknown element kind ".toList ++ Text.quoted kind ++ ", drawing it as Default".toList
  | drawingFailed kind x y _ =>
    "Cannot render ".toList ++ kind ++ " element at (".toList ++ Text.ofInt x ++ ", ".toList
      ++ Text.ofInt y ++ ")".toList
  | rendered n w h =>
    "Rendered ".toList ++ Text.ofNat n ++ " elements onto a ".toList ++ Text.ofInt w
      ++ "x".toList ++ Text.ofInt h ++ " surface".toList
  | zoomIgnored value => "Ignoring invalid zoom level ".toList ++ Text.quoted value
  | diagramRead n => "Read diagram with ".toList ++ Text.ofNat n ++ " elements".toList
  | noDiagrams => "Document does not contain any diagrams".toList
  | configured config => "Rendering with ".toList ++ config

/-- The fault that a note is about, if it reports one. -/
def fault? : Note → Option Fault
  | drawingFailed _ _ _ fault => some fault
  | _ => none

end Note

end UmlDrawing
