import UmlDrawing.Cli.Files
import UmlDrawing.Cli.Invocation
import UmlDrawing.Document.Diagram
import UmlDrawing.Font.Block
import UmlDrawing.Text.Terminal

/-! What a command line does: what it prints and reports, the file that it writes and the exit code
that it ends with. All of this is a function of the arguments, the variables of the environment and
the files that are there. -/
namespace UmlDrawing.Cli

inductive Complaint where
  | malformedDocument
  | noDiagrams (path : FileName)
  | noSuchDiagram (index : Nat) (path : FileName) (count : Nat)
  | nothingToList (index : Nat)
  | nothingToRender (index : Nat) (path : FileName)
  deriving DecidableEq, Repr

def Complaint.text : Complaint → Text
  | malformedDocument => "Cannot parse UXF document".toList
  | noDiagrams path => "No diagrams found in ".toList ++ path.text
  | noSuchDiagram index path count =>
    "Diagram index ".toList ++ Text.ofNat index ++ " out of range, ".toList ++ path.text
      ++ " contains ".toList ++ Text.ofNat count ++ " diagram(s)".toList
  | nothingToList index => "Diagram ".toList ++ Text.ofNat index ++ " has no elements".toList
  | nothingToRender index path =>
    "Diagram ".toList ++ Text.ofNat index ++ " in ".toList ++ path.text
      ++ " has no elements to render".toList

/-- Something that the user is told besides the results. -/
inductive Report where
  | note (n : Note)
  | complaint (c : Complaint)
  | written (size : Vec Int) (kind : ImageKind) (path : FileName)
  deriving DecidableEq, Repr

namespace Report

/-- A report as a line. What the program itself says has no styles in it; notes are left as they
are. -/
def text : Report → Text
  | note n => n.severity.name ++ ':' :: n.channel ++ ": ".toList ++ n.message
  | complaint c => Text.unstyled ("Error: ".toList ++ c.text)
  | written size kind path =>
    Text.unstyled ("Wrote ".toList ++ Text.ofInt size.x ++ 'x' :: Text.ofInt size.y ++ ' ' :: kind.name
      ++ " image to ".toList ++ path.text)

/-- Whether a report is made when only notes of some severity are asked for. -/
def passes (least : Severity) : Report → Bool
  | note n => decide (least.rank ≤ n.severity.rank)
  | _ => true

end Report

inductive FileContent where
  | image (pixels : Raster.Grid Raster.Pixel)
  | text (t : Text)
  deriving Inhabited

/-- All that comes of a command line. -/
structure Outcome where
  exitCode : Nat
  lines : List Text := []
  reports : List Report := []
  written : Option (FileName × FileContent) := none
  /-- why the program broke off, if it did -/
  fault : Option Fault := none
  deriving Inhabited

inductive Stop where
  | complaint (c : Complaint)
  | fault (f : Fault)
  deriving DecidableEq, Repr

namespace Outcome

def misuse : Outcome := { exitCode := 2 }

def stopped (notes : List Note) : Stop → Outcome
  | .complaint c => { exitCode := 1, reports := notes.map .note ++ [.complaint c] }
  | .fault f => { exitCode := 1, reports := notes.map .note, fault := some f }

def quieted (least : Severity) (o : Outcome) : Outcome :=
  { o with reports := o.reports.filter (·.passes least) }

end Outcome

def leastSeverity : Nat → Severity
  | 0 => .warning
  | 1 => .info
  | _ => .debug

def loadDiagram (content : Text.Bytes) (path : FileName) (index : Nat) :
    Except Stop Diagram × List Note :=
  match Document.ofBytes content with
  | (.error .malformedDocument, notes) => (.error (.complaint .malformedDocument), notes)
  | (.error f, notes) => (.error (.fault f), notes)
  | (.ok [], notes) => (.error (.complaint (.noDiagrams path)), notes)
  | (.ok ds, notes) =>
    match ds[index]? with
    | some d => (.ok d, notes)
    | none => (.error (.complaint (.noSuchDiagram index path ds.length)), notes)

def elementLine (e : Element) : Text :=
  let box := [e.bounds.x, e.bounds.y, e.bounds.w, e.bounds.h].map Text.ofInt
  Text.join ['\t'] [Text.ofInt e.layer, e.kind, Text.join [','] box, e.lines.headD []]

/-- Lists the elements of a diagram in drawing order. -/
def listElements (content : Text.Bytes) (path : FileName) (index : Nat) : Outcome :=
  match loadDiagram content path index with
  | (.error stop, notes) => .stopped notes stop
  | (.ok d, notes) =>
    match Layout.ofRecords d.records with
    | (.error f, more) => .stopped (notes ++ more) (.fault f)
    | (.ok [], more) => .stopped (notes ++ more) (.complaint (.nothingToList index))
    | (.ok es, more) =>
      { exitCode := 0, lines := es.map elementLine, reports := (notes ++ more).map .note }

def declaration : Text := "<?xml version=\"1.0\" encoding=\"utf-8\" ?>\n".toList

/-- What is to be put into a file, or why it remains empty. -/
def fileContent : Artwork → Except Fault FileContent
  | .image pixels => .ok (.image pixels)
  | .document d => d.print.map fun t => .text (declaration ++ t)
  | .recording _ => .ok (.text [])

def describe (c : Config Scalar) : Text :=
  "RenderConfig(font_family=".toList ++ Text.quoted c.fontFamily ++ ", font_size=".toList
    ++ c.fontSize.roundTrip ++ ", zoom=".toList ++ c.zoom.roundTrip ++ [')']

/-- Where an image is written to, and in which format: the one that is asked for, else the one that
the name of the output tells, else pixels. Without a name for the output it is that of the input
with the suffix of the format. -/
def destination (input : FileName) (output : Option FileName) (kind : Option ImageKind) :
    FileName × ImageKind :=
  let kind := (kind.orElse fun _ => output.bind ImageKind.ofSuffix?).getD .png
  (output.getD (input.withSuffix ('.' :: kind.name)), kind)

def save (files : Files) (target : FileName) (kind : ImageKind) (drawing : Drawing Artwork)
    (notes : List Note) : Outcome :=
  match files.writeFault? target, fileContent drawing.artwork with
  | some f, _ => .stopped notes (.fault f)
  | none, .error f => { Outcome.stopped notes (.fault f) with written := some (target, .text []) }
  | none, .ok content =>
    { exitCode := 0
      reports := notes.map .note ++ [.written drawing.size kind target]
      written := some (target, content) }

def render (files : Files) (content : Text.Bytes) (path : FileName) (output : Option FileName)
    (kind : Option ImageKind) (index : Nat) (overrides : Overrides) : Outcome :=
  match loadDiagram content path index with
  | (.error stop, notes) => .stopped notes stop
  | (.ok d, notes) =>
    if d.records.isEmpty then .stopped notes (.complaint (.nothingToRender index path))
    else
      match d.config with
      | .error f => .stopped notes (.fault f)
      | .ok (config, more) =>
        let config := overrides.apply config
        let (target, kind) := destination path output kind
        let pass := kind.format.render (.builtin config) ⟨0, 0⟩
          { installed := FontFiles.standard } d.records
        let notes := notes ++ more ++ .configured (describe config) :: pass.notes
        match pass.result with
        | .error f => .stopped notes (.fault f)
        | .ok drawing => save files target kind drawing notes

/-- What is done with an input, which has to be a file that exists. -/
def withInput (files : Files) (input : Text) (use : Text.Bytes → Outcome) : Outcome :=
  if FileName.isBroken input then .stopped [] (.fault .fileNameCharacter)
  else
    match files input with
    | .file content => use content
    | _ => .misuse

/-- Carries out a task, whose output, if it is given, must be no directory. -/
def Task.run (files : Files) : Task → Outcome
  | listElements input index =>
    withInput files input fun content => Cli.listElements content (.ofText input) index
  | render input output kind index overrides =>
    if output.any FileName.isBroken then .stopped [] (.fault .fileNameCharacter)
    else if output.map files = some .directory then .misuse
    else
      withInput files input fun content =>
        Cli.render files content (.ofText input) (output.map .ofText) kind index overrides

def Task.names : Task → List Text
  | listElements input _ => [input]
  | render input output kind _ _ =>
    input :: output.toList ++
      Files.writeNames (destination (.ofText input) (output.map .ofText) kind).1

theorem save_congr {files other : Files} (target : FileName) (kind : ImageKind)
    (drawing : Drawing Artwork) (notes : List Note)
    (h : ∀ n ∈ Files.writeNames target, files n = other n) :
    save files target kind drawing notes = save other target kind drawing notes := by
  simp only [save, Files.writeFault?_congr target h]

theorem render_congr {files other : Files} (content : Text.Bytes) (path : FileName)
    (output : Option FileName) (kind : Option ImageKind) (index : Nat) (overrides : Overrides)
    (h : ∀ n ∈ Files.writeNames (destination path output kind).1, files n = other n) :
    render files content path output kind index overrides =
      render other content path output kind index overrides := by
  simp only [render, save_congr (destination path output kind).1 _ _ _ h]

/-- A task sees nothing of the files but what its names stand for. -/
theorem Task.run_congr {files other : Files} (task : Task)
    (h : ∀ n ∈ task.names, files n = other n) : task.run files = task.run other := by
  cases task with
  | listElements input index => simp only [Task.run, withInput, h input List.mem_cons_self]
  | render input output kind index overrides =>
    have hin := h input List.mem_cons_self
    have hout : output.map files = output.map other := by
      cases output with
      | none => rfl
      | some o => simp [h o (by simp [Task.names])]
    have hrender := fun content => render_congr content (.ofText input) (output.map .ofText) kind
      index overrides fun n hn => h n (List.mem_cons_of_mem _ (List.mem_append_right _ hn))
    simp only [Task.run, withInput, hin, hout, hrender]

def usage : List Text :=
  ["Usage: umldrawing [-v] [--version] [--help] COMMAND".toList,
    "Commands:".toList,
    "  list-elements INPUT [--diagram N]".toList,
    "  render INPUT [-o FILE] [-f png|svg] [--diagram N] [--font-family NAME]".toList,
    "    [--font-size SIZE] [--zoom FACTOR]".toList]

/-- What comes of a command line. -/
def run (files : Files) (vars : Variables) (args : List Text) : Outcome :=
  match Invocation.ofArguments vars args with
  | .help => { exitCode := 0, lines := usage }
  | .version => { exitCode := 0, lines := ["umldrawing".toList] }
  | .misuse => .misuse
  | .perform verbosity task => (task.run files).quieted (leastSeverity verbosity)

@[simp] theorem run_nil (files : Files) (vars : Variables) :
    run files vars [] = .misuse := rfl

theorem exitCode_stopped (notes : List Note) (stop : Stop) :
    (Outcome.stopped notes stop).exitCode = 1 := by
  cases stop <;> rfl

end UmlDrawing.Cli
