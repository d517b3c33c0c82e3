import UmlDrawing.Cli.Options
import UmlDrawing.FileName
import UmlDrawing.Format
import UmlDrawing.Numeral.Real

/-! What a command line asks for. The options of the program come before the name of a command;
those of a command may stand anywhere behind it. Some of them can also be set by variables of the
environment, which count where the option is not given. -/
namespace UmlDrawing.Cli

inductive ImageKind where
  | png
  | svg
  deriving DecidableEq, Repr, Inhabited

namespace ImageKind

def name : ImageKind → Text
  | png => "png".toList
  | svg => "svg".toList

def ofLowerName? (name : Text) : Option ImageKind := [png, svg].find? fun k => k.name = name

/-- The format that a name stands for, whatever the case of its letters; a long s counts as one. -/
def ofName? (name : Text) : Option ImageKind :=
  ofLowerName? ((Text.lower name).map fun c => if c = 'ſ' then 's' else c)

def format : ImageKind → Format
  | png => .raster
  | svg => .vector

def ofSuffix? (name : FileName) : Option ImageKind :=
  ofLowerName? ((Text.lower name.suffix).dropWhile (· == '.'))

end ImageKind

inductive Subcommand where
  | listElements
  | render
  deriving DecidableEq, Repr

namespace Subcommand

def all : List Subcommand := [listElements, render]

def name : Subcommand → Text
  | listElements => "list-elements".toList
  | render => "render".toList

def ofName? (name : Text) : Option Subcommand := all.find? fun c => c.name = name

end Subcommand

inductive Key where
  | help
  | version
  | verbose
  | output
  | format
  | diagram
  | fontFamily
  | fontSize
  | zoom
  deriving DecidableEq, Repr

def helpForm : OptionForm Key := { key := .help, long := "help".toList, takesValue := false }

def diagramForm : OptionForm Key := { key := .diagram, long := "diagram".toList }

/-- The options before the name of a command. -/
def programForms : List (OptionForm Key) :=
  [{ key := .verbose, long := "verbose".toList, letter := some 'v', takesValue := false },
    { key := .version, long := "version".toList, takesValue := false }, helpForm]

def Subcommand.forms : Subcommand → List (OptionForm Key)
  | listElements => [diagramForm, helpForm]
  | render =>
    [{ key := .output, long := "output".toList, letter := some 'o' },
      { key := .format, long := "format".toList, letter := some 'f' }, diagramForm,
      { key := .fontFamily, long := "font-family".toList },
      { key := .fontSize, long := "font-size".toList },
      { key := .zoom, long := "zoom".toList }, helpForm]

/-- The variable that can stand in for an option of the command that renders. -/
def Key.substitute? : Key → Option Text
  | format => some "UXFCANVAS_FORMAT".toList
  | diagram => some "UXFCANVAS_DIAGRAM".toList
  | fontFamily => some "UXFCANVAS_FONT_FAMILY".toList
  | fontSize => some "UXFCANVAS_FONT_SIZE".toList
  | zoom => some "UXFCANVAS_ZOOM".toList
  | _ => none

abbrev Variables := Text → Option Text

/-- The settings that replace those of a diagram. -/
structure Overrides where
  fontFamily : Option Text := none
  fontSize : Option Float := none
  zoom : Option Float := none
  deriving Inhabited

namespace Overrides

def apply (o : Overrides) (c : Config Scalar) : Config Scalar :=
  { fontFamily := o.fontFamily.getD c.fontFamily
    fontSize := (o.fontSize.map Scalar.real).getD c.fontSize
    zoom := (o.zoom.map Scalar.real).getD c.zoom }

@[simp] theorem apply_default (c : Config Scalar) : ({} : Overrides).apply c = c := rfl

end Overrides

inductive Task where
  | listElements (input : Text) (index : Nat)
  | render (input : Text) (output : Option Text) (kind : Option ImageKind) (index : Nat)
      (overrides : Overrides)
  deriving Inhabited

/-- What a command line asks for. -/
inductive Invocation where
  | help
  | version
  | misuse
  /-- a task, with the number of times that more reports are asked for -/
  | perform (verbosity : Nat) (task : Task)
  deriving Inhabited

namespace Invocation

/-- A number that counts from zero. -/
def index? (t : Text) : Option Nat :=
  match Numeral.parseDecimal t with
  | .ok n => if n < 0 then none else some n.toNat
  | .error _ => none

def positive? (t : Text) : Option Float :=
  (Numeral.parseReal? t).bind fun x => if x ≤ 0.0 then none else some x

/-- The value of an option as it was written: the one given, or else the one that its variable
holds, where an empty variable holds none. -/
def written? (g : Given Key) (vars : Variables) (key : Key) : Option Text :=
  match g.value? key with
  | some t => some t
  | none => (key.substitute?.bind vars).filter (· != [])

/-- The value of an option, if there is one; none at all if it cannot be read. -/
def setting? {α : Type} (g : Given Key) (vars : Variables) (key : Key)
    (read? : Text → Option α) : Option (Option α) :=
  match written? g vars key with
  | none => some none
  | some t => (read? t).map some

def ofListElements? (g : Given Key) : Option Task := do
  let index ← setting? g (fun _ => none) .diagram index?
  match g.arguments with
  | [input] => some (.listElements input (index.getD 0))
  | _ => none

def ofRender? (g : Given Key) (vars : Variables) : Option Task := do
  let kind ← setting? g vars .format ImageKind.ofName?
  let index ← setting? g vars .diagram index?
  let fontSize ← setting? g vars .fontSize positive?
  let zoom ← setting? g vars .zoom positive?
  let overrides := ⟨written? g vars .fontFamily, fontSize, zoom⟩
  match g.arguments with
  | [input] => some (.render input (g.value? .output) kind (index.getD 0) overrides)
  | _ => none

def ofSubcommand (vars : Variables) (verbosity : Nat) (c : Subcommand) (args : List Text) :
    Invocation :=
  match scan? c.forms true args with
  | none => misuse
  | some g =>
    if g.has .help then help
    else
      let task? :=
        match c with
        | .listElements => ofListElements? g
        | .render => ofRender? g vars
      task?.elim misuse (perform verbosity)

/-- What all arguments of the program ask for. -/
def ofArguments (vars : Variables) (args : List Text) : Invocation :=
  match scan? programForms false args with
  | none => misuse
  | some g =>
    if g.has .help then help
    else if g.has .version then version
    else
      match g.arguments with
      | [] => misuse
      | name :: rest =>
        (Subcommand.ofName? name).elim misuse fun c =>
          ofSubcommand vars (g.count .verbose) c rest

@[simp] theorem ofArguments_nil (vars : Variables) : ofArguments vars [] = misuse := rfl

end Invocation

end UmlDrawing.Cli
