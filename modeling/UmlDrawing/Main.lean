import UmlDrawing.Cli.Run
import UmlDrawing.Raster.Png

/-! The program itself: it looks at the files that a command line names, and carries out what comes
of it. -/
namespace UmlDrawing.Cli

/-- What a name stands for; the code tells a directory from other things that cannot be read. -/
def look (name : Text) : IO Entry := do
  try
    let bytes ← IO.FS.readBinFile (String.ofList name)
    pure (.file bytes.toList)
  catch
    | .inappropriateType _ 21 _ => pure .directory
    | _ => pure .missing

def environment : IO (List (Text × Text)) :=
  [Key.format, .diagram, .fontFamily, .fontSize, .zoom].filterMapM fun key => do
    let some name := key.substitute? | pure none
    let value ← IO.getEnv (String.ofList name)
    pure (value.map fun v => (name, v.toList))

def Invocation.names : Invocation → List Text
  | perform _ task => task.names
  | _ => []

def write (name : FileName) (content : FileContent) : IO Unit :=
  let bytes :=
    match content with
    | .image pixels => Raster.Png.encode pixels
    | .text t => Text.toUtf8 t
  IO.FS.writeBinFile (String.ofList name.text) ⟨bytes.toArray⟩

/-- Prints what there is to say, writes the file, and yields the exit code. -/
def carryOut (o : Outcome) : IO UInt32 := do
  for line in o.lines do IO.println (String.ofList line)
  for (name, content) in o.written do write name content
  for report in o.reports do IO.eprintln (String.ofList report.text)
  if o.exitCode = 2 then
    for line in usage do IO.eprintln (String.ofList line)
  if o.fault.isSome then IO.eprintln "The program broke off."
  pure o.exitCode.toUInt32

end UmlDrawing.Cli

open UmlDrawing.Cli in
def main (args : List String) : IO UInt32 := do
  let args := args.map String.toList
  let pairs ← environment
  let vars : Variables := fun name => pairs.lookup name
  let names := (Invocation.ofArguments vars args).names
  let found ← names.mapM fun name => do pure (name, ← look name)
  carryOut (run (fun name => (found.lookup name).getD .missing) vars args)
