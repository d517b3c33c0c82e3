import UmlDrawing.FileName
import UmlDrawing.Fault
import UmlDrawing.Text.Encoding

/-! What a program can see of a file system, and where it can write. -/
namespace UmlDrawing.Cli

inductive Entry where
  | missing
  | directory
  | file (content : Text.Bytes)
  deriving DecidableEq, Repr, Inhabited

/-- What every name stands for. -/
abbrev Files := Text → Entry

namespace Files

/-- What is found in a folder by the steps that lead there. A directory is there if and only if
something is in it. -/
def entryAt (contents : List (List Text × Text.Bytes)) (here : List Text) : Entry :=
  match contents.lookup here with
  | some bytes => .file bytes
  | none =>
    if here = [] ∨ contents.any (fun f => here.isPrefixOf f.1) then .directory else .missing

/-- What is found around a folder: the directories that it is in, and nothing else that is known. -/
def around (parts : List Text) : Entry :=
  if parts.all fun part => !FileName.isStep part || FileName.isUp part then .directory else .missing

/-- What is found by following the parts of a name, all but the last of which have to be
directories. -/
def follow (contents : List (List Text × Text.Bytes)) (here : List Text) : List Text → Entry
  | [] => entryAt contents here
  | part :: parts =>
    match entryAt contents here with
    | .directory =>
      if !FileName.isStep part then follow contents here parts
      else if FileName.isUp part then
        if here = [] then around parts else follow contents here.dropLast parts
      else follow contents (here ++ [part]) parts
    | _ => .missing

def ofFolder (contents : List (Text × Text.Bytes)) : Files := fun name =>
  if name = [] then .missing
  else if Text.startsWith name ['/'] then around (Text.splitOn '/' name)
  else
    follow (contents.map fun (name, bytes) => ((FileName.ofText name).steps, bytes)) []
      (Text.splitOn '/' name)

/-- Why no new file can be put where the steps lead, the last one first: all directories on the way
have to be there, and no step can be too long. -/
def newFileFault? (files : Files) (root : Text) : List Text → Option Fault
  | [] => none
  | step :: way =>
    match files (FileName.text ⟨root, way.reverse⟩) with
    | .directory =>
      if FileName.maxStepSize < Text.utf8Size step then some .fileNameLength else none
    | .file _ => some .notDirectory
    | .missing => some ((newFileFault? files root way).getD .missingFile)

def writeFault? (files : Files) (name : FileName) : Option Fault :=
  if FileName.maxSize < Text.utf8Size name.text then some .fileNameLength
  else
    match files name.text with
    | .file _ => none
    | .directory => some .isDirectory
    | .missing => newFileFault? files name.root name.steps.reverse

/-- The names that decide whether a file can be written: its own, and those of the directories on
the way to it. -/
def wayNames (root : Text) : List Text → List Text
  | [] => []
  | _ :: way => FileName.text ⟨root, way.reverse⟩ :: wayNames root way

def writeNames (name : FileName) : List Text := name.text :: wayNames name.root name.steps.reverse

theorem newFileFault?_congr {files other : Files} (root : Text) (steps : List Text)
    (h : ∀ n ∈ wayNames root steps, files n = other n) :
    newFileFault? files root steps = newFileFault? other root steps := by
  induction steps with
  | nil => rfl
  | cons step way ih =>
    have ih := ih fun n hn => h n (List.mem_cons_of_mem _ hn)
    simp only [newFileFault?, h _ List.mem_cons_self, ih]

theorem writeFault?_congr {files other : Files} (name : FileName)
    (h : ∀ n ∈ writeNames name, files n = other n) :
    files.writeFault? name = other.writeFault? name := by
  have hname := h name.text List.mem_cons_self
  have hway := newFileFault?_congr name.root name.steps.reverse fun n hn =>
    h n (List.mem_cons_of_mem _ hn)
  simp only [writeFault?, hname, hway]

end Files

end UmlDrawing.Cli
