import UmlDrawing.Fault

/-! The names of files, as far as they can be understood without a look at any file. -/
namespace UmlDrawing

/-- The name of a file: where it starts, and the steps that lead to the file. -/
structure FileName where
  /-- the slashes that an absolute name begins with -/
  root : Text := []
  steps : List Text
  deriving DecidableEq, Repr, Inhabited

namespace FileName

/-- The slashes that a name starts at. Exactly two of them stay two; any other number is one. -/
def rootOf (t : Text) : Text :=
  match (t.takeWhile (· == '/')).length with
  | 0 => []
  | 2 => ['/', '/']
  | _ => ['/']

/-- Whether a part of a name leads to another place. -/
def isStep (part : Text) : Bool := part != [] && part != ['.']

/-- The name that a text stands for; parts that lead nowhere do not count. -/
def ofText (t : Text) : FileName := ⟨rootOf t, (Text.splitOn '/' t).filter isStep⟩

/-- The name as it is written. The one without any steps is a dot. -/
def text (f : FileName) : Text :=
  if f.root = [] ∧ f.steps = [] then ['.'] else f.root ++ Text.join ['/'] f.steps

def maxSize : Nat := 4095

def maxStepSize : Nat := 255

/-- Whether a step leads to the directory around the one where it is taken. -/
def isUp (step : Text) : Bool := step == ['.', '.']

/-- The first step that leads on from a directory instead of back. -/
def entrance? (f : FileName) : Option Text := (f.steps.dropWhile isUp).head?

/-- The steps from the current directory to where the name leads, if that is inside of it. -/
def inside? (f : FileName) : Option (List Text) :=
  if f.root = [] then
    f.steps.foldlM (fun here step =>
      if !isUp step then some (here ++ [step])
      else if here = [] then none
      else some here.dropLast) []
  else none

/-- Whether a text cannot be a name, since it holds the character that ends names. -/
def isBroken (t : Text) : Bool := t.elem '\x00'

/-- Why no file can be read where nothing but directories around the current one is to be found. The
steps behind one that leads nowhere are not looked at. -/
def absence (t : Text) : Fault :=
  let f := ofText t
  if isBroken t then .fileNameCharacter
  else if maxSize < Text.utf8Size f.text then .fileNameLength
  else
    match f.entrance? with
    | none => .isDirectory
    | some step => if maxStepSize < Text.utf8Size step then .fileNameLength else .missingFile

/-- A step, divided before its last dot if there is something on both sides of it. -/
def cutSuffix (step : Text) : Text × Text :=
  let last := (step.reverse.takeWhile (· != '.')).reverse
  let stem := step.take (step.length - last.length - 1)
  if last = [] ∨ stem = [] then (step, []) else (stem, '.' :: last)

def suffix (f : FileName) : Text := (cutSuffix (f.steps.getLast?.getD [])).2

/-- The name with another suffix, which a name without one gets as well. -/
def withSuffix (f : FileName) (suffix : Text) : FileName :=
  match f.steps.getLast? with
  | none => f
  | some step => { f with steps := f.steps.dropLast ++ [(cutSuffix step).1 ++ suffix] }

@[simp] theorem cutSuffix_append (step : Text) : (cutSuffix step).1 ++ (cutSuffix step).2 = step := by
  have split : (step.reverse.dropWhile (· != '.')).reverse ++
      (step.reverse.takeWhile (· != '.')).reverse = step := by
    rw [← List.reverse_append, List.takeWhile_append_dropWhile, List.reverse_reverse]
  have head := List.head?_dropWhile_not (· != '.') step.reverse
  simp only [cutSuffix]
  generalize hlast : (step.reverse.takeWhile (· != '.')).reverse = last at *
  cases hrest : step.reverse.dropWhile (· != '.') with
  | nil =>
    rw [hrest] at split
    have : step = last := by simpa using split.symm
    simp [this]
  | cons c rest =>
    rw [hrest] at split head
    have hc : c = '.' := by simpa using head
    have hlength : step.length - last.length - 1 = rest.reverse.length := by
      rw [← split]
      simp only [List.length_append, List.length_reverse, List.length_cons]
      omega
    have htake : step.take (step.length - last.length - 1) = rest.reverse := by
      rw [hlength, ← split]
      simp
    simp only [htake]
    split
    · simp
    · rw [← split, hc]
      simp

example : (ofText "./a//b.c.uxf".toList).withSuffix ".svg".toList = ⟨[], ["a".toList,
    "b.c.svg".toList]⟩ := by rfl

example : (cutSuffix ".hidden".toList).2 = [] := by decide

example : (ofText []).text = ['.'] := by decide

example : absence "../.".toList = .isDirectory := by rfl

example : absence "a/..".toList = .missingFile := by rfl

end FileName

end UmlDrawing
