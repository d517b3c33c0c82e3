import UmlDrawing.Text.Basic

/-! The options among the arguments of a command. An option has a long name, which stands after two
dashes, and it may have a letter, which stands after one dash; letters can share a dash. A value is
in the same argument or is the next one, whatever that looks like. Two dashes alone end the
options. -/
namespace UmlDrawing.Cli

/-- The form in which an option is given. -/
structure OptionForm (K : Type) where
  key : K
  long : Text
  letter : Option Char := none
  takesValue : Bool := true

/-- The options that were given, in order, each with its value if it takes one; and all other
arguments. -/
structure Given (K : Type) where
  options : List (K × Text) := []
  arguments : List Text := []
  deriving DecidableEq, Repr, Inhabited

namespace Given

variable {K : Type}

def argument (arg : Text) (g : Given K) : Given K := { g with arguments := arg :: g.arguments }

def withOptions (found : List (K × Text)) (g : Given K) : Given K :=
  { g with options := found ++ g.options }

variable [DecidableEq K]

def has (g : Given K) (key : K) : Bool := g.options.any fun o => o.1 = key

def count (g : Given K) (key : K) : Nat := (g.options.filter fun o => o.1 = key).length

/-- The value of an option; that of the last one if there are several. -/
def value? (g : Given K) (key : K) : Option Text :=
  (g.options.reverse.find? fun o => o.1 = key).map (·.2)

end Given

/-- The options that an argument gives by itself, and the one that takes the next argument as its
value. -/
structure Reading (K : Type) where
  found : List (K × Text)
  waiting : Option K := none

section Scan

variable {K : Type} (forms : List (OptionForm K))

/-- An argument after two dashes. An option without values must not be given one. -/
def readLong? (body : Text) : Option (Reading K) :=
  let name := (Text.cut? '=' body).elim body (·.1)
  match forms.find? (fun f => f.long = name), Text.cut? '=' body with
  | some f, some (_, value) => if f.takesValue then some ⟨[(f.key, value)], none⟩ else none
  | some f, none => if f.takesValue then some ⟨[], some f.key⟩ else some ⟨[(f.key, [])], none⟩
  | none, _ => none

/-- An argument after one dash: letters, up to the first one that takes a value, which is all that
follows it. -/
def readLetters? : Text → Option (Reading K)
  | [] => some ⟨[], none⟩
  | c :: r =>
    match forms.find? fun f => f.letter = some c with
    | none => none
    | some f =>
      if !f.takesValue then
        (readLetters? r).map fun reading => { reading with found := (f.key, []) :: reading.found }
      else if r = [] then some ⟨[], some f.key⟩
      else some ⟨[(f.key, r)], none⟩

def readOption? (arg : Text) : Option (Reading K) :=
  match arg with
  | '-' :: '-' :: body => readLong? forms body
  | _ :: body => readLetters? forms body
  | [] => none

/-- Whether an argument gives options. A dash alone is an argument like others. -/
def isOption (arg : Text) : Bool := Text.startsWith arg ['-'] && arg != ['-']

/-- Takes the options out of some arguments; none if an option is unknown or lacks its value.
Without mixing, the first other argument ends the options. -/
def scan? (mixed : Bool) : List Text → Option (Given K)
  | [] => some {}
  | arg :: rest =>
    if arg = ['-', '-'] then some { arguments := rest }
    else if isOption arg then
      match readOption? forms arg, rest with
      | none, _ => none
      | some ⟨found, none⟩, rest => (scan? mixed rest).map (Given.withOptions found)
      | some ⟨_, some _⟩, [] => none
      | some ⟨found, some key⟩, value :: rest =>
        (scan? mixed rest).map (Given.withOptions (found ++ [(key, value)]))
    else if mixed then (scan? mixed rest).map (Given.argument arg)
    else some { arguments := arg :: rest }

end Scan

theorem scan?_argument {K : Type} (forms : List (OptionForm K)) {arg : Text} (rest : List Text)
    (h : isOption arg = false) :
    scan? forms false (arg :: rest) = some { arguments := arg :: rest } := by
  have : arg ≠ ['-', '-'] := by
    rintro rfl
    exact absurd h (by decide)
  unfold scan?
  simp [h, this]

example :
    scan? [⟨0, "output".toList, some 'o', true⟩, ⟨1, "verbose".toList, some 'v', false⟩] true
      ["-vvoA".toList, "B".toList, "--output".toList, "-v".toList, "--".toList, "-v".toList] =
      some ⟨[(1, []), (1, []), (0, ['A']), (0, "-v".toList)], [['B'], "-v".toList]⟩ := by
  rfl

end UmlDrawing.Cli
