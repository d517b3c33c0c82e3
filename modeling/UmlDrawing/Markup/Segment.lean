import UmlDrawing.Markup.Style

/-! One level of markup: a line as a sequence of plain stretches and of runs between delimiters.
A run may start where no letter or digit of the basic alphabet stands before it; it holds at least
one character, ends at the next delimiter of its kind, and stays within its line. -/
namespace UmlDrawing.Markup

inductive Segment where
  | plain (text : Text)
  | run (emphasis : Emphasis) (inner : Text)
  deriving DecidableEq, Repr

namespace Segment

/-- The characters of the line that the segment covers. -/
def source : Segment → Text
  | plain text => text
  | run e inner => e.delimiter :: inner ++ [e.delimiter]

end Segment

/-- Whether a run may start after the character, or at the start of the line if there is none. -/
def opensAfter : Option Char → Bool
  | none => true
  | some c => !c.isAlphanum

/-- The text up to the next occurrence of the delimiter in the same line, and the text after it. -/
def cutAt? (delimiter : Char) : Text → Option (Text × Text)
  | [] => none
  | c :: r =>
    if c = delimiter then some ([], r)
    else if c = '\n' then none
    else (cutAt? delimiter r).map fun (inner, rest) => (c :: inner, rest)

/-- The inside of a run that was opened with the delimiter, and the text after the run. The first
character belongs to the inside whatever it is. -/
def closeRun? (delimiter : Char) : Text → Option (Text × Text)
  | [] => none
  | c :: r =>
    if c = '\n' then none
    else (cutAt? delimiter r).map fun (inner, rest) => (c :: inner, rest)

/-- A line up to its first run: what comes before the run, the run, and what comes after it. -/
structure FirstRun where
  before : Text
  emphasis : Emphasis
  inner : Text
  rest : Text
  deriving DecidableEq, Repr

/-- The first run of a line that follows the given character. -/
def firstRun? : Option Char → Text → Option FirstRun
  | _, [] => none
  | previous, c :: r =>
    let here : Option FirstRun :=
      if opensAfter previous then
        (Emphasis.ofChar? c).bind fun e =>
          (closeRun? c r).map fun (inner, rest) => ⟨[], e, inner, rest⟩
      else none
    match here with
    | some run => some run
    | none => (firstRun? (some c) r).map fun run => { run with before := c :: run.before }

def plainPart (text : Text) : List Segment := if text = [] then [] else [.plain text]

/-- The segments of a line that follows the given character. The fuel bounds the number of runs. -/
def segmentsFrom : Nat → Option Char → Text → List Segment
  | 0, _, line => plainPart line
  | fuel + 1, previous, line =>
    match firstRun? previous line with
    | none => plainPart line
    | some f =>
      plainPart f.before ++
        .run f.emphasis f.inner :: segmentsFrom fuel (some f.emphasis.delimiter) f.rest

def segments (line : Text) : List Segment := segmentsFrom line.length none line

theorem eq_append_of_cutAt? {d : Char} {t inner rest : Text} (h : cutAt? d t = some (inner, rest)) :
    t = inner ++ d :: rest := by
  induction t generalizing inner rest with
  | nil => simp [cutAt?] at h
  | cons c r ih =>
    simp only [cutAt?] at h
    split at h
    · next hc => cases h; simp [hc]
    · split at h
      · cases h
      · obtain ⟨⟨i, q⟩, hi, hq⟩ := Option.map_eq_some_iff.1 h
        cases hq
        simp [ih hi]

theorem eq_append_of_closeRun? {d : Char} {t inner rest : Text}
    (h : closeRun? d t = some (inner, rest)) : t = inner ++ d :: rest := by
  cases t with
  | nil => simp [closeRun?] at h
  | cons c r =>
    simp only [closeRun?] at h
    split at h
    · cases h
    · obtain ⟨⟨i, q⟩, hi, hq⟩ := Option.map_eq_some_iff.1 h
      cases hq
      simp [eq_append_of_cutAt? hi]

theorem eq_append_of_firstRun? {previous : Option Char} {line : Text} {f : FirstRun}
    (h : firstRun? previous line = some f) :
    line = f.before ++ (Segment.run f.emphasis f.inner).source ++ f.rest := by
  induction line generalizing previous f with
  | nil => simp [firstRun?] at h
  | cons c r ih =>
    simp only [firstRun?] at h
    split at h
    · next run hrun =>
      cases h
      split at hrun
      · obtain ⟨e, he, hr⟩ := Option.bind_eq_some_iff.1 hrun
        obtain ⟨⟨inner, rest⟩, hi, hf⟩ := Option.map_eq_some_iff.1 hr
        subst hf
        have hc := Emphasis.ofChar?_eq_some_iff.1 he
        subst hc
        simp [Segment.source, eq_append_of_closeRun? hi]
      · cases hrun
    · obtain ⟨g, hg, hf⟩ := Option.map_eq_some_iff.1 h
      subst hf
      conv => lhs; rw [ih hg]
      rfl

@[simp] theorem flatMap_source_plainPart (t : Text) : (plainPart t).flatMap Segment.source = t := by
  unfold plainPart
  split <;> simp_all [Segment.source]

/-- The segments of a line cover it without gap or overlap. -/
theorem flatMap_source_segmentsFrom (fuel : Nat) (previous : Option Char) (line : Text) :
    (segmentsFrom fuel previous line).flatMap Segment.source = line := by
  induction fuel generalizing previous line with
  | zero => simp [segmentsFrom]
  | succ fuel ih =>
    simp only [segmentsFrom]
    split
    · simp
    · next f hf =>
      rw [List.flatMap_append, List.flatMap_cons, ih, flatMap_source_plainPart]
      conv => rhs; rw [eq_append_of_firstRun? hf]
      simp

@[simp] theorem flatMap_source_segments (line : Text) :
    (segments line).flatMap Segment.source = line :=
  flatMap_source_segmentsFrom ..

example : segments "a *b* /c".toList =
    [.plain "a ".toList, .run .bold ['b'], .plain " /c".toList] := by decide

end UmlDrawing.Markup
