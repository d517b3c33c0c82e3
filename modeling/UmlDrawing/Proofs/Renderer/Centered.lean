import UmlDrawing.Proofs.Renderer.Runs

/-! Where the text of a use case stands in exact arithmetic. Its start is chosen as if all lines were of
the line height of text without markup, but each line takes up its own height: half of that for a
separator, and the line height of its last run for any other line. So the text is in the middle if and
only if the lines take up as much in sum as lines without markup. -/
namespace UmlDrawing.Renderer

open Sketch TextLine

variable (ruler : Ruler ℝ) (config : Config ℝ)

/-- The commands that draw a separator. -/
def separatorCommands (x y w : ℝ) (color : Color) : List (Command ℝ) :=
  [.beginPath, .moveTo ⟨x, y⟩, .lineTo ⟨x + w, y⟩, .stroke color []]

/-- The commands that draw a centered line from some height on. A separator stands where its height
ends, the runs of any other line where it begins. -/
noncomputable def lineCommands (x w : ℝ) (color : Color) (y : ℝ) (line : Text) :
    List (Command ℝ) :=
  if isSeparator line then separatorCommands x (y + taken ruler config line) w color
  else tileCommands ruler config
    (exactLeft ⟨true, true⟩ x w ((leaves line).map (widthOf ruler config)).sum) y color (leaves line)

/-- The commands that draw some centered lines, each below what those before it take up. -/
noncomputable def stacked (x w : ℝ) (color : Color) : ℝ → List Text → List (Command ℝ)
  | _, [] => []
  | y, line :: lines =>
    lineCommands ruler config x w color y line ++ stacked x w color (y + taken ruler config line) lines

variable {ruler config} {e : Element} {color : Color}

lemma separator_issues (x y w : ℝ) :
    Issues ruler (Shape.separator x y w color) () (separatorCommands x y w color) := by
  refine (Issues.draw _).bind ((Issues.draw _).bind ?_)
  refine (Issues.ofExcept (Arithmetic.real_add x w)).quietly ?_
  exact (Issues.draw _).bind (Issues.draw _)

/-- A line is drawn from where the lines before it end, to where the lines after it begin. -/
lemma useCaseLine_issues (y : ℝ) (line : Text) :
    Issues ruler (useCaseLine e config color (plainHeight ruler config) y line)
      (y + taken ruler config line)
      (lineCommands ruler config e.bounds.x (e.bounds.w : ℤ) color y line) := by
  rw [useCaseLine, lineCommands]
  split
  · next h =>
    rw [taken, if_pos h]
    refine (Issues.ofExcept (Arithmetic.real_div _ two_ne_zero)).quietly ?_
    refine (Issues.ofExcept (Arithmetic.real_add y _)).quietly ?_
    exact (separator_issues _ _ _).ended (Issues.pure _)
  · next h =>
    rw [taken, if_neg h]
    refine (draw_issues (eq_false_of_ne_true h) _ y _ color _).ended ?_
    exact Issues.ofExcept (Arithmetic.real_add y _)

/-- The lines end where all that they take up has been used. -/
lemma foldlM_useCaseLine_issues (y : ℝ) (lines : List Text) :
    Issues ruler (lines.foldlM (useCaseLine e config color (plainHeight ruler config)) y)
      (y + (lines.map (taken ruler config)).sum)
      (stacked ruler config e.bounds.x (e.bounds.w : ℤ) color y lines) := by
  induction lines generalizing y with
  | nil => simpa [stacked] using Issues.pure y
  | cons line lines ih =>
    rw [List.foldlM_cons, List.map_cons, List.sum_cons, ← add_assoc]
    exact (useCaseLine_issues y line).bind (ih _)

lemma useCaseTop_real (e : Element) (height : ℝ) : useCaseTop e height =
    .ok (e.bounds.y + (e.bounds.h : ℝ) / 2 - e.lines.length * height / 2) := by
  have hhalf (a : ℝ) : Arithmetic.half a = .ok (a / 2) := Arithmetic.real_div a two_ne_zero
  simp [useCaseTop, hhalf, ok_bind]

lemma colorOf_issues {property : Option Text} {default found : Option Color} {notes : List Note}
    (h : Color.resolve property default = .ok (found, notes)) :
    Issues ruler (Shape.colorOf property default) found [] :=
  (Issues.ofExcept h).quietly ((Issues.report notes).quietly (Issues.pure found))

/-- There is a colour for lines and text, whatever the element says. -/
lemma exists_lineColor (ruler : Ruler ℝ) (e : Element) :
    ∃ color, Issues ruler (Shape.lineColor e) color [] := by
  obtain ⟨found, notes, h⟩ := Color.exists_resolve (e.get? "fg".toList) Color.black_inRange
  exact ⟨_, (colorOf_issues h).quietly (Issues.pure _)⟩

lemma exists_fill (ruler : Ruler ℝ) (e : Element) :
    ∃ commands, Issues ruler (Shape.fill e) () commands := by
  have hnone : ∀ c ∈ (none : Option Color), c.inRange = true := fun c hc => by cases hc
  obtain ⟨found, notes, h⟩ := Color.exists_resolve (e.get? "bg".toList) hnone
  cases found with
  | none => exact ⟨_, (colorOf_issues h).quietly (Issues.pure ())⟩
  | some c =>
    have hdrawn : ∃ commands, Issues ruler (if e.bounds.isEmpty
        then Sketch.report [.fillOmitted e.kind]
        else Sketch.draw (.fill c Shape.fillAlpha)) () commands := by
      split
      · exact ⟨_, Issues.report _⟩
      · exact ⟨_, Issues.draw _⟩
    obtain ⟨commands, hcommands⟩ := hdrawn
    exact ⟨commands, (colorOf_issues h).quietly hcommands⟩

/-- The outline of an element is always drawn. -/
lemma exists_ellipse (ruler : Ruler ℝ) (e : Element) :
    ∃ outline, Issues ruler (Shape.ellipse e) () outline := by
  obtain ⟨commands, hfill⟩ := exists_fill ruler e
  obtain ⟨color, hcolor⟩ := exists_lineColor ruler e
  have hstroke : Issues ruler (Shape.stroke e) () _ := hcolor.quietly (Issues.draw _)
  exact ⟨_, (Issues.draw _).bind ((Issues.draw _).bind (hfill.bind (hstroke.bind (Issues.draw _))))⟩

/-- A use case is drawn as its outline with its lines from their start on. -/
lemma useCase_issues {outline : List (Command ℝ)} {start : ℝ}
    (houtline : Issues ruler (Shape.ellipse e) () outline)
    (hcolor : Issues ruler (Shape.lineColor e) color [])
    (hstart : useCaseTop e (plainHeight ruler config) = .ok start) :
    Issues ruler (useCase e config) ()
      (outline ++ stacked ruler config e.bounds.x (e.bounds.w : ℤ) color start e.lines) := by
  refine houtline.bind (hcolor.quietly (defaultHeight_issues.quietly ?_))
  refine (Issues.ofExcept hstart).quietly ?_
  exact (foldlM_useCaseLine_issues start e.lines).ended (Issues.pure ())

/-- The lines of a use case are drawn one below the other from their start on, and end where all that
they take up has been used. The space above them exceeds that below them by as much as what they take up
exceeds as many lines without markup, so both are equal if and only if the lines take up as much as
these. -/
theorem useCase_centered_iff (ruler : Ruler ℝ) (config : Config ℝ) (e : Element) :
    ∃ (color : Color) (outline : List (Command ℝ)) (start : ℝ),
      Issues ruler (Shape.ellipse e) () outline ∧ Issues ruler (Shape.lineColor e) color [] ∧
      useCaseTop e (plainHeight ruler config) = .ok start ∧
      (let drawn := stacked ruler config e.bounds.x (e.bounds.w : ℤ) color start e.lines
       let total := (e.lines.map (taken ruler config)).sum
       let above := start - e.bounds.y
       let below := e.bounds.y + (e.bounds.h : ℝ) - (start + total)
       Issues ruler (useCase e config) () (outline ++ drawn) ∧
         Issues ruler
           (e.lines.foldlM (useCaseLine e config color (plainHeight ruler config)) start)
           (start + total) drawn ∧
         above - below = total - e.lines.length * plainHeight ruler config ∧
         (above = below ↔ total = e.lines.length * plainHeight ruler config)) := by
  obtain ⟨color, hcolor⟩ := exists_lineColor ruler e
  obtain ⟨outline, houtline⟩ := exists_ellipse ruler e
  have hstart := useCaseTop_real e (plainHeight ruler config)
  refine ⟨color, outline, _, houtline, hcolor, hstart, useCase_issues houtline hcolor hstart,
    foldlM_useCaseLine_issues _ _, by ring, ?_⟩
  constructor
  · intro h
    linarith
  · intro h
    linarith

/-- Two lines with a separator between them. -/
def divided : Element where
  kind := "UMLUseCase".toList
  bounds := ⟨0, 0, 100, 60⟩
  lines := ["A".toList, "--".toList, "B".toList]

lemma taken_even (config : Config ℝ) (line : Text) :
    taken evenRuler config line = if isSeparator line then 7 else 14 := by
  rw [taken, plainHeight]
  change (if isSeparator line then (14 : ℝ) / 2 else 14) = _
  norm_num

/-- A separator takes up half a line only, so that nine is left above these lines and sixteen below. -/
theorem useCase_off_center :
    ∃ (config : Config ℝ) (color : Color) (outline drawn : List (Command ℝ)),
      useCaseTop divided (plainHeight evenRuler config) = .ok 9 ∧
      Issues evenRuler
        (divided.lines.foldlM (useCaseLine divided config color (plainHeight evenRuler config)) 9) 44
        drawn ∧
      Issues evenRuler (useCase divided config) () (outline ++ drawn) ∧
      ¬ (9 - (divided.bounds.y : ℝ) = divided.bounds.y + divided.bounds.h - 44) := by
  let config : Config ℝ := ⟨"serif".toList, 14, 1⟩
  obtain ⟨color, hcolor⟩ := exists_lineColor evenRuler divided
  obtain ⟨outline, houtline⟩ := exists_ellipse evenRuler divided
  have hstart : useCaseTop divided (plainHeight evenRuler config) = .ok 9 := by
    rw [useCaseTop_real]
    change Except.ok (((0 : ℤ) : ℝ) + ((60 : ℕ) : ℝ) / 2 - ((3 : ℕ) : ℝ) * 14 / 2) = _
    norm_num
  have htaken : (9 : ℝ) + (divided.lines.map (taken evenRuler config)).sum = 44 := by
    have hkinds : divided.lines.map isSeparator = [false, true, false] := by rfl
    have heven : divided.lines.map (taken evenRuler config) =
        (divided.lines.map isSeparator).map fun separates => if separates then 7 else 14 := by
      rw [List.map_map]
      exact List.map_congr_left fun line _ => taken_even config line
    rw [heven, hkinds]
    norm_num
  have hlines : Issues evenRuler (divided.lines.foldlM
      (useCaseLine divided config color (plainHeight evenRuler config)) 9) _ _ :=
    foldlM_useCaseLine_issues 9 divided.lines
  rw [htaken] at hlines
  refine ⟨config, color, outline, _, hstart, hlines, useCase_issues houtline hcolor hstart, ?_⟩
  change ¬ ((9 : ℝ) - ((0 : ℤ) : ℝ) = ((0 : ℤ) : ℝ) + ((60 : ℕ) : ℝ) - 44)
  norm_num

end UmlDrawing.Renderer
