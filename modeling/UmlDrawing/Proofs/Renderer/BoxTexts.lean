import UmlDrawing.Font.Block
import UmlDrawing.Proofs.Renderer.TextPlaces

/-! The texts of elements that are drawn as boxes. Every line that is no separator is recorded run by
run, below the heights of all lines before it, and nothing else of the drawing is a text. -/
namespace UmlDrawing

open Sketch TextLine

namespace Bounds

/-- The corners of a box, as they are drawn. -/
def corners (b : Bounds) : List (Vec Scalar) :=
  [⟨.whole b.x, .whole b.y⟩, ⟨.whole (b.x + b.w), .whole b.y⟩,
    ⟨.whole (b.x + b.w), .whole (b.y + b.h)⟩, ⟨.whole b.x, .whole (b.y + b.h)⟩]

/-- A box with position and size in the range of doubles. -/
structure InReals (b : Bounds) : Prop where
  x : b.x.natAbs ≤ Binary64.greatest
  y : b.y.natAbs ≤ Binary64.greatest
  w : b.w ≤ Binary64.greatest
  h : b.h ≤ Binary64.greatest

end Bounds

/-- An offset that a box and points with doubles for coordinates can be moved by. -/
structure Vec.Carries (offset : Vec Scalar) (b : Bounds) : Prop where
  converts : offset.Converts
  corners : ∀ v ∈ b.corners, ∃ u, offset.add v = .ok u

namespace Element

/-- The colours that an element gives to its lines and its background are in range. -/
def ColorsInRange (e : Element) : Prop :=
  ∀ key ∈ ["fg".toList, "bg".toList], ∀ value ∈ e.get? key, ∀ color,
    Color.parse value = .ok color → color.inRange = true

/-- The colour of the text of an element, as it is written. -/
def textColor (e : Element) : Except Fault Text := do
  let (color, _) ← Color.resolve (e.get? "fg".toList) (some Color.black)
  (color.getD Color.black).text

end Element

/-- The texts that are recorded of a line with some others before it: what is drawn of it, in order, and
so its plain text; centered if it belongs to a heading. -/
structure LineDrawn (g : Gauge) (font : TextStyle → FontStyle Scalar) (offset : Vec Scalar)
    (written : Text) (b : Bounds) (hasHeading : Bool) (place : List Text × Text)
    (texts : List TextCall) : Prop where
  spelled : texts.flatMap TextCall.text = Markup.Node.plainText (Markup.Node.parse place.2)
  placed : ∃ left top,
    lineLeft b.x b.w ((leaves place.2).map (leafWidth g font))
      (hasHeading && place.1.all fun line => !isSeparator line) = .ok left ∧
    lineTop b.y (place.1.map (lineHeight g font)) = .ok top ∧
    RunsDrawn g font offset written left top [] (leaves place.2) texts

variable {g : Gauge} {offset : Vec Scalar} {e : Element} {config : Config Scalar} {size : Scalar}
  {color : Color} {written : Text}

lemma TextLine.RunsDrawn.map_text {font : TextStyle → FontStyle Scalar} {left top : Scalar}
    {before after : List Markup.Leaf} {texts : List TextCall}
    (h : RunsDrawn g font offset written left top before after texts) :
    texts.map TextCall.text = after.map Markup.Leaf.literal := by
  have hcalls := congrArg (List.map fun c : Text × FontStyle Scalar × Text => c.1) h.calls
  rw [List.map_map, List.map_map] at hcalls
  exact hcalls

lemma TextLine.RunsDrawn.spelled {font : TextStyle → FontStyle Scalar} {left top : Scalar}
    {before : List Markup.Leaf} {line : Text} {texts : List TextCall}
    (h : RunsDrawn g font offset written left top before (leaves line) texts) :
    texts.flatMap TextCall.text = Markup.Node.plainText (Markup.Node.parse line) := by
  rw [Markup.Node.plainText, List.flatMap_def, h.map_text, List.flatMap_def]
  rfl

lemma exists_resolve {property : Option Text} {default : Option Color}
    (hdefault : ∀ c ∈ default, c.inRange = true)
    (hproperty : ∀ value ∈ property, ∀ c, Color.parse value = .ok c → c.inRange = true) :
    ∃ color notes, Color.resolve property default = .ok (color, notes) ∧
      ∀ c ∈ color, c.inRange = true := by
  cases property with
  | none => exact ⟨default, [], rfl, hdefault⟩
  | some value =>
    rw [Color.resolve]
    split
    · exact ⟨default, [], rfl, hdefault⟩
    · cases hparse : Color.parse value with
      | ok c =>
        refine ⟨some c, [], rfl, ?_⟩
        rintro d ⟨⟩
        exact hproperty value rfl c hparse
      | error fault =>
        obtain ⟨t, ht⟩ := Color.defaultText_isOk hdefault
        refine ⟨default, [.colorIgnored value t], ?_, hdefault⟩
        dsimp only
        rw [ht]
        rfl

lemma colorOf_records {property : Option Text} {default found : Option Color} {notes : List Note}
    (h : Color.resolve property default = .ok (found, notes)) :
    Records g offset (Shape.colorOf property default) found [] :=
  (Records.ofExcept h).quietly ((Records.report notes).quietly (Records.pure found))

/-- The colour of lines and text can be written if it is in range. -/
lemma lineColor_records (g : Gauge) (offset : Vec Scalar) (hcolors : e.ColorsInRange) :
    ∃ color written, e.textColor = .ok written ∧ color.text = .ok written ∧
      Records g offset (Shape.lineColor e) color [] := by
  have hblack : ∀ c ∈ some Color.black, c.inRange = true := by
    rintro c ⟨⟩
    rfl
  obtain ⟨found, notes, hresolve, hrange⟩ :=
    exists_resolve hblack (hcolors _ (List.mem_cons_self ..))
  have hcolor : (found.getD Color.black).inRange = true := by
    cases found with
    | none => rfl
    | some c => exact hrange c rfl
  obtain ⟨written, hwritten⟩ := (Color.text_isOk_iff _).2 hcolor
  refine ⟨_, written, ?_, hwritten, (colorOf_records hresolve).quietly (Records.pure _)⟩
  rw [Element.textColor, hresolve]
  exact hwritten

lemma fill_records (hcolors : e.ColorsInRange) : Records g offset (Shape.fill e) () [] := by
  have hnone : ∀ c ∈ (none : Option Color), c.inRange = true := fun c hc => by cases hc
  obtain ⟨found, notes, hresolve, hrange⟩ :=
    exists_resolve hnone (hcolors "bg".toList (by simp))
  refine (colorOf_records hresolve).quietly ?_
  cases found with
  | none => exact Records.pure ()
  | some c =>
    dsimp only
    split
    · exact Records.report _
    · exact Records.fill (hrange c rfl) _

/-- The box itself is no text. -/
lemma box_records (hcolors : e.ColorsInRange) (hoffset : offset.Carries e.bounds) :
    Records g offset (Shape.box e) () [] := by
  obtain ⟨color, written, -, hwritten, hlineColor⟩ := lineColor_records g offset hcolors
  have hcolor : color.inRange = true := (Color.text_isOk_iff color).1 ⟨written, hwritten⟩
  refine Records.beginPath.quietly ?_
  refine (Records.rect (Scalar.add_whole _ _) (Scalar.add_whole _ _) hoffset.corners).quietly ?_
  refine (fill_records hcolors).quietly ?_
  exact (hlineColor.quietly (Records.stroke hcolor _)).quietly Records.clip

/-- A separator is no text. -/
lemma separator_records (hoffset : offset.Carries e.bounds) (hcolor : color.inRange = true)
    {y : Scalar} (hy : y.Converts) :
    Records g offset (Shape.separator (.whole e.bounds.x) y (.whole e.bounds.w) color) () [] := by
  obtain ⟨u, hu⟩ := hoffset.corners _ (List.mem_cons_self ..)
  obtain ⟨v, hv⟩ := hoffset.corners ⟨.whole (e.bounds.x + e.bounds.w), .whole e.bounds.y⟩
    (by simp [Bounds.corners])
  have hpoint {x : Scalar} (hx : ∃ c, Scalar.add offset.x x = .ok c) :
      ∃ u, offset.add ⟨x, y⟩ = .ok u :=
    Vec.exists_add hx (Scalar.exists_add hoffset.converts.2 hy)
  refine Records.beginPath.quietly ?_
  refine (Records.moveTo (hpoint (Vec.exists_of_add hu).1)).quietly ?_
  refine (Records.ofExcept (Scalar.add_whole e.bounds.x e.bounds.w)).quietly ?_
  refine (Records.lineTo (hpoint (Vec.exists_of_add hv).1)).quietly ?_
  exact Records.stroke hcolor []

/-- Below any number of lines there is a place for the next one. -/
lemma exists_lineTop {y : Int} (hy : y.natAbs ≤ Binary64.greatest) (heights : List Float) :
    ∃ bottom top, Scalar.sumFrom (.whole y) heights = .ok bottom ∧ bottom.Converts ∧
      Scalar.add bottom (.whole padding) = .ok top ∧ lineTop y heights = .ok top ∧ top.Converts := by
  cases heights with
  | nil =>
    exact ⟨.whole y, .whole (y + 2), rfl, Scalar.converts_whole (Binary64.exists_ofInt? hy), rfl, rfl,
      Scalar.converts_whole (Binary64.exists_ofInt?_add_two hy)⟩
  | cons first rest =>
    obtain ⟨z, hz⟩ := Scalar.exists_sumFrom
      (Scalar.converts_whole (Binary64.exists_ofInt? hy)) (List.cons_ne_nil first rest)
    have htwo : Scalar.toFloat (.whole padding) = .ok 2.0 := by rfl
    have htop := Scalar.real_add z htwo
    refine ⟨.real z, .real (z + 2.0), hz, Scalar.converts_real z, htop, ?_, Scalar.converts_real _⟩
    rw [lineTop, hz, ok_bind, htop]

/-- The lines after some others are recorded where the heights of those leave off. -/
lemma foldlM_compartmentLine_records (hsize : config.effectiveSize = .ok size)
    (hoffset : offset.Carries e.bounds) (hbounds : e.bounds.InReals)
    (hwritten : color.text = .ok written) (hasHeading : Bool) (before after : List Text)
    {bottom : Scalar}
    (hbottom : Scalar.sumFrom (.whole e.bounds.y) (before.map (lineHeight g (fontAt config size))) =
      .ok bottom) :
    ∃ state groups, Records g offset
        (after.foldlM (Renderer.compartmentLine e config color
          (.real (g.height (fontAt config size {}) / 2.0)))
          ⟨bottom, hasHeading && before.all fun line => !isSeparator line⟩) state groups.flatten ∧
      List.Forall₂ (LineDrawn g (fontAt config size) offset written e.bounds hasHeading)
        ((withBefore before after).filter fun place => !isSeparator place.2) groups := by
  have hcolor : color.inRange = true := (Color.text_isOk_iff color).1 ⟨written, hwritten⟩
  -- the state after a line is the sum of the heights so far, and whether a separator was among them
  induction after generalizing before bottom with
  | nil => exact ⟨_, [], Records.pure _, .nil⟩
  | cons line after ih =>
    obtain ⟨bottom', top, hbottom', hconverts, htop, hlineTop, htopConverts⟩ :=
      exists_lineTop hbounds.y (before.map (lineHeight g (fontAt config size)))
    obtain rfl : bottom' = bottom := Except.ok.inj (hbottom'.symm.trans hbottom)
    obtain ⟨a, ha⟩ := hconverts
    have hadd := Scalar.add_real ha (lineHeight g (fontAt config size) line)
    have hnext : Scalar.sumFrom (.whole e.bounds.y)
        ((before ++ [line]).map (lineHeight g (fontAt config size))) =
        .ok (.real (a + lineHeight g (fontAt config size) line)) := by
      rw [List.map_append, List.map_singleton, Scalar.sumFrom_concat hbottom, hadd]
    obtain ⟨state, groups, hrecords, hdrawn⟩ := ih (before ++ [line]) hnext
    rw [List.all_append, List.all_cons, List.all_nil, Bool.and_true, ← Bool.and_assoc] at hrecords
    cases hline : isSeparator line with
    | true =>
      have hheight : lineHeight g (fontAt config size) line =
          g.height (fontAt config size {}) / 2.0 := by
        rw [lineHeight, if_pos hline]
      refine ⟨state, groups, ?_, ?_⟩
      · rw [List.foldlM_cons]
        refine Records.quietly (b := ⟨.real (a + lineHeight g (fontAt config size) line), false⟩) ?_ ?_
        · rw [Renderer.compartmentLine, if_pos hline]
          rw [hheight] at hadd ⊢
          refine (Records.ofExcept hadd).quietly ?_
          exact (separator_records hoffset hcolor (Scalar.converts_real _)).quietly (Records.pure _)
        · rw [hline, Bool.not_true, Bool.and_false] at hrecords
          exact hrecords
      · rw [withBefore, List.filter_cons_of_neg (by simp [hline])]
        exact hdrawn
    | false =>
      have hnot : ¬ isSeparator line = true := by
        rw [hline]
        exact Bool.false_ne_true
      obtain ⟨left, texts, hdraw, hlineLeft, hruns⟩ := draw_records (g := g) hsize hoffset.converts
        hwritten hline hbounds.x hbounds.w htop htopConverts
        (hasHeading && before.all fun line => !isSeparator line)
      refine ⟨state, texts :: groups, ?_, ?_⟩
      · rw [List.foldlM_cons, List.flatten_cons]
        refine Records.bind (b := ⟨.real (a + lineHeight g (fontAt config size) line),
          hasHeading && before.all fun line => !isSeparator line⟩) ?_ ?_
        · rw [Renderer.compartmentLine, if_neg hnot]
          exact hdraw.ended ((Records.ofExcept hadd).quietly (Records.pure _))
        · rw [hline, Bool.not_false, Bool.and_true] at hrecords
          exact hrecords
      · rw [withBefore, List.filter_cons_of_pos (by simp [hline])]
        exact .cons ⟨hruns.spelled, left, top, hlineLeft, hlineTop, hruns⟩ hdrawn

/-- The lines of a box are recorded one below the other. -/
lemma compartments_records (hsize : config.effectiveSize = .ok size)
    (hoffset : offset.Carries e.bounds) (hbounds : e.bounds.InReals) (hcolors : e.ColorsInRange)
    (hasHeading : Bool) :
    ∃ written groups, e.textColor = .ok written ∧
      Records g offset (Renderer.compartments e config hasHeading) () groups.flatten ∧
      List.Forall₂ (LineDrawn g (fontAt config size) offset written e.bounds hasHeading)
        ((withBefore [] e.lines).filter fun place => !isSeparator place.2) groups := by
  obtain ⟨color, written, htextColor, hwritten, hlineColor⟩ :=
    lineColor_records g offset hcolors
  obtain ⟨state, groups, hrecords, hdrawn⟩ := foldlM_compartmentLine_records (g := g) hsize hoffset
    hbounds hwritten hasHeading [] e.lines rfl
  rw [List.all_nil, Bool.and_true] at hrecords
  refine ⟨written, groups, htextColor, ?_, hdrawn⟩
  refine hlineColor.quietly ?_
  refine Records.quietly ((Records.ofExcept (font_eq hsize {})).quietly (Records.height _)) ?_
  exact (Records.ofExcept (Scalar.half_real _)).quietly (hrecords.ended (Records.pure ()))

/-- The kinds of elements that are drawn as boxes. -/
def boxKinds : List Text :=
  ["Default".toList, "UMLObject".toList, "UMLClass".toList, "UMLGeneric".toList]

/-- All boxes have a heading, except those of the default kind. -/
lemma find_of_boxKinds (config : Config Scalar) (hkind : e.kind ∈ boxKinds) :
    ∃ r, (BuiltinRenderer.registry.find e.kind).1 = .ok r ∧
      r.draw e config = (do
        Shape.box e
        Renderer.compartments e config (decide (e.kind ≠ Element.defaultKind)) :
          Sketch Scalar Unit) := by
  simp only [boxKinds, List.mem_cons, List.not_mem_nil, or_false] at hkind
  obtain hkind | hkind | hkind | hkind := hkind
  · exact ⟨.plain, by rw [hkind]; rfl, by rw [hkind]; rfl⟩
  all_goals exact ⟨.classifier, by rw [hkind]; rfl, by rw [hkind]; rfl⟩

/-- A box whose colours and bounds are in range is drawn to the end, and the texts that are recorded of it
are those of its lines that are no separators, line by line. This is so for every gauge that answers
the questions of the drawing, and for all metrics that answer like it. -/
theorem box_texts (g : Gauge) (e : Element) (config : Config Scalar) {size : Scalar}
    (hsize : config.effectiveSize = .ok size) (hkind : e.kind ∈ boxKinds)
    (hcolors : e.ColorsInRange) (hbounds : e.bounds.InReals) {base : Nat}
    {s : Studio Recording Unit Unit} {x : Surface Recording Unit} (hx : s.surfaces[base]? = some x)
    (hoffset : x.pen.offset.Carries e.bounds) :
    ∃ r written groups calls y, (BuiltinRenderer.registry.find e.kind).1 = .ok r ∧
      (∃ t, ((r.draw e config).answered g).play base s = .ok () t ∧ t.surfaces[base]? = some y) ∧
      (∀ keep : Metrics → Prop, g.Tells (r.draw e config).Poses keep → keep s.metrics →
        ∃ t, (r.draw e config).play base s = .ok () t ∧ t.surfaces[base]? = some y) ∧
      y.content.calls = x.content.calls ++ calls ∧
      calls.filterMap Call.textCall? = groups.flatten ∧ e.textColor = .ok written ∧
      List.Forall₂
        (LineDrawn g (fontAt config size) x.pen.offset written e.bounds
          (decide (e.kind ≠ Element.defaultKind)))
        ((withBefore [] e.lines).filter fun place => !isSeparator place.2) groups := by
  obtain ⟨r, hr, hdraw⟩ := find_of_boxKinds config hkind
  obtain ⟨written, groups, hwritten, hrecords, hdrawn⟩ := compartments_records (g := g) hsize hoffset
    hbounds hcolors (decide (e.kind ≠ Element.defaultKind))
  have hall : Records g x.pen.offset (r.draw e config) () groups.flatten := by
    rw [hdraw]
    exact (box_records hcolors hoffset).quietly hrecords
  obtain ⟨t, y, calls, hplay, hy, -, hcalls, htexts⟩ := hall base s x hx rfl
  refine ⟨r, written, groups, calls, y, hr, ⟨t, hplay, hy⟩, ?_, hcalls, htexts, hwritten, hdrawn⟩
  intro keep htells hkeep
  have htwins : Studio.Twins (fun m n => keep m ∧ keep n) s s := .intro (n := s.metrics) ⟨hkeep, hkeep⟩
  have hwritten (c : Command Scalar) : c.setFont? Recording = none := by cases c <;> rfl
  have halike := htwins.play_answered hwritten htells base (r.draw e config) fun _ hq => hq
  rw [hplay] at halike
  generalize (r.draw e config).play base s = result at halike
  cases halike with
  | ok b h =>
    obtain ⟨_⟩ := h
    exact ⟨_, rfl, hy⟩

/-- A gauge of equal widths for all characters. -/
def evenGauge : Gauge where
  width t _ := 7.0 * t.length.toFloat
  height font := if font.bold then 25.0 else 24.5

/-- A class with a heading, a separator and a line that begins with bold text. -/
def classBox : Element where
  kind := "UMLClass".toList
  bounds := ⟨0, 0, 100, 80⟩
  lines := ["Title".toList, "--".toList, "*a* b".toList]

theorem box_texts_class :
    let s : Studio Recording Unit Unit :=
      { shared := (), metrics := { installed := .blocks [] },
        surfaces := [{ size := ⟨.whole 100, .whole 80⟩, content := ⟨[]⟩ }] }
    classBox.kind ∈ boxKinds ∧ classBox.ColorsInRange ∧ classBox.bounds.InReals ∧
      Config.standard.effectiveSize = .ok (.real 14.0) ∧
      ∃ t y, ((Renderer.classifier classBox Config.standard).answered evenGauge).play 0 s = .ok () t ∧
        t.surfaces[0]? = some y ∧
        (y.content.calls.filterMap Call.textCall?).map TextCall.text =
          ["Title".toList, "a".toList, " b".toList] := by
  intro s
  have hcolors : classBox.ColorsInRange := by
    intro key _ value hvalue
    cases hvalue
  have hbounds : classBox.bounds.InReals := by
    constructor <;> decide +kernel
  have hsize : Config.standard.effectiveSize = .ok (.real 14.0) := by rfl
  have hkind : classBox.kind ∈ boxKinds := by decide
  have hoffset : (Vec.origin : Vec Scalar).Carries classBox.bounds := by
    refine ⟨⟨⟨0.0, by rfl⟩, ⟨0.0, by rfl⟩⟩, ?_⟩
    simp only [Bounds.corners, List.forall_mem_cons]
    exact ⟨⟨_, rfl⟩, ⟨_, rfl⟩, ⟨_, rfl⟩, ⟨_, rfl⟩, fun v hv => absurd hv List.not_mem_nil⟩
  obtain ⟨r, written, groups, calls, y, hr, ⟨t, hplay, hy⟩, -, hcalls, htexts, -, hdrawn⟩ :=
    box_texts evenGauge classBox .standard hsize hkind hcolors hbounds
      (show s.surfaces[0]? = some _ from rfl) hoffset
  obtain rfl : BuiltinRenderer.classifier = r := Except.ok.inj hr
  refine ⟨hkind, hcolors, hbounds, hsize, t, y, hplay, hy, ?_⟩
  have hplaces : ((withBefore [] classBox.lines).filter fun place => !isSeparator place.2) =
      [([], "Title".toList), (["Title".toList, "--".toList], "*a* b".toList)] := by rfl
  have htitle : (leaves "Title".toList).map Markup.Leaf.literal = ["Title".toList] := by
    decide +kernel
  have hbold : (leaves "*a* b".toList).map Markup.Leaf.literal = ["a".toList, " b".toList] := by
    decide +kernel
  rw [hplaces] at hdrawn
  obtain _ | ⟨⟨-, _, _, -, -, hfirst⟩, _ | ⟨⟨-, _, _, -, -, hsecond⟩, _ | _⟩⟩ := hdrawn
  rw [hcalls, List.nil_append, htexts, List.flatten_cons, List.flatten_cons, List.flatten_nil,
    List.append_nil, List.map_append, hfirst.map_text, hsecond.map_text, htitle, hbold]
  rfl

end UmlDrawing
