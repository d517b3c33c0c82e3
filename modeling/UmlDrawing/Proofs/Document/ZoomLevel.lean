import UmlDrawing.Document.Diagram
import UmlDrawing.Proofs.Numeral.Tenth

/-! The zoom level of a diagram is positive, unless a text names the double that is no number: this
one is neither above zero nor below, so it is not replaced. The zoom is a tenth of the level, and so
it is zero for the few least levels. -/
namespace UmlDrawing

namespace Numeral

open Binary64

/-- Whether a text, its blanks and its sign aside, names the double that is no number. -/
def NamesNaN (t : Text) : Prop :=
  (cutSign (trimPadding (Text.trim t))).2.map Char.toLower = "nan".toList

instance : DecidablePred NamesNaN := fun _ => inferInstanceAs (Decidable (_ = _))

lemma value_nearest_ne_nan (negative : Bool) (n : Nat) (power : Int) :
    value (nearest negative n power) ≠ .nan := by
  unfold nearest
  dsimp only
  split
  · exact value_ofRatio_ne_nan _ _ _
  · split
    · exact value_ofRatio_ne_nan _ _ _
    · cases power
      · exact value_ofRatio_ne_nan _ _ _
      · exact value_ofRatio_ne_nan _ _ _

/-- A text gives the double that is no number only by its name. -/
lemma value_eq_nan_iff {t : Text} {x : Float} (h : parseReal? (Text.trim t) = some x) :
    value x = .nan ↔ NamesNaN t := by
  unfold parseReal? at h
  unfold NamesNaN
  generalize cutSign (trimPadding (Text.trim t)) = cut at h ⊢
  obtain ⟨negative, r⟩ := cut
  dsimp only at h ⊢
  unfold parseUnsigned? at h
  dsimp only at h
  split at h
  · next hname =>
    have hne : r.map Char.toLower ≠ "nan".toList := by
      obtain hname | hname := hname <;> rw [hname] <;> decide
    cases h
    refine iff_of_false ?_ hne
    cases negative <;> decide
  · split at h
    · next hnan =>
      cases h
      exact iff_of_true (by decide) hnan
    · next hnan =>
      refine iff_of_false ?_ hnan
      obtain ⟨n, power, rfl⟩ : ∃ n power, x = nearest negative n power := by
        -- with digits after the point or without
        split at h
        all_goals
          split at h
          · cases h
          · obtain ⟨power, -, rfl⟩ := Option.map_eq_some_iff.1 h
            exact ⟨_, _, rfl⟩
      exact value_nearest_ne_nan _ _ _

lemma parseReal?_of_namesNaN {t : Text} (h : NamesNaN t) :
    parseReal? (Text.trim t) = some (Float.ofBits 0x7FF8000000000000) := by
  unfold NamesNaN at h
  unfold parseReal?
  generalize cutSign (trimPadding (Text.trim t)) = cut at h ⊢
  obtain ⟨negative, r⟩ := cut
  dsimp only at h ⊢
  rw [parseUnsigned?, h]
  rfl

end Numeral

namespace Document

open Binary64
open Numeral (NamesNaN parseReal?)
open Xml (Node)

lemma zoomLevelOf_cases (t : Text) : (zoomLevelOf t).1 = defaultZoomLevel ∨
    parseReal? (Text.trim t) = some (zoomLevelOf t).1 := by
  unfold zoomLevelOf Numeral.parseRealOr
  cases parseReal? (Text.trim t) with
  | none =>
    dsimp only [Option.getD_none]
    rw [if_neg (by decide)]
    exact .inl rfl
  | some x =>
    dsimp only [Option.getD_some]
    split
    · exact .inl rfl
    · exact .inr rfl

lemma zoomLevelOf_of_pos {t : Text} {x : Float} (h : parseReal? (Text.trim t) = some x)
    (hx : 0.0 < x) : (zoomLevelOf t).1 = x := by
  have hle : ¬ x ≤ 0.0 := by
    intro hle
    obtain ⟨p, q, hp, hq, hpq⟩ := (lt_iff_exact _ _).1 hx
    obtain ⟨q', p', hq', hp', hqp⟩ := (le_iff_exact _ _).1 hle
    rw [hp] at hp'
    rw [hq] at hq'
    cases hp'
    cases hq'
    exact absurd hpq hqp.not_gt
  simp only [zoomLevelOf, Numeral.parseRealOr, h, Option.getD_some]
  rw [if_neg hle]

/-- A zoom level that a text gives is positive unless the text names the double that is no number. -/
theorem zoomLevelOf_pos_iff (t : Text) : (0.0 : Float) < (zoomLevelOf t).1 ↔ ¬ NamesNaN t := by
  have hzero : value (0.0 : Float) ≠ .nan := by decide
  have hdefault : (0.0 : Float) < defaultZoomLevel := by decide
  constructor
  · intro hlt hnames
    have hparse := Numeral.parseReal?_of_namesNaN hnames
    have hnan := (Numeral.value_eq_nan_iff hparse).2 hnames
    simp only [zoomLevelOf, Numeral.parseRealOr, hparse, Option.getD_some] at hlt
    rw [if_neg (by decide)] at hlt
    exact absurd hlt (by decide)
  · intro hnot
    unfold zoomLevelOf Numeral.parseRealOr
    cases h : parseReal? (Text.trim t) with
    | none => exact hdefault
    | some x =>
      dsimp only [Option.getD_some]
      split
      · exact hdefault
      · next hle => exact (not_le_iff_lt (fun hx => hnot ((Numeral.value_eq_nan_iff h).1 hx)) hzero).1 hle

/-- The zoom level comes from the first text that gives one. -/
lemma zoomLevel_of_readDiagram {n : Node} {d : Diagram} (h : (readDiagram n).1 = .ok d) :
    ∃ level, d.zoomLevel = .real level ∧
      ((∃ z, find? "zoom_level" (descendants n) = .ok (some z) ∧
        level = (zoomLevelOf z.textContent).1) ∨
      (find? "zoom_level" (descendants n) = .ok none ∧ level = defaultZoomLevel)) := by
  unfold readDiagram at h
  dsimp only at h
  split at h
  · cases h
  · next level notes hread =>
    refine ⟨level, ?_, ?_⟩
    · split at h
      · cases h
        rfl
      · cases h
    · unfold readZoomLevel at hread
      cases hfind : find? "zoom_level" (descendants n) with
      | error fault =>
        rw [hfind] at hread
        cases hread
      | ok found =>
        rw [hfind] at hread
        cases found with
        | none =>
          cases hread
          exact .inr ⟨rfl, rfl⟩
        | some z =>
          obtain hpair : zoomLevelOf z.textContent = (level, notes) := Except.ok.inj hread
          exact .inl ⟨z, rfl, by rw [hpair]⟩

end Document

namespace Config

open Binary64

lemma ofZoomLevel_real (level : Float) :
    ofZoomLevel (.real level) = .ok { standard with zoom := .real (level / 10.0) } := by
  have hten : Scalar.toFloat (.whole 10) = .ok 10.0 := by rfl
  have hne : ((10.0 : Float) == 0.0) = false := by decide
  have hdiv : Scalar.div (.real level) (.whole 10) = .ok (.real (level / 10.0)) := by
    simp only [Scalar.div, hten]
    change (if ((10.0 : Float) == 0.0) = true then Except.error Fault.divisionByZero
      else Except.ok (Scalar.real (level / 10.0))) = _
    rw [hne]
    rfl
  rw [ofZoomLevel, hdiv]
  rfl

lemma zoom_withHelpText {c c' : Config Scalar} {help : Text} {notes : List Note}
    (h : c.withHelpText help = .ok (c', notes)) : c'.zoom = c.zoom := by
  unfold withHelpText at h
  dsimp only at h
  split at h
  · cases h
    rfl
  · next value _ =>
    cases hsize : Numeral.parseLeading value (-1) with
    | error fault =>
      rw [hsize] at h
      cases h
    | ok size =>
      rw [hsize] at h
      change (if 0 < size then _ else _) = _ at h
      split at h <;> cases h <;> rfl

end Config

namespace Document

open Binary64
open Numeral (NamesNaN parseReal?)
open Xml (Node)

/-- Whether the zoom level of a diagram is given by the name of the double that is no number. -/
def ZoomNamesNaN (n : Node) : Prop :=
  ∃ z, find? "zoom_level" (descendants n) = .ok (some z) ∧ NamesNaN z.textContent

/-- The zoom level of a diagram is positive unless its text names the double that is no number, and so
is the zoom, which is a tenth of it, unless the level is one of the five least doubles. A text that
denotes a positive number gives this number, and any other text the default. -/
theorem readDiagram_zoom {n : Node} {d : Diagram} (h : (readDiagram n).1 = .ok d) :
    ∃ level zoom, d.zoomLevel = .real level ∧
      (∃ c, Config.ofZoomLevel d.zoomLevel = .ok c ∧ c.zoom = .real zoom) ∧
      (∀ c notes, d.config = .ok (c, notes) → c.zoom = .real zoom) ∧
      ((0.0 : Float) < level ↔ ¬ ZoomNamesNaN n) ∧
      ((0.0 : Float) < zoom ↔ Float.ofBits 5 < level) ∧
      (level = defaultZoomLevel ∨ ∃ z, find? "zoom_level" (descendants n) = .ok (some z) ∧
        parseReal? (Text.trim z.textContent) = some level) ∧
      (∀ z x, find? "zoom_level" (descendants n) = .ok (some z) →
        parseReal? (Text.trim z.textContent) = some x → 0.0 < x → level = x) := by
  obtain ⟨level, hlevel, hcases⟩ := zoomLevel_of_readDiagram h
  have hconfig := Config.ofZoomLevel_real level
  refine ⟨level, level / 10.0, hlevel, ?_, ?_, ?_, tenth_pos_iff level, ?_⟩
  · rw [hlevel]
    exact ⟨_, hconfig, rfl⟩
  · intro c notes hc
    unfold Diagram.config at hc
    rw [hlevel, hconfig] at hc
    exact Config.zoom_withHelpText hc
  all_goals obtain ⟨z, hz, rfl⟩ | ⟨hnone, rfl⟩ := hcases
  · rw [zoomLevelOf_pos_iff]
    refine not_congr ⟨fun hnames => ⟨z, hz, hnames⟩, ?_⟩
    rintro ⟨z', hz', hnames⟩
    rw [hz] at hz'
    cases hz'
    exact hnames
  · refine iff_of_true (by decide) ?_
    rintro ⟨z, hz, -⟩
    rw [hnone] at hz
    cases hz
  · constructor
    · exact (zoomLevelOf_cases z.textContent).imp_right fun hparse => ⟨z, hz, hparse⟩
    · intro z' x hz' hx hpos
      rw [hz] at hz'
      cases hz'
      exact zoomLevelOf_of_pos hx hpos
  · refine ⟨.inl rfl, fun z x hz => ?_⟩
    rw [hnone] at hz
    cases hz

/-- A diagram with a text for its zoom level and nothing else. -/
def zoomed (t : String) : Node :=
  .element "diagram".toList [] [.element "zoom_level".toList [] [.text t.toList]]

lemma readDiagram_zoomed (t : String) :
    (readDiagram (zoomed t)).1 = .ok ⟨.real (zoomLevelOf t.toList).1, [], []⟩ := by
  have hfind : find? "zoom_level" (descendants (zoomed t)) =
      .ok (some (.element "zoom_level".toList [] [.text t.toList])) := by rfl
  have htext : (Node.element "zoom_level".toList [] [.text t.toList]).textContent = t.toList := by
    simp [Node.textContent, Node.textOf]
  have hcontent : readContent (descendants (zoomed t)) = .ok ([], []) := by rfl
  have hlevel : readZoomLevel (descendants (zoomed t)) = .ok (zoomLevelOf t.toList) := by
    rw [readZoomLevel, hfind]
    change Except.ok _ = _
    rw [htext]
  simp only [readDiagram, hlevel, hcontent]

lemma config_zoomed (level : Float) : (Diagram.mk (.real level) [] []).config =
    .ok ({ Config.standard with zoom := .real (level / 10.0) }, []) := by
  rw [Diagram.config, Config.ofZoomLevel_real]
  rfl

theorem readDiagram_zoom_of_infinite :
    (readDiagram (zoomed "-inf")).1 = .ok ⟨.real 10.0, [], []⟩ ∧ ¬ ZoomNamesNaN (zoomed "-inf") := by
  have hread : (readDiagram (zoomed "-inf")).1 = .ok ⟨.real 10.0, [], []⟩ := by rfl
  obtain ⟨level, zoom, hlevel, -, -, hpos, -⟩ := readDiagram_zoom hread
  cases hlevel
  exact ⟨hread, hpos.1 (by decide)⟩

lemma zoomLevelOf_tiny : (zoomLevelOf "1e-323".toList).1 = Numeral.nearest false 1 (-323) := by
  have htrim : Text.trim "1e-323".toList = "1e-323".toList := by rfl
  refine zoomLevelOf_of_pos ?_ (by decide +kernel)
  rw [htrim]
  simp [parseReal?, Numeral.parseUnsigned?, Numeral.trimPadding, Numeral.isPadding,
    Numeral.cutSign, Numeral.cutDigits, Numeral.parsePower?, Text.digitValue?]
  rfl

/-- A zoom level that is no number stays, and then neither level nor zoom is positive. A level that is
too small for its tenth has zoom zero. -/
theorem readDiagram_zoom_not_pos :
    (∃ d x c, (readDiagram (zoomed "nan")).1 = .ok d ∧ d.zoomLevel = .real x ∧
      ¬ (0.0 : Float) < x ∧ d.config = .ok (c, []) ∧ ¬ Scalar.lt (.whole 0) c.zoom = true) ∧
    ∃ d x c, (readDiagram (zoomed "1e-323")).1 = .ok d ∧ d.zoomLevel = .real x ∧
      (0.0 : Float) < x ∧ d.config = .ok (c, []) ∧ ¬ Scalar.lt (.whole 0) c.zoom = true := by
  have htiny := readDiagram_zoomed "1e-323"
  rw [zoomLevelOf_tiny] at htiny
  refine ⟨⟨_, _, _, readDiagram_zoomed "nan", rfl, ?_, config_zoomed _, ?_⟩,
    ⟨_, _, _, htiny, rfl, ?_, config_zoomed _, ?_⟩⟩
  all_goals decide +kernel

end Document

end UmlDrawing
