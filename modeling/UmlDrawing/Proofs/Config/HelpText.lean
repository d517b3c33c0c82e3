import UmlDrawing.Config
import UmlDrawing.Proofs.Element.Attributes
import UmlDrawing.Proofs.Numeral.Leading
import UmlDrawing.Proofs.Text.Split

/-! What a help text does to the settings of a diagram. It has two settings, the family and the size
of the font. The last line about either of them decides, even where it says nothing that is
understood; then the former setting stays, not what an earlier line says. -/
namespace UmlDrawing

namespace HelpText

/-- Whether a line gives a value to a key: its first `=` has the key before it, blanks aside, and the
value after it. -/
def Gives (line key value : Text) : Prop :=
  ∃ before, '=' ∉ before ∧ line = before ++ '=' :: value ∧ Text.trim before = key

/-- Whether a value is given by the last line about its key. -/
def LastGives (help key value : Text) : Prop :=
  ∃ before line after, Text.splitOn '\n' help = before ++ line :: after ∧ Gives line key value ∧
    ∀ later ∈ after, ∀ other, ¬ Gives later key other

/-- The keys that are understood. -/
def keys : List Text := ["fontfamily".toList, "fontsize".toList]

/-- Whether a help text sets the family of the font to a generic one. -/
def SetsFamily (help generic : Text) : Prop :=
  ∃ value, LastGives help "fontfamily".toList value ∧
    ("SansSerif".toList <+: Text.trim value ∧ generic = "sans-serif".toList ∨
      "Monospaced".toList <+: Text.trim value ∧ generic = "monospace".toList)

/-- Whether a help text sets the size of the font. -/
def SetsSize (help : Text) (n : Int) : Prop :=
  ∃ value, LastGives help "fontsize".toList value ∧ Numeral.BeginsWith value n ∧ 0 < n

/-- Whether the size that a help text gives has no more digits than are read. -/
def HasReadableSize (help : Text) : Prop :=
  ∀ value negative digits, LastGives help "fontsize".toList value →
    Numeral.leading? value = some (negative, digits) → digits.length ≤ 4300

/-- Whether a line gives a value to one of the keys that are understood, and no later line does. -/
def Decides (line : Text) (after : List Text) : Prop :=
  ∃ key ∈ keys, (∃ value, Gives line key value) ∧ ∀ later ∈ after, ∀ other, ¬ Gives later key other

variable {help line key value generic : Text}

lemma helpProperty?_eq_some_iff :
    AttributeBlock.helpProperty? line = some (key, value) ↔ Gives line key value := by
  simp only [AttributeBlock.helpProperty?, Option.map_eq_some_iff, Prod.exists, Prod.mk.injEq,
    Text.cut?_eq_some_iff]
  constructor
  · rintro ⟨before, after, ⟨hnot, rfl⟩, rfl, rfl⟩
    exact ⟨before, hnot, rfl, rfl⟩
  · rintro ⟨before, hnot, rfl, rfl⟩
    exact ⟨before, value, ⟨hnot, rfl⟩, rfl, rfl⟩

/-- The properties of a help text are what its last lines give. -/
lemma get?_parseHelp_eq_some_iff :
    (Attributes.parseHelp help).get? key = some value ↔ LastGives help key value := by
  have hvalue := AttributeBlock.get?_properties_eq_some_iff AttributeBlock.helpProperty? help key value
  simp only [ne_eq, helpProperty?_eq_some_iff] at hvalue
  exact hvalue

lemma get?_parseHelp_eq_none_iff :
    (Attributes.parseHelp help).get? key = none ↔ ∀ value, ¬ LastGives help key value := by
  simp only [Option.eq_none_iff_forall_ne_some, ne_eq, get?_parseHelp_eq_some_iff]

/-- The generic family that a help text sets, if it sets one. -/
def family? (help : Text) : Option Text :=
  ((Attributes.parseHelp help).get? "fontfamily".toList).bind Config.genericFamily?

/-- The size that a help text sets, if it sets one, and what there is to report. -/
def size? (help : Text) : Except Fault (Option Int × List Note) :=
  match (Attributes.parseHelp help).get? "fontsize".toList with
  | none => .ok (none, [])
  | some value => do
    let n ← Numeral.parseLeading value (-1)
    pure (if 0 < n then (some n, []) else (none, [.fontSizeIgnored value]))

lemma genericFamily?_eq_some_iff : Config.genericFamily? value = some generic ↔
    "SansSerif".toList <+: Text.trim value ∧ generic = "sans-serif".toList ∨
      "Monospaced".toList <+: Text.trim value ∧ generic = "monospace".toList := by
  have hfind : Config.genericFamily? value =
      if Text.startsWith (Text.trim value) "SansSerif".toList then some "sans-serif".toList
      else if Text.startsWith (Text.trim value) "Monospaced".toList then some "monospace".toList
      else none := by
    simp only [Config.genericFamily?, Config.familyPrefixes, List.find?_cons, List.find?_nil]
    cases Text.startsWith (Text.trim value) "SansSerif".toList
    · cases Text.startsWith (Text.trim value) "Monospaced".toList <;> rfl
    · rfl
  have hapart (h : "SansSerif".toList <+: Text.trim value) :
      ¬ "Monospaced".toList <+: Text.trim value := fun h' =>
    absurd (List.prefix_of_prefix_length_le h h' (by decide)) (by decide)
  simp only [hfind, Text.startsWith_iff, eq_comm (a := generic)]
  split_ifs with hsans hmono
  · simp only [hsans, hapart hsans, true_and, false_and, or_false, Option.some.injEq]
  · simp only [hsans, hmono, true_and, false_and, false_or, Option.some.injEq]
  · simp only [hsans, hmono, false_and, or_false]

lemma family?_eq_some_iff : family? help = some generic ↔ SetsFamily help generic := by
  simp only [family?, Option.bind_eq_some_iff, get?_parseHelp_eq_some_iff,
    genericFamily?_eq_some_iff, SetsFamily]

/-- The size that is set is the positive integer that the last value begins with. -/
lemma setsSize_iff {size : Option Int} {notes : List Note} (h : size? help = .ok (size, notes))
    (n : Int) : size = some n ↔ SetsSize help n := by
  unfold size? at h
  unfold SetsSize
  split at h
  · next hnone =>
    cases h
    simp only [get?_parseHelp_eq_none_iff.1 hnone, false_and, exists_const, reduceCtorEq]
  · next value hvalue =>
    have hlast (other : Text) : LastGives help "fontsize".toList other ↔ value = other := by
      rw [← get?_parseHelp_eq_some_iff, hvalue, Option.some.injEq]
    obtain ⟨m, hm, h⟩ := bind_eq_ok_iff.1 h
    simp only [hlast, exists_eq_left']
    obtain hbegins | ⟨hnone, rfl⟩ := Numeral.of_parseLeading hm
    · have hunique : Numeral.BeginsWith value n ↔ m = n :=
        ⟨hbegins.unique, fun hn => hn ▸ hbegins⟩
      rw [hunique]
      split at h
      · next hpos =>
        cases h
        rw [Option.some.injEq]
        exact ⟨fun hn => ⟨hn, hn ▸ hpos⟩, And.left⟩
      · next hpos =>
        cases h
        exact iff_of_false (by simp) fun ⟨hn, hn'⟩ => hpos (hn ▸ hn')
    · cases h
      exact iff_of_false (by simp) fun ⟨hn, _⟩ => hnone n hn

/-- A size that is not too long is read. -/
lemma exists_size? (h : HasReadableSize help) : ∃ size notes, size? help = .ok (size, notes) := by
  unfold size?
  split
  · exact ⟨_, _, rfl⟩
  · next value hvalue =>
    obtain ⟨n, hn⟩ : ∃ n, Numeral.parseLeading value (-1) = .ok n :=
      Numeral.exists_parseLeading_iff.2
        fun negative digits => h value negative digits (get?_parseHelp_eq_some_iff.1 hvalue)
    rw [hn, ok_bind]
    split
    · exact ⟨_, _, rfl⟩
    · exact ⟨_, _, rfl⟩

/-! Lines that do not matter. -/

/-- The values that some lines give to a key, in order. -/
def valuesIn (key : Text) (lines : List Text) : List Text :=
  (lines.filterMap AttributeBlock.helpProperty?).filterMap fun p => if p.1 = key then some p.2 else none

lemma valuesIn_eq_nil_iff {lines : List Text} :
    valuesIn key lines = [] ↔ ∀ l ∈ lines, ∀ value, ¬ Gives l key value := by
  simp only [valuesIn, List.filterMap_eq_nil_iff, List.mem_filterMap, helpProperty?_eq_some_iff,
    forall_exists_index, and_imp, Prod.forall]
  constructor
  · intro h l hl value hgives
    simpa using h key value l hl hgives
  · rintro h k value l hl hgives
    rw [if_neg]
    rintro rfl
    exact h l hl value hgives

/-- A key has the same value without a line that does not decide it. -/
lemma get?_parseHelp_of_not_decides {before after : List Text} {other : Text}
    (hhelp : Text.splitOn '\n' help = before ++ line :: after) (hline : ¬ Decides line after)
    (hother : Text.splitOn '\n' other = before ++ after) (hkey : key ∈ keys) :
    (Attributes.parseHelp other).get? key = (Attributes.parseHelp help).get? key := by
  have hlast (t : Text) : (Attributes.parseHelp t).get? key =
      (valuesIn key (Text.splitOn '\n' t)).getLast? := AttributeBlock.get?_properties _ t key
  have happend (ls ms : List Text) : valuesIn key (ls ++ ms) = valuesIn key ls ++ valuesIn key ms := by
    simp only [valuesIn, List.filterMap_append]
  rw [hlast, hlast, hhelp, hother, ← List.singleton_append, happend, happend, happend,
    List.getLast?_append, List.getLast?_append, List.getLast?_append]
  by_cases hgives : ∃ value, Gives line key value
  · -- a later line about the key comes after it in both texts
    have hlater : valuesIn key after ≠ [] := fun hnil =>
      hline ⟨key, hkey, hgives, valuesIn_eq_nil_iff.1 hnil⟩
    rw [List.getLast?_eq_some_getLast hlater]
    rfl
  · have hnone : valuesIn key [line] = [] := valuesIn_eq_nil_iff.2 fun l hl value hl' =>
      hgives ⟨value, List.mem_singleton.1 hl ▸ hl'⟩
    rw [hnone, List.getLast?_nil, Option.or_none]

end HelpText

namespace Config

open HelpText

lemma withHelpText_eq (c : Config Scalar) (help : Text) :
    c.withHelpText help = (size? help).map fun (size, notes) =>
      (⟨(family? help).getD c.fontFamily, (size.map .whole).getD c.fontSize, c.zoom⟩, notes) := by
  simp only [withHelpText, size?, family?]
  cases (Attributes.parseHelp help).get? "fontsize".toList with
  | none => rfl
  | some value =>
    cases hsize : Numeral.parseLeading value (-1) with
    | error fault => simp only [hsize]; rfl
    | ok n =>
      simp only [hsize, ok_bind]
      split <;> rfl

/-- Help texts with the same values for the keys that are understood do the same. -/
lemma withHelpText_congr {help other : Text}
    (h : ∀ key ∈ keys, (Attributes.parseHelp other).get? key = (Attributes.parseHelp help).get? key)
    (c : Config Scalar) : c.withHelpText other = c.withHelpText help := by
  rw [withHelpText, withHelpText, h _ (by simp [keys]), h _ (by simp [keys])]

/-- Whether settings are the former ones with what a help text sets in place of them. -/
structure IsUpdated (c : Config Scalar) (help : Text) (c' : Config Scalar) : Prop where
  zoom : c'.zoom = c.zoom
  family_set : ∀ generic, SetsFamily help generic → c'.fontFamily = generic
  family_kept : (∀ generic, ¬ SetsFamily help generic) → c'.fontFamily = c.fontFamily
  size_set : ∀ n, SetsSize help n → c'.fontSize = .whole n
  size_kept : (∀ n, ¬ SetsSize help n) → c'.fontSize = c.fontSize

/-- Whether settings are those after two help texts in turn: those of the second one alone where it
sets something, and those of the first one alone elsewhere. -/
structure IsMerged (second : Text) (firstAlone secondAlone both : Config Scalar) : Prop where
  zoom : both.zoom = firstAlone.zoom
  family_second : ∀ generic, SetsFamily second generic → both.fontFamily = secondAlone.fontFamily
  family_first : (∀ generic, ¬ SetsFamily second generic) → both.fontFamily = firstAlone.fontFamily
  size_second : ∀ n, SetsSize second n → both.fontSize = secondAlone.fontSize
  size_first : (∀ n, ¬ SetsSize second n) → both.fontSize = firstAlone.fontSize

lemma isUpdated_of_size? {help : Text} {size : Option Int} {notes : List Note}
    (h : size? help = .ok (size, notes)) (c : Config Scalar) :
    IsUpdated c help ⟨(family? help).getD c.fontFamily, (size.map .whole).getD c.fontSize, c.zoom⟩ where
  zoom := rfl
  family_set generic hset := by rw [family?_eq_some_iff.2 hset, Option.getD_some]
  family_kept hkept := by
    have hnone : family? help = none :=
      Option.eq_none_iff_forall_ne_some.2 fun generic hset => hkept generic (family?_eq_some_iff.1 hset)
    rw [hnone, Option.getD_none]
  size_set n hset := by
    rw [(setsSize_iff h n).2 hset]
    rfl
  size_kept hkept := by
    have hnone : size = none :=
      Option.eq_none_iff_forall_ne_some.2 fun n hset => hkept n ((setsSize_iff h n).1 hset)
    rw [hnone]
    rfl

/-- A help text whose size can be read changes the family and the size of the font that its last lines
about them set, and nothing else. Applied again it changes nothing, what other lines it has does not
matter, and of two help texts in turn the second one prevails in what it sets. -/
theorem withHelpText_updates (c : Config Scalar) {help : Text} (h : HasReadableSize help) :
    ∃ c' notes, c.withHelpText help = .ok (c', notes) ∧ IsUpdated c help c' ∧
      c'.withHelpText help = .ok (c', notes) ∧
      (∀ other, (∀ key ∈ keys, ∀ value, LastGives other key value ↔ LastGives help key value) →
        c.withHelpText other = .ok (c', notes)) ∧
      (∀ before line after other, Text.splitOn '\n' help = before ++ line :: after →
        ¬ Decides line after → Text.splitOn '\n' other = before ++ after →
        c.withHelpText other = .ok (c', notes)) ∧
      ∀ second, HasReadableSize second → ∃ c₂ notes₂ both, c.withHelpText second = .ok (c₂, notes₂) ∧
        c'.withHelpText second = .ok (both, notes₂) ∧ IsMerged second c' c₂ both := by
  obtain ⟨size, notes, hsize⟩ := exists_size? h
  have hupdate (c : Config Scalar) := isUpdated_of_size? hsize c
  have hresult (c : Config Scalar) : c.withHelpText help = .ok
      (⟨(family? help).getD c.fontFamily, (size.map .whole).getD c.fontSize, c.zoom⟩, notes) := by
    rw [withHelpText_eq, hsize]
    rfl
  have hcongr (other : Text) (hother : ∀ key ∈ keys,
      (Attributes.parseHelp other).get? key = (Attributes.parseHelp help).get? key) :=
    (withHelpText_congr hother c).trans (hresult c)
  refine ⟨_, notes, hresult c, hupdate c, ?_, ?_, ?_, ?_⟩
  · rw [hresult]
    cases family? help <;> cases size <;> rfl
  · intro other hlast
    refine hcongr other fun key hkey => Option.ext fun value => ?_
    rw [get?_parseHelp_eq_some_iff, get?_parseHelp_eq_some_iff]
    exact hlast key hkey value
  · intro before line after other hhelp hline hother
    exact hcongr other fun key hkey => get?_parseHelp_of_not_decides hhelp hline hother hkey
  · intro second hsecond
    obtain ⟨size₂, notes₂, hsize₂⟩ := exists_size? hsecond
    have hupdate₂ (c : Config Scalar) := isUpdated_of_size? hsize₂ c
    refine ⟨_, notes₂, _, by rw [withHelpText_eq, hsize₂]; rfl, by rw [withHelpText_eq, hsize₂]; rfl, ?_⟩
    exact {
      zoom := rfl
      family_second := fun generic hset =>
        ((hupdate₂ _).family_set generic hset).trans ((hupdate₂ c).family_set generic hset).symm
      family_first := (hupdate₂ _).family_kept
      size_second := fun n hset => ((hupdate₂ _).size_set n hset).trans ((hupdate₂ c).size_set n hset).symm
      size_first := (hupdate₂ _).size_kept }

/-- A last line about the family that names none falls back on the settings, not on the line before. -/
theorem withHelpText_updates_unknown_family :
    HasReadableSize "fontfamily=SansSerif\nfontsize=x\n fontsize =+14pt\nfontfamily=Comic".toList ∧
      ∃ c' notes, standard.withHelpText
          "fontfamily=SansSerif\nfontsize=x\n fontsize =+14pt\nfontfamily=Comic".toList =
        .ok (c', notes) ∧ c'.fontFamily = "serif".toList ∧ c'.fontSize = .whole 14 ∧ notes = [] := by
  have hreadable : HasReadableSize
      "fontfamily=SansSerif\nfontsize=x\n fontsize =+14pt\nfontfamily=Comic".toList := by
    intro value negative digits hlast hleading
    have hvalue : some "+14pt".toList = some value := get?_parseHelp_eq_some_iff.2 hlast
    cases hvalue
    cases hleading
    decide
  obtain ⟨c', notes, hresult, -⟩ := withHelpText_updates standard hreadable
  refine ⟨hreadable, c', notes, hresult, ?_⟩
  cases hresult
  exact ⟨rfl, rfl, rfl⟩

end Config

end UmlDrawing
