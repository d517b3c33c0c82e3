import Mathlib.Data.List.Forall2
import UmlDrawing.Element.Layout
import UmlDrawing.Proofs.Numeral.Leading
import UmlDrawing.Proofs.Text.Split

/-! When records can be laid out. A record with integers for coordinates has an element unless its
layer is written with more digits than are read, and every element of a layout is that of a
record. -/
namespace UmlDrawing

namespace ElementRecord

/-- Whether the coordinates of a record are integers already. -/
def IsExact (r : ElementRecord) : Prop :=
  ∃ x y w h : Int, r.coordinates = ⟨.number x, .number y, .number w, .number h⟩

/-- Whether the layer of a record is written with more digits than are read. -/
def LayerOverlong (r : ElementRecord) : Prop :=
  ∃ value negative digits,
    (Attributes.parse r.panel).properties.get? "layer".toList = some value ∧
      Numeral.leading? value = some (negative, digits) ∧ Numeral.maxDigits < digits.length

end ElementRecord

namespace Element

lemma exists_layerOf_iff {r : ElementRecord} :
    (∃ n, layerOf (Attributes.parse r.panel).properties r = .ok n) ↔ ¬ r.LayerOverlong := by
  unfold layerOf ElementRecord.LayerOverlong
  split
  · next value hvalue =>
    rw [Numeral.exists_parseLeading_iff]
    constructor
    · rintro hall ⟨value', negative, digits, hvalue', hdigits, hlong⟩
      obtain rfl := Option.some.inj (hvalue.symm.trans hvalue')
      exact absurd (hall negative digits hdigits) (Nat.not_le_of_lt hlong)
    · intro hnone negative digits hdigits
      exact Nat.not_lt.1 fun hlong => hnone ⟨value, negative, digits, hvalue, hdigits, hlong⟩
  · next hnone =>
    refine ⟨?_, fun _ => ⟨_, rfl⟩⟩
    rintro - ⟨value, negative, digits, hvalue, -⟩
    rw [hnone] at hvalue
    cases hvalue

/-- A record with integers for coordinates has an element unless its layer has too many digits. -/
theorem exists_build_iff {r : ElementRecord} (h : r.IsExact) :
    (∃ e, (build r).1 = .ok e) ↔ ¬ r.LayerOverlong := by
  obtain ⟨x, y, width, height, hr⟩ := h
  rw [← exists_layerOf_iff]
  simp only [build, hr]
  cases hlayer : layerOf (Attributes.parse r.panel).properties r with
  | error fault => exact iff_of_false not_ok_of_fault not_ok_of_fault
  | ok layer => exact ⟨fun _ => ⟨layer, rfl⟩, fun _ => ⟨_, rfl⟩⟩

lemma bounds_of_build {r : ElementRecord} {e : Element} (h : (build r).1 = .ok e)
    {x y width height : Int}
    (hr : r.coordinates = ⟨.number x, .number y, .number width, .number height⟩) :
    e.bounds = .clamped x y width height := by
  simp only [build, hr] at h
  cases hlayer : layerOf (Attributes.parse r.panel).properties r with
  | error fault =>
    rw [hlayer] at h
    cases h
  | ok layer =>
    rw [hlayer] at h
    cases h
    rfl

end Element

namespace ElementRecord

lemma leadingDigits_replicate (n : Nat) :
    Numeral.leadingDigits (List.replicate n '1') = List.replicate n 1 := by
  have hone : Text.digitValue? '1' = some 1 := by decide
  induction n with
  | zero => rfl
  | succ n ih => rw [List.replicate_succ, List.replicate_succ, Numeral.leadingDigits, hone, ih]

lemma leading?_replicate (n : Nat) :
    Numeral.leading? (List.replicate (n + 1) '1') = some (false, List.replicate (n + 1) 1) := by
  have htrim : Text.trimStart (List.replicate (n + 1) '1') = List.replicate (n + 1) '1' := by
    have hone : Text.isBlank '1' = false := by decide
    rw [Text.trimStart, List.replicate_succ, List.dropWhile_cons_of_neg]
    simp [hone]
  have hcut : Numeral.cutSign (List.replicate (n + 1) '1') = (false, List.replicate (n + 1) '1') :=
    rfl
  rw [Numeral.leading?, htrim, hcut]
  dsimp only
  rw [leadingDigits_replicate]
  rfl

/-- A panel that holds nothing but a layer, written with some ones. -/
def layerPanel (n : Nat) : Text := "layer=".toList ++ List.replicate n '1'

lemma get?_layerPanel (n : Nat) :
    (Attributes.parse (layerPanel n)).properties.get? "layer".toList =
      some (List.replicate n '1') := by
  have hproperty : AttributeBlock.property? (layerPanel n) =
      some ("layer".toList, List.replicate n '1') :=
    rfl
  have hlines : Text.splitOn '\n' (layerPanel n) = [layerPanel n] := by
    refine Text.splitOn_of_notMem fun hmem => ?_
    obtain hkey | hones := List.mem_append.1 hmem
    · exact absurd hkey (by decide)
    · exact absurd (List.eq_of_mem_replicate hones) (by decide)
  rw [Attributes.parse, AttributeBlock.properties, hlines, List.filterMap_cons, hproperty]
  rfl

/-- A layer that is written with ones is overlong if and only if there are more of them than are
read. -/
theorem layerOverlong_iff {r : ElementRecord} {n : Nat} (h : r.panel = layerPanel (n + 1)) :
    r.LayerOverlong ↔ Numeral.maxDigits < n + 1 := by
  rw [LayerOverlong, h, get?_layerPanel]
  constructor
  · rintro ⟨value, negative, digits, hvalue, hdigits, hlong⟩
    cases hvalue
    rw [leading?_replicate] at hdigits
    cases hdigits
    rwa [List.length_replicate] at hlong
  · intro hlong
    refine ⟨_, _, _, rfl, leading?_replicate n, ?_⟩
    rwa [List.length_replicate]

end ElementRecord

namespace Layout

variable {rs : List ElementRecord} {es : List Element}

/-- The elements of records are built one by one. -/
lemma build_eq_ok_iff :
    (build rs).1 = .ok es ↔ List.Forall₂ (fun r e => (Element.build r).1 = .ok e) rs es := by
  induction rs generalizing es with
  | nil =>
    rw [List.forall₂_nil_left_iff]
    exact ⟨fun h => (Except.ok.inj h).symm, fun h => h ▸ rfl⟩
  | cons r rs ih =>
    rw [List.forall₂_cons_left_iff, build]
    split
    · next hfault =>
      refine ⟨fun h => (by cases h), ?_⟩
      rintro ⟨e, rest, he, -, -⟩
      rw [hfault] at he
      cases he
    · next e notes hbuilt =>
      rw [hbuilt]
      cases hrest : (build rs).1 with
      | error fault =>
        refine ⟨fun h => (by simp [hrest, Except.map] at h), ?_⟩
        rintro ⟨e, rest, -, hbuilt, -⟩
        rw [← ih, hrest] at hbuilt
        cases hbuilt
      | ok rest =>
        simp only [hrest, Except.map, Except.ok.injEq]
        constructor
        · rintro rfl
          exact ⟨e, rest, rfl, ih.1 hrest, rfl⟩
        · rintro ⟨e', rest', rfl, hbuilt, rfl⟩
          rw [← ih, hrest] at hbuilt
          rw [Except.ok.inj hbuilt]

lemma exists_forall₂ {α β : Type} {R : α → β → Prop} {l : List α} :
    (∃ l', List.Forall₂ R l l') ↔ ∀ a ∈ l, ∃ b, R a b := by
  induction l with
  | nil => exact ⟨fun _ a ha => (by cases ha), fun _ => ⟨[], .nil⟩⟩
  | cons a l ih =>
    rw [List.forall_mem_cons, ← ih]
    constructor
    · rintro ⟨l', h⟩
      obtain ⟨b, rest, hb, hrest, -⟩ := List.forall₂_cons_left_iff.1 h
      exact ⟨⟨b, hb⟩, rest, hrest⟩
    · rintro ⟨⟨b, hb⟩, rest, hrest⟩
      exact ⟨b :: rest, .cons hb hrest⟩

lemma ofRecords_eq_ok_iff :
    (ofRecords rs).1 = .ok es ↔ ∃ built, (build rs).1 = .ok built ∧ sort built = es := by
  change (build rs).1.map sort = .ok es ↔ _
  cases (build rs).1 with
  | error fault => simp [Except.map]
  | ok built => simp [Except.map]

/-- Records can be laid out if and only if each of them has an element. -/
theorem exists_ofRecords_iff :
    (∃ es, (ofRecords rs).1 = .ok es) ↔ ∀ r ∈ rs, ∃ e, (Element.build r).1 = .ok e := by
  simp only [← exists_forall₂, ← build_eq_ok_iff, ofRecords_eq_ok_iff]
  constructor
  · rintro ⟨es, built, hbuilt, -⟩
    exact ⟨built, hbuilt⟩
  · rintro ⟨built, hbuilt⟩
    exact ⟨sort built, built, hbuilt, rfl⟩

/-- A layout has as many elements as there are records. -/
theorem length_ofRecords (h : (ofRecords rs).1 = .ok es) : es.length = rs.length := by
  obtain ⟨built, hbuilt, rfl⟩ := ofRecords_eq_ok_iff.1 h
  rw [(sort_perm built).length_eq]
  exact (build_eq_ok_iff.1 hbuilt).length_eq.symm

/-- A layout has the elements of the records. -/
theorem mem_ofRecords (h : (ofRecords rs).1 = .ok es) {e : Element} :
    e ∈ es ↔ ∃ r ∈ rs, (Element.build r).1 = .ok e := by
  obtain ⟨built, hbuilt, rfl⟩ := ofRecords_eq_ok_iff.1 h
  rw [(sort_perm built).mem_iff]
  replace hbuilt := build_eq_ok_iff.1 hbuilt
  clear h
  induction hbuilt with
  | nil => simp
  | cons hr hrest ih =>
    rw [List.mem_cons, List.exists_mem_cons_iff, hr, Except.ok.injEq, eq_comm]
    exact or_congr_right ih

end Layout

end UmlDrawing
