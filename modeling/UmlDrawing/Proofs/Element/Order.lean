import UmlDrawing.Proofs.Element.Layout

/-! The drawing order. A layout is the stable sort of the built elements by layer, and the layer of
an element is what the last line about it says. -/
namespace UmlDrawing

namespace AttributeBlock

/-- The values that the lines of a block give to a key, in order. -/
def valuesOf (property? : Text → Option (Text × Text)) (source key : Text) : List Text :=
  ((Text.splitOn '\n' source).filterMap property?).filterMap fun p =>
    if p.1 = key then some p.2 else none

lemma get?_foldl_insert (pairs : List (Text × Text)) (props : Properties) (key : Text) :
    (pairs.foldl (fun props p => Properties.insert p.1 p.2 props) props).get? key =
      ((pairs.filterMap fun p => if p.1 = key then some p.2 else none).getLast?).or
        (props.get? key) := by
  induction pairs generalizing props with
  | nil => rfl
  | cons p pairs ih =>
    rw [List.foldl_cons, ih, Properties.get?_insert]
    by_cases hp : p.1 = key
    · simp only [hp, if_true, List.filterMap_cons, List.getLast?_cons]
      cases (pairs.filterMap fun p => if p.1 = key then some p.2 else none).getLast? <;> rfl
    · simp only [hp, if_false, List.filterMap_cons]

/-- The last line of a key decides its value. -/
theorem get?_properties (property? : Text → Option (Text × Text)) (source key : Text) :
    (properties property? source).get? key = (valuesOf property? source key).getLast? := by
  rw [properties, get?_foldl_insert, Properties.get?_nil, Option.or_none, valuesOf]

example : valuesOf property? "layer=1\nTitle\nlayer=x".toList "layer".toList =
    ["1".toList, "x".toList] := by decide

end AttributeBlock

namespace ElementRecord

/-- What the last line about the layer says, if there is such a line. -/
def writtenLayer? (r : ElementRecord) : Option Text :=
  (AttributeBlock.valuesOf AttributeBlock.property? r.panel "layer".toList).getLast?

/-- Whether an integer is the layer of a record: the one that its last line about the layer begins
with, or else the one that the document gives beside the lines, or else zero. -/
def HasLayer (r : ElementRecord) (n : Int) : Prop :=
  (∃ value, r.writtenLayer? = some value ∧ Numeral.BeginsWith value n) ∨
    (¬ ∃ value m, r.writtenLayer? = some value ∧ Numeral.BeginsWith value m) ∧
      n = r.layer.getD 0

end ElementRecord

namespace Element

lemma get?_parse (r : ElementRecord) :
    (Attributes.parse r.panel).properties.get? "layer".toList = r.writtenLayer? :=
  AttributeBlock.get?_properties AttributeBlock.property? r.panel "layer".toList

lemma hasLayer_of_layerOf {r : ElementRecord} {n : Int}
    (h : layerOf (Attributes.parse r.panel).properties r = .ok n) : r.HasLayer n := by
  rw [layerOf, get?_parse] at h
  unfold ElementRecord.HasLayer
  cases hwritten : r.writtenLayer? with
  | none =>
    rw [hwritten] at h
    cases h
    simp
  | some value =>
    rw [hwritten] at h
    obtain hbegins | ⟨hnone, hdefault⟩ := Numeral.of_parseLeading h
    · exact .inl ⟨value, rfl, hbegins⟩
    · refine .inr ⟨?_, hdefault⟩
      rintro ⟨value', m, hvalue, hbegins⟩
      cases hvalue
      exact hnone m hbegins

/-- The layer of an element is that of its record. -/
theorem hasLayer_of_build {r : ElementRecord} {e : Element} (h : (build r).1 = .ok e) :
    r.HasLayer e.layer := by
  simp only [build] at h
  split at h
  · cases h
  · obtain ⟨layer, hlayer, he⟩ := bind_eq_ok_iff.1 h
    cases he
    exact hasLayer_of_layerOf hlayer

end Element

namespace Layout

lemma pairwise_sort (es : List Element) :
    (sort es).Pairwise fun a b => a.layer ≤ b.layer := by
  have hsorted : (sort es).Pairwise fun a b => decide (a.layer ≤ b.layer) = true := by
    refine List.pairwise_mergeSort ?_ ?_ es
    · intro a b c hab hbc
      simp only [decide_eq_true_eq] at hab hbc ⊢
      omega
    · intro a b
      simp only [Bool.or_eq_true, decide_eq_true_eq]
      omega
  simpa using hsorted

/-- Sorting leaves the elements of one layer in their order. -/
lemma filter_sort (es : List Element) (k : Int) :
    (sort es).filter (fun e => e.layer = k) = es.filter fun e => e.layer = k := by
  -- the elements of one layer are a sorted part of the list, which a stable sort keeps as it is
  have hpart : (es.filter fun e => e.layer = k).Sublist (sort es) := by
    refine List.sublist_mergeSort ?_ ?_ ?_ List.filter_sublist
    · intro a b c hab hbc
      simp only [decide_eq_true_eq] at hab hbc ⊢
      omega
    · intro a b
      simp only [Bool.or_eq_true, decide_eq_true_eq]
      omega
    · refine List.Pairwise.imp_of_mem ?_ (List.pairwise_of_forall fun _ _ => trivial)
      intro a b ha hb _
      simp only [List.mem_filter, decide_eq_true_eq] at ha hb ⊢
      omega
  have hfiltered := hpart.filter fun e => decide (e.layer = k)
  simp only [List.filter_filter, Bool.and_self] at hfiltered
  refine (hfiltered.eq_of_length ?_).symm
  exact ((sort_perm es).filter _).length_eq.symm

/-- Lists in ascending order of layers are equal if they have the same elements, in the same order
on every layer. -/
lemma eq_of_filter_eq {es es' : List Element} (hperm : es.Perm es')
    (hes : es.Pairwise fun a b => a.layer ≤ b.layer)
    (hes' : es'.Pairwise fun a b => a.layer ≤ b.layer)
    (hfilter : ∀ k : Int, es.filter (fun e => e.layer = k) = es'.filter fun e => e.layer = k) :
    es = es' := by
  induction es generalizing es' with
  | nil => exact hperm.nil_eq
  | cons a es ih =>
    cases es' with
    | nil => exact absurd hperm.symm.nil_eq (by simp)
    | cons b es' =>
      rw [List.pairwise_cons] at hes hes'
      have hab : a.layer ≤ b.layer := by
        obtain rfl | hmem := List.mem_cons.1 (hperm.mem_iff.2 List.mem_cons_self)
        · exact Int.le_refl _
        · exact hes.1 b hmem
      have hba : b.layer ≤ a.layer := by
        obtain rfl | hmem := List.mem_cons.1 (hperm.mem_iff.1 List.mem_cons_self)
        · exact Int.le_refl _
        · exact hes'.1 a hmem
      have hlayer : b.layer = a.layer := Int.le_antisymm hba hab
      -- both lists begin with the first element of the lowest layer
      have hfirst := hfilter a.layer
      simp only [List.filter_cons, hlayer, decide_true, if_true, List.cons.injEq] at hfirst
      obtain ⟨rfl, -⟩ := hfirst
      have hrest (k : Int) : es.filter (fun e => e.layer = k) =
          es'.filter fun e => e.layer = k := by
        have hk := hfilter k
        by_cases h : a.layer = k
        · simpa [List.filter_cons, h] using hk
        · simpa [List.filter_cons, h] using hk
      rw [ih hperm.cons_inv hes.2 hes'.2 hrest]

/-- A layout is accepted if every record has an element, whose layer is that of the record. It is
the one list of these elements in which layers never decrease and the elements of every layer are
in the order of their records. -/
theorem ofRecords_eq_ok_iff_stable {rs : List ElementRecord} {es : List Element} :
    (ofRecords rs).1 = .ok es ↔
      ∃ built : List Element,
        List.Forall₂ (fun r e => (Element.build r).1 = .ok e ∧ r.HasLayer e.layer) rs built ∧
        es.Perm built ∧
        es.Pairwise (fun a b => a.layer ≤ b.layer) ∧
        ∀ k : Int, es.filter (fun e => e.layer = k) = built.filter fun e => e.layer = k := by
  rw [ofRecords_eq_ok_iff]
  constructor
  · rintro ⟨built, hbuilt, rfl⟩
    have hlayers : List.Forall₂
        (fun r e => (Element.build r).1 = .ok e ∧ r.HasLayer e.layer) rs built :=
      (build_eq_ok_iff.1 hbuilt).imp fun r e he => ⟨he, Element.hasLayer_of_build he⟩
    exact ⟨built, hlayers, sort_perm built, pairwise_sort built, filter_sort built⟩
  · rintro ⟨built, hbuilt, hperm, hsorted, hfilter⟩
    refine ⟨built, build_eq_ok_iff.2 (hbuilt.imp fun r e he => he.1), ?_⟩
    refine eq_of_filter_eq ((sort_perm built).trans hperm.symm) (pairwise_sort built) hsorted ?_
    intro k
    rw [filter_sort, hfilter]

end Layout

end UmlDrawing
