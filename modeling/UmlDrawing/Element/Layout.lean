import UmlDrawing.Element.Basic

/-! The drawing order of elements: by layer, and in the order of the document within one. -/
namespace UmlDrawing.Layout

/-- The elements of some records, in the order of the records, and what there is to report. The
first record without an element ends the list. -/
def build : List ElementRecord → Except Fault (List Element) × List Note
  | [] => (.ok [], [])
  | r :: rs =>
    match Element.build r with
    | (.error fault, notes) => (.error fault, notes)
    | (.ok e, notes) =>
      let (es, more) := build rs
      (es.map (e :: ·), notes ++ more)

/-- Elements by ascending layer; those of one layer keep their order. -/
def sort (es : List Element) : List Element := es.mergeSort fun a b => decide (a.layer ≤ b.layer)

/-- The elements of some records in drawing order, and what there is to report. -/
def ofRecords (rs : List ElementRecord) : Except Fault (List Element) × List Note :=
  let (es, notes) := build rs
  (es.map sort, notes)

@[simp] theorem ofRecords_nil : ofRecords [] = (.ok [], []) := by
  simp [ofRecords, build, sort, Except.map]

theorem sort_perm (es : List Element) : (sort es).Perm es := List.mergeSort_perm ..

end UmlDrawing.Layout
