import Mathlib.Algebra.Order.Floor.Div
import Mathlib.Data.List.DropRight
import UmlDrawing.Chunk

/-! Lists cut into pieces round by round. A round takes what one piece needs off the front of the
items, and the first round that has no piece to give is the last one. The pieces of a list are those
of its rounds: there are finitely many, all of one length, and no item is lost, repeated or moved. -/
namespace UmlDrawing.Chunk

variable {α : Type} {n : ℕ} {pad : Bool} {items taken rest : List α}

/-! The rounds. -/

/-- The piece that a round gives and the items that it leaves. What is taken may be too short for a
piece; then it is filled up if `pad` is set, but nothing at all is not. -/
def round? (n : ℕ) (pad : Bool) (items : List α) : Option (List (Option α) × List α) :=
  let taken := items.take n
  if taken.length = n then some (taken.map some, items.drop n)
  else if taken ≠ [] ∧ pad = true then
    some (taken.map some ++ List.replicate (n - taken.length) none, items.drop n)
  else none

/-- Round after round on what the one before has left, the items give these pieces and then no more.
A filled up piece does not end the rounds by itself. -/
inductive CutInto (n : ℕ) (pad : Bool) : List α → List (List (Option α)) → Prop
  | stop {items : List α} (h : round? n pad items = none) : CutInto n pad items []
  | next {items rest : List α} {piece : List (Option α)} {pieces : List (List (Option α))}
      (h : round? n pad items = some (piece, rest)) (tail : CutInto n pad rest pieces) :
      CutInto n pad items (piece :: pieces)

/-- Pieces without items never come to an end. -/
theorem not_cutInto_zero {pieces : List (List (Option α))} : ¬ CutInto 0 pad items pieces := by
  intro h
  induction h with
  | stop h => cases h
  | next _ _ ih => exact ih

lemma CutInto.unique {pieces others : List (List (Option α))} (h : CutInto n pad items pieces)
    (hothers : CutInto n pad items others) : pieces = others := by
  induction h generalizing others with
  | stop hstop =>
    cases hothers with
    | stop => rfl
    | next hnext => cases hstop.symm.trans hnext
  | next hnext _ ih =>
    cases hothers with
    | stop hstop => cases hstop.symm.trans hnext
    | next hother tail =>
      cases Option.some.inj (hnext.symm.trans hother)
      rw [ih tail]

lemma round?_append (h : taken.length = n) :
    round? n pad (taken ++ rest) = some (taken.map some, rest) := by
  rw [round?, List.take_left' h, List.drop_left' h, if_pos h]

lemma round?_of_lt (h : items.length < n) :
    round? n pad items = if items ≠ [] ∧ pad = true then
      some (items.map some ++ List.replicate (n - items.length) none, []) else none := by
  rw [round?, List.take_of_length_le h.le, List.drop_of_length_le h.le, if_neg h.ne]

/-! The same pieces by counting: what is short of a piece, and what begins with one. -/

lemma last_eq (n : ℕ) (pad : Bool) (items : List α) :
    last n pad items = if items ≠ [] ∧ pad = true then
      [items.map some ++ List.replicate (n - items.length) none] else [] := by
  cases items <;> cases pad <;> rfl

lemma after_of_lt {piece : List α} (h : (piece ++ items).length < n) :
    after n pad piece items = last n pad (piece ++ items) := by
  induction items generalizing piece with
  | nil => rw [after, List.append_nil]
  | cons a items ih =>
    have hmore : piece ++ a :: items = (piece ++ [a]) ++ items := by simp
    have hne : (piece ++ [a]).length ≠ n := by
      rw [hmore, List.length_append] at h
      omega
    rw [hmore] at h ⊢
    exact (if_neg hne).trans (ih h)

lemma after_append {piece : List α} (hpiece : piece.length < n)
    (h : (piece ++ taken).length = n) :
    after n pad piece (taken ++ rest) = (piece ++ taken).map some :: ofList n pad rest := by
  induction taken generalizing piece with
  | nil =>
    rw [List.append_nil] at h
    exact absurd h hpiece.ne
  | cons a taken ih =>
    have hmore : piece ++ a :: taken = (piece ++ [a]) ++ taken := by simp
    rw [hmore] at h ⊢
    by_cases hfull : (piece ++ [a]).length = n
    · have hnone : taken = [] := by
        rw [List.length_append, hfull] at h
        exact List.eq_nil_of_length_eq_zero (by omega)
      subst hnone
      rw [List.append_nil]
      exact if_pos hfull
    · have hroom : (piece ++ [a]).length < n := by
        rw [List.length_append] at h
        omega
      exact (if_neg hfull).trans (ih hroom h)

lemma ofList_of_lt (h : items.length < n) : ofList n pad items = last n pad items :=
  after_of_lt h

lemma ofList_append (hn : 1 ≤ n) (h : taken.length = n) :
    ofList n pad (taken ++ rest) = taken.map some :: ofList n pad rest :=
  after_append hn h

/-- Every list is short of a piece or begins with one. -/
@[elab_as_elim]
lemma piecewise (hn : 1 ≤ n) {motive : List α → Prop}
    (short : ∀ items, items.length < n → motive items)
    (piece : ∀ taken rest, taken.length = n → motive rest → motive (taken ++ rest))
    (items : List α) : motive items := by
  induction hlength : items.length using Nat.strong_induction_on generalizing items with
  | _ length ih =>
    by_cases hshort : items.length < n
    · exact short items hshort
    · have htaken : (items.take n).length = n := by
        rw [List.length_take]
        omega
      have hrest : (items.drop n).length < length := by
        rw [List.length_drop]
        omega
      have h := piece (items.take n) (items.drop n) htaken (ih _ hrest _ rfl)
      rwa [List.take_append_drop] at h

/-- The pieces of a list are those of its rounds. -/
lemma cutInto_ofList (hn : 1 ≤ n) (items : List α) : CutInto n pad items (ofList n pad items) := by
  induction items using piecewise hn with
  | short items hshort =>
    have hround : round? n pad items = _ := round?_of_lt hshort
    have hnothing : round? n pad ([] : List α) = none :=
      (round?_of_lt hn).trans (if_neg fun h => h.1 rfl)
    rw [ofList_of_lt hshort, last_eq]
    split_ifs at hround ⊢
    · exact .next hround (.stop hnothing)
    · exact .stop hround
  | piece taken rest htaken ih =>
    rw [ofList_append hn htaken]
    exact .next (round?_append htaken) ih

lemma cutInto_iff (hn : 1 ≤ n) {pieces : List (List (Option α))} :
    CutInto n pad items pieces ↔ pieces = ofList n pad items :=
  ⟨fun h => h.unique (cutInto_ofList hn items), fun h => h ▸ cutInto_ofList hn items⟩

/-! What the pieces are. -/

lemma length_of_mem_ofList (hn : 1 ≤ n) {piece : List (Option α)}
    (h : piece ∈ ofList n pad items) : piece.length = n := by
  induction items using piecewise hn with
  | short items hshort =>
    rw [ofList_of_lt hshort, last_eq] at h
    split_ifs at h
    · obtain rfl := List.mem_singleton.1 h
      rw [List.length_append, List.length_map, List.length_replicate]
      omega
    · cases h
  | piece taken rest htaken ih =>
    rw [ofList_append hn htaken] at h
    obtain rfl | h := List.mem_cons.1 h
    · rw [List.length_map, htaken]
    · exact ih h

/-- Filled up, a list gives as many pieces as are needed for all of it. -/
lemma length_ofList_true (hn : 1 ≤ n) (items : List α) :
    (ofList n true items).length = items.length ⌈/⌉ n := by
  rw [Nat.ceilDiv_eq_add_pred_div]
  induction items using piecewise hn with
  | short items hshort =>
    rw [ofList_of_lt hshort, last_eq]
    split_ifs with hfill
    · have hpos := List.length_pos_iff.2 hfill.1
      rw [List.length_singleton]
      exact (Nat.div_eq_of_lt_le (by omega) (by omega)).symm
    · have hnone : items = [] := by simpa using hfill
      subst hnone
      exact (Nat.div_eq_of_lt (by simp; omega)).symm
  | piece taken rest htaken ih =>
    have hlength : (taken ++ rest).length + n - 1 = (rest.length + n - 1) + n := by
      rw [List.length_append]
      omega
    rw [ofList_append hn htaken, List.length_cons, ih, hlength, Nat.add_div_right _ hn]

/-- Not filled up, it gives as many as there are in it. -/
lemma length_ofList_false (hn : 1 ≤ n) (items : List α) :
    (ofList n false items).length = items.length / n := by
  induction items using piecewise hn with
  | short items hshort =>
    rw [ofList_of_lt hshort, Nat.div_eq_of_lt hshort]
    rfl
  | piece taken rest htaken ih =>
    rw [ofList_append hn htaken, List.length_cons, ih, List.length_append, htaken, Nat.add_comm n,
      Nat.add_div_right _ hn]

/-- One after the other, the pieces are the items and what the last piece is filled up with. -/
lemma flatten_ofList_true (hn : 1 ≤ n) (items : List α) :
    ∃ k, (ofList n true items).flatten = items.map some ++ List.replicate k none := by
  induction items using piecewise hn with
  | short items hshort =>
    rw [ofList_of_lt hshort, last_eq]
    split_ifs with hfill
    · exact ⟨n - items.length, by rw [List.flatten_cons, List.flatten_nil, List.append_nil]⟩
    · have hnone : items = [] := by simpa using hfill
      subst hnone
      exact ⟨0, rfl⟩
  | piece taken rest htaken ih =>
    obtain ⟨k, hk⟩ := ih
    refine ⟨k, ?_⟩
    rw [ofList_append hn htaken, List.flatten_cons, hk, List.map_append, List.append_assoc]

/-- One after the other, the pieces are the items up to the last one that fills a piece. -/
lemma flatten_ofList_false (hn : 1 ≤ n) (items : List α) :
    (ofList n false items).flatten = (items.take (items.length / n * n)).map some := by
  induction items using piecewise hn with
  | short items hshort =>
    rw [ofList_of_lt hshort, Nat.div_eq_of_lt hshort, Nat.zero_mul]
    rfl
  | piece taken rest htaken ih =>
    have hcount : (taken ++ rest).length / n * n = taken.length + rest.length / n * n := by
      rw [List.length_append, htaken, Nat.add_div_left _ hn, Nat.succ_mul, Nat.add_comm]
    rw [ofList_append hn htaken, List.flatten_cons, ih, hcount, List.take_length_add_append,
      List.map_append]

/-- Whether the items kept are the front of a list, as long as it can be without a part of a piece. -/
structure IsWholePart (n : ℕ) (items kept : List α) : Prop where
  front : kept <+: items
  dvd : n ∣ kept.length
  longest : ∀ other, other <+: items → n ∣ other.length → other.length ≤ kept.length

lemma isWholePart_take (hn : 1 ≤ n) (items : List α) :
    IsWholePart n items (items.take (items.length / n * n)) := by
  have hlength : (items.take (items.length / n * n)).length = items.length / n * n :=
    List.length_take_of_le (Nat.div_mul_le_self ..)
  refine ⟨List.take_prefix .., ?_, fun other hfront hdvd => ?_⟩
  · rw [hlength]
    exact Nat.dvd_mul_left ..
  · obtain ⟨q, hq⟩ := hdvd
    rw [hlength, hq, Nat.mul_comm]
    refine Nat.mul_le_mul_right n ((Nat.le_div_iff_mul_le hn).2 ?_)
    rw [Nat.mul_comm, ← hq]
    exact hfront.length_le

/-- What is filled in at the end can be told from the items. -/
lemma rdropWhile_isNone (items : List α) (k : ℕ) :
    (items.map some ++ List.replicate k none).rdropWhile Option.isNone = items.map some := by
  have hitems : (items.map some).rdropWhile Option.isNone = items.map some := by
    refine List.rdropWhile_eq_self_iff.2 fun hne => ?_
    rw [List.getLast_map]
    exact Bool.false_ne_true
  rw [List.rdropWhile, List.reverse_append, List.reverse_replicate,
    List.dropWhile_append_of_pos fun a ha => by rw [List.eq_of_mem_replicate ha]; rfl]
  exact hitems

/-- Pieces of one item or more come to an end, and all of them have one length. Filled up, they are as
many as the items need, and hold the items with nothing but missing ones after them. Not filled up,
they are as many as the items fill, and hold the front of the items up to what fills no piece. -/
theorem ofList_keeps_items (hn : 1 ≤ n) (items : List α) :
    (∀ pad pieces, CutInto n pad items pieces ↔ pieces = ofList n pad items) ∧
      (∀ pad, ∀ piece ∈ ofList n pad items, piece.length = n) ∧
      ((ofList n true items).length = items.length ⌈/⌉ n ∧
        (ofList n true items).flatten.rdropWhile Option.isNone = items.map some) ∧
      (ofList n false items).length = items.length / n ∧
      ∃ kept, (ofList n false items).flatten = kept.map some ∧ IsWholePart n items kept := by
  obtain ⟨k, hk⟩ := flatten_ofList_true hn items
  refine ⟨fun pad pieces => cutInto_iff hn, fun pad piece => length_of_mem_ofList hn,
    ⟨length_ofList_true hn items, ?_⟩, length_ofList_false hn items, ?_⟩
  · rw [hk]
    exact rdropWhile_isNone items k
  · exact ⟨_, flatten_ofList_false hn items, isWholePart_take hn items⟩

/-- Seven items in pieces of three. -/
theorem ofList_keeps_items_seven :
    1 ≤ 3 ∧
      CutInto 3 true [1, 2, 3, 4, 5, 6, 7]
        [[some 1, some 2, some 3], [some 4, some 5, some 6], [some 7, none, none]] ∧
      CutInto 3 false [1, 2, 3, 4, 5, 6, 7]
        [[some 1, some 2, some 3], [some 4, some 5, some 6]] ∧
      (ofList 3 true [1, 2, 3, 4, 5, 6, 7]).length = 7 ⌈/⌉ 3 ∧
      ([1, 2, 3, 4, 5, 6, 7].map some ++ [none, none]).rdropWhile Option.isNone =
        [1, 2, 3, 4, 5, 6, 7].map some ∧
      IsWholePart 3 [1, 2, 3, 4, 5, 6, 7] [1, 2, 3, 4, 5, 6] := by
  have hthree : 1 ≤ 3 := by decide
  obtain ⟨hcut, -, ⟨hlength, hitems⟩, -, kept, hflat, hkept⟩ :=
    ofList_keeps_items hthree [1, 2, 3, 4, 5, 6, 7]
  have hsix : [1, 2, 3, 4, 5, 6] = kept :=
    List.map_injective_iff.2 (Option.some_injective ℕ) hflat
  exact ⟨hthree, (hcut true _).2 rfl, (hcut false _).2 rfl, hlength, hitems, hsix ▸ hkept⟩

end UmlDrawing.Chunk
