import Mathlib.Order.Bounds.Basic
import Mathlib.Data.List.Induction
import UmlDrawing.Compositor
import UmlDrawing.Font.Block
import UmlDrawing.Proofs.Element.Layout
import UmlDrawing.Surface.Recording

/-! The growth of the surface. Its size after some passes is one more than the farthest corner of
all elements that were laid out, on each axis, whether they could be drawn or not. -/
namespace UmlDrawing.Compositor

/-- The size and the metrics of a new compositor after some passes over surfaces of some kind. -/
def history (Content : Type) {Shared Saved : Type} [Medium Content Shared Saved] (c : Compositor)
    (metrics : Metrics) (passes : List (List ElementRecord)) : Vec Int × Metrics :=
  passes.foldl
    (fun former records =>
      let pass : Pass (Canvas Content Shared) := c.render former.1 former.2 records
      (pass.size, pass.metrics))
    (⟨0, 0⟩, metrics)

/-- Whether an element belongs to the layout of one of some passes. -/
def LaidOut (passes : List (List ElementRecord)) (e : Element) : Prop :=
  ∃ records ∈ passes, ∃ es, (Layout.ofRecords records).1 = .ok es ∧ e ∈ es

/-- The far corners of all elements of some passes on one axis, and the origin. -/
def farCorners (far : Bounds → Int) (passes : List (List ElementRecord)) : Set Int :=
  {n | n = 0 ∨ ∃ e, LaidOut passes e ∧ n = far e.bounds}

/-- An axis of sizes, and how far boxes reach on it. -/
structure Measures (axis : Vec Int → Int) (far : Bounds → Int) : Prop where
  start : axis ⟨0, 0⟩ = 0
  grow_le_iff (size : Vec Int) (es : List Element) (n : Int) :
    axis (grow size es) ≤ n ↔ axis size ≤ n ∧ 1 ≤ n ∧ ∀ e ∈ es, far e.bounds + 1 ≤ n

lemma foldl_max_le_iff (far : Element → Int) (es : List Element) (m n : Int) :
    es.foldl (fun c e => max c (far e)) m ≤ n ↔ m ≤ n ∧ ∀ e ∈ es, far e ≤ n := by
  induction es generalizing m with
  | nil => simp
  | cons e es ih => rw [List.foldl_cons, ih, List.forall_mem_cons, Int.max_le, and_assoc]

lemma extent_eq (es : List Element) :
    extent es = ⟨es.foldl (fun c e => max c (e.bounds.x + e.bounds.w)) 0,
      es.foldl (fun c e => max c (e.bounds.y + e.bounds.h)) 0⟩ := by
  have hfold (m n : Int) :
      es.foldl (fun c e => ⟨max c.x e.bounds.extent.x, max c.y e.bounds.extent.y⟩) ⟨m, n⟩ =
        (⟨es.foldl (fun c e => max c (e.bounds.x + e.bounds.w)) m,
          es.foldl (fun c e => max c (e.bounds.y + e.bounds.h)) n⟩ : Vec Int) := by
    induction es generalizing m n with
    | nil => rfl
    | cons e es ih => exact ih _ _
  exact hfold 0 0

/-- One more than the greatest of zero and some numbers. -/
lemma max_foldl_succ_le_iff (far : Element → Int) (es : List Element) (m n : Int) :
    max m (es.foldl (fun c e => max c (far e)) 0 + 1) ≤ n ↔
      m ≤ n ∧ 1 ≤ n ∧ ∀ e ∈ es, far e + 1 ≤ n := by
  have hfold := foldl_max_le_iff far es 0 (n - 1)
  have hsucc : ∀ k : Int, k + 1 ≤ n ↔ k ≤ n - 1 := by
    intro k
    omega
  have hone : 0 ≤ n - 1 ↔ 1 ≤ n := by omega
  rw [Int.max_le, hsucc, hfold, hone]
  simp only [hsucc]

lemma measures_x : Measures Vec.x fun b => b.x + b.w where
  start := rfl
  grow_le_iff size es n := by
    simp only [grow, extent_eq]
    exact max_foldl_succ_le_iff _ es size.x n

lemma measures_y : Measures Vec.y fun b => b.y + b.h where
  start := rfl
  grow_le_iff size es n := by
    simp only [grow, extent_eq]
    exact max_foldl_succ_le_iff _ es size.y n

section History

variable {Content Shared Saved : Type} [Medium Content Shared Saved] {c : Compositor}
  {metrics : Metrics} {passes passes' : List (List ElementRecord)} {records : List ElementRecord}
  {es : List Element}

lemma size_drawElements (c : Compositor) (size : Vec Int) (metrics : Metrics) (es : List Element)
    (notes : List Note) :
    (drawElements c size metrics es notes : Pass (Canvas Content Shared)).size = size := by
  unfold drawElements
  split
  · rfl
  · split <;> rfl

/-- A pass grows the size by what was laid out, however the drawing ends. -/
lemma size_render (h : (Layout.ofRecords records).1 = .ok es) (size : Vec Int)
    (metrics : Metrics) :
    (c.render size metrics records : Pass (Canvas Content Shared)).size = grow size es := by
  unfold render
  split
  · next hrecords =>
    rw [hrecords] at h
    cases h
  · next hrecords =>
    rw [hrecords] at h
    cases h
    exact size_drawElements ..

lemma size_render_of_error {fault : Fault} (h : (Layout.ofRecords records).1 = .error fault)
    (size : Vec Int) (metrics : Metrics) :
    (c.render size metrics records : Pass (Canvas Content Shared)).size = size := by
  unfold render
  split
  · rfl
  · next hrecords =>
    rw [hrecords] at h
    cases h

lemma history_append_singleton (c : Compositor) (metrics : Metrics)
    (passes : List (List ElementRecord)) (records : List ElementRecord) :
    (history Content c metrics (passes ++ [records])).1 =
      (c.render (history Content c metrics passes).1 (history Content c metrics passes).2 records :
        Pass (Canvas Content Shared)).size := by
  rw [history, List.foldl_append]
  rfl

lemma laidOut_append_singleton {e : Element} (h : (Layout.ofRecords records).1 = .ok es) :
    LaidOut (passes ++ [records]) e ↔ LaidOut passes e ∨ e ∈ es := by
  unfold LaidOut
  simp [or_and_right, exists_or, h]

variable {axis : Vec Int → Int} {far : Bounds → Int}

variable (Content c metrics) in
/-- What bounds the size after some passes bounds all that was laid out in them. -/
lemma history_le_iff (hmeasures : Measures axis far)
    (hlayout : ∀ records ∈ passes, ∃ es, (Layout.ofRecords records).1 = .ok es) (n : Int) :
    axis (history Content c metrics passes).1 ≤ n ↔
      0 ≤ n ∧ (passes ≠ [] → 1 ≤ n) ∧ ∀ e, LaidOut passes e → far e.bounds + 1 ≤ n := by
  induction passes using List.reverseRecOn with
  | nil => simp [history, hmeasures.start, LaidOut]
  | append_singleton passes records ih =>
    obtain ⟨es, hes⟩ := hlayout records (by simp)
    have ih := ih fun records hrecords => hlayout records (by simp [hrecords])
    rw [history_append_singleton, size_render hes, hmeasures.grow_le_iff, ih]
    simp only [laidOut_append_singleton hes]
    constructor
    · rintro ⟨⟨hzero, -, hformer⟩, hone, hnew⟩
      exact ⟨hzero, fun _ => hone, fun e he => he.elim (hformer e) (hnew e)⟩
    · rintro ⟨hzero, hone, hall⟩
      have hone := hone (by simp)
      exact ⟨⟨hzero, fun _ => hone, fun e he => hall e (.inl he)⟩, hone,
        fun e he => hall e (.inr he)⟩

variable (Content c metrics) in
/-- The size is one more than the greatest of the far corners and the origin. -/
theorem isGreatest_farCorners (hmeasures : Measures axis far) (hne : passes ≠ [])
    (hlayout : ∀ records ∈ passes, ∃ es, (Layout.ofRecords records).1 = .ok es) :
    IsGreatest (farCorners far passes) (axis (history Content c metrics passes).1 - 1) := by
  have hle := history_le_iff Content c metrics hmeasures hlayout
  obtain ⟨-, hone, hall⟩ := (hle _).1 (Int.le_refl _)
  have hone := hone hne
  constructor
  · -- if no corner reached as far, a smaller size would have room for all of them
    by_contra hnone
    have hsmaller : ∀ n ∈ farCorners far passes,
        n + 1 ≤ axis (history Content c metrics passes).1 - 1 := by
      intro n hn
      have hlt : n ≠ axis (history Content c metrics passes).1 - 1 := fun h => hnone (h ▸ hn)
      obtain rfl | ⟨e, he, rfl⟩ := hn
      · omega
      · have := hall e he
        omega
    have hzero := hsmaller 0 (.inl rfl)
    have hsize := (hle (axis (history Content c metrics passes).1 - 1)).2
      ⟨by omega, fun _ => by omega, fun e he => hsmaller _ (.inr ⟨e, he, rfl⟩)⟩
    omega
  · rintro n (rfl | ⟨e, he, rfl⟩)
    · omega
    · have := hall e he
      omega

/-- Passes never make the surface smaller. -/
lemma le_history_append_singleton (hmeasures : Measures axis far) :
    axis (history Content c metrics passes).1 ≤
      axis (history Content c metrics (passes ++ [records])).1 := by
  rw [history_append_singleton]
  cases hes : (Layout.ofRecords records).1 with
  | error fault => rw [size_render_of_error hes]
  | ok es =>
    rw [size_render hes]
    exact ((hmeasures.grow_le_iff _ es _).1 (Int.le_refl _)).1

/-- Passes over the same records lay out the same elements. -/
lemma laidOut_congr (hlayout : ∀ records ∈ passes, ∃ es, (Layout.ofRecords records).1 = .ok es)
    (hsame : ∀ r, r ∈ passes'.flatten ↔ r ∈ passes.flatten) :
    (∀ records ∈ passes', ∃ es, (Layout.ofRecords records).1 = .ok es) ∧
      ∀ e, LaidOut passes' e ↔ LaidOut passes e := by
  have hbuilt : ∀ r ∈ passes.flatten, ∃ e, (Element.build r).1 = .ok e := by
    intro r hr
    obtain ⟨records, hrecords, hr⟩ := List.mem_flatten.1 hr
    exact Layout.exists_ofRecords_iff.1 (hlayout records hrecords) r hr
  have hlayout' : ∀ records ∈ passes', ∃ es, (Layout.ofRecords records).1 = .ok es := by
    intro records hrecords
    refine Layout.exists_ofRecords_iff.2 fun r hr => hbuilt r ?_
    exact (hsame r).1 (List.mem_flatten.2 ⟨records, hrecords, hr⟩)
  have hmem {passes : List (List ElementRecord)} {e : Element}
      (h : ∀ records ∈ passes, ∃ es, (Layout.ofRecords records).1 = .ok es) :
      LaidOut passes e ↔ ∃ r ∈ passes.flatten, (Element.build r).1 = .ok e := by
    constructor
    · rintro ⟨records, hrecords, es, hes, he⟩
      obtain ⟨r, hr, hbuild⟩ := (Layout.mem_ofRecords hes).1 he
      exact ⟨r, List.mem_flatten.2 ⟨records, hrecords, hr⟩, hbuild⟩
    · rintro ⟨r, hr, hbuild⟩
      obtain ⟨records, hrecords, hr⟩ := List.mem_flatten.1 hr
      obtain ⟨es, hes⟩ := h records hrecords
      exact ⟨records, hrecords, es, hes, (Layout.mem_ofRecords hes).2 ⟨r, hr, hbuild⟩⟩
  refine ⟨hlayout', fun e => ?_⟩
  rw [hmem hlayout', hmem hlayout]
  simp only [hsame]

/-- The size depends on nothing but which records were laid out. -/
lemma history_congr (hne : passes ≠ []) (hne' : passes' ≠ [])
    (hlayout : ∀ records ∈ passes, ∃ es, (Layout.ofRecords records).1 = .ok es)
    (hsame : ∀ r, r ∈ passes'.flatten ↔ r ∈ passes.flatten) :
    (history Content c metrics passes').1 = (history Content c metrics passes).1 := by
  obtain ⟨hlayout', helements⟩ := laidOut_congr hlayout hsame
  have haxis {axis : Vec Int → Int} {far : Bounds → Int} (hmeasures : Measures axis far) :
      axis (history Content c metrics passes').1 = axis (history Content c metrics passes).1 := by
    have h' := isGreatest_farCorners Content c metrics hmeasures hne' hlayout'
    have h := isGreatest_farCorners Content c metrics hmeasures hne hlayout
    have hcorners : farCorners far passes' = farCorners far passes := by
      simp only [farCorners, helements]
    rw [hcorners] at h'
    have := h'.unique h
    omega
  have hx := haxis measures_x
  have hy := haxis measures_y
  generalize (history Content c metrics passes').1 = a at hx hy ⊢
  generalize (history Content c metrics passes).1 = b at hx hy ⊢
  obtain ⟨x, y⟩ := a
  obtain ⟨x', y'⟩ := b
  dsimp only at hx hy
  rw [hx, hy]

/-- After some passes the surface is one larger, on each axis, than the greatest of zero and all
far corners of their elements. It never shrinks, it is the same in whatever order the elements and
the passes come and however often a pass is repeated, and the surface of every element ends inside
it. -/
theorem history_isGreatest (Content : Type) {Shared Saved : Type} [Medium Content Shared Saved]
    (c : Compositor) (metrics : Metrics) {passes : List (List ElementRecord)} (hne : passes ≠ [])
    (hlayout : ∀ records ∈ passes, ∃ es, (Layout.ofRecords records).1 = .ok es) :
    let size (passes : List (List ElementRecord)) := (history Content c metrics passes).1
    IsGreatest (farCorners (fun b => b.x + b.w) passes) ((size passes).x - 1) ∧
      IsGreatest (farCorners (fun b => b.y + b.h) passes) ((size passes).y - 1) ∧
      (∀ records, (size passes).x ≤ (size (passes ++ [records])).x ∧
        (size passes).y ≤ (size (passes ++ [records])).y) ∧
      (∀ passes', passes' ≠ [] → passes'.flatten.Perm passes.flatten →
        size passes' = size passes) ∧
      (∀ records ∈ passes, size (passes ++ [records]) = size passes) ∧
      ∀ e, LaidOut passes e →
        e.bounds.x + (e.bounds.w + 1) ≤ (size passes).x ∧
          e.bounds.y + (e.bounds.h + 1) ≤ (size passes).y := by
  have hx := isGreatest_farCorners Content c metrics measures_x hne hlayout
  have hy := isGreatest_farCorners Content c metrics measures_y hne hlayout
  refine ⟨hx, hy, ?_, ?_, ?_, ?_⟩
  · intro records
    exact ⟨le_history_append_singleton measures_x, le_history_append_singleton measures_y⟩
  · intro passes' hne' hperm
    exact history_congr hne hne' hlayout fun r => hperm.mem_iff
  · intro records hrecords
    refine history_congr hne (by simp) hlayout fun r => ?_
    simp only [List.flatten_append, List.flatten_singleton, List.mem_append, or_iff_left_iff_imp]
    exact fun hr => List.mem_flatten.2 ⟨records, hrecords, hr⟩
  · intro e he
    have hex := hx.2 (.inr ⟨e, he, rfl⟩)
    have hey := hy.2 (.inr ⟨e, he, rfl⟩)
    dsimp only at hex hey ⊢
    omega

/-- A box left of the origin with a negative height, then two boxes of which one is below. -/
theorem history_isGreatest_two_passes :
    let left : ElementRecord := { coordinates := ⟨.number (-30), .number 5, .number 10, .number (-4)⟩ }
    let right : ElementRecord := { coordinates := ⟨.number 100, .number 0, .number 7, .number 3⟩ }
    let below : ElementRecord := { coordinates := ⟨.number 0, .number 60, .number 9, .number 20⟩ }
    let passes := [[left], [right, below]]
    let size := (history Recording (builtin .standard) { installed := .blocks FontFiles.standard } passes).1
    passes ≠ [] ∧ (∀ records ∈ passes, ∃ es, (Layout.ofRecords records).1 = .ok es) ∧
      IsGreatest (farCorners (fun b => b.x + b.w) passes) (size.x - 1) ∧
      IsGreatest (farCorners (fun b => b.y + b.h) passes) (size.y - 1) := by
  intro left right below passes size
  have hne : passes ≠ [] := by simp [passes]
  have hlayout : ∀ records ∈ passes, ∃ es, (Layout.ofRecords records).1 = .ok es := by
    simp only [passes, List.forall_mem_cons]
    exact ⟨⟨_, rfl⟩, ⟨_, rfl⟩, fun records hrecords => (by cases hrecords)⟩
  have h := history_isGreatest Recording (builtin .standard) { installed := .blocks FontFiles.standard } hne
    hlayout
  exact ⟨hne, hlayout, h.1, h.2.1⟩

end History

end UmlDrawing.Compositor
