import UmlDrawing.Proofs.Color.Range
import UmlDrawing.Proofs.Numeral.Rounded
import UmlDrawing.Svg.Document

/-! What vector graphics can write. A finite number is written without the letter that marks what is
no measure, a path of finite points has text exactly if it has pieces, and a colour in range is
written with the same six digits whatever its opacity. -/
namespace UmlDrawing

namespace Decimal

lemma notMem_toDigits (k : Nat) : 'n' ∉ Nat.toDigits 10 k := by
  intro h
  have hdigit := Nat.isDigit_of_mem_toDigits (by decide) (by decide) h
  exact absurd hdigit (by decide)

lemma notMem_point (places k : Nat) : 'n' ∉ point places k := by
  have hwhole (j : Nat) : 'n' ∉ Text.ofNat j := notMem_toDigits j
  unfold point
  split
  · exact hwhole k
  · simp [hwhole, notMem_toDigits]

lemma subset_dropTrailingZeros (t : Text) : dropTrailingZeros t ⊆ t := by
  intro c h
  rw [dropTrailingZeros, List.mem_reverse] at h
  exact List.mem_reverse.1 ((List.dropWhile_suffix _).subset h)

lemma notMem_dropFractionZeros {t : Text} (h : 'n' ∉ t) : 'n' ∉ dropFractionZeros t := by
  have hkept : 'n' ∉ dropTrailingZeros t := fun hmem => h (subset_dropTrailingZeros t hmem)
  simp only [dropFractionZeros]
  split
  · split
    · exact fun hmem => hkept (List.mem_of_mem_dropLast hmem)
    · exact hkept
  · exact h

lemma notMem_powerMark (k : Int) : 'n' ∉ powerMark k := by
  simp only [powerMark]
  split <;> simp [notMem_toDigits]

lemma notMem_scientific {t : Text} (h : 'n' ∉ t) (k : Int) : 'n' ∉ scientific t k := by
  have hmark := notMem_powerMark k
  match t with
  | [] => simp [scientific]
  | [d] =>
    simp only [List.mem_singleton] at h
    simp [scientific, h, hmark]
  | d :: e :: r =>
    simp only [List.mem_cons, not_or] at h
    simp [scientific, h, hmark]

lemma notMem_sixDigits (num den : Nat) : 'n' ∉ sixDigits num den := by
  have hwritten (r : Nat × Int) : 'n' ∉ (if -4 ≤ r.2 ∧ r.2 < 6 then
      dropFractionZeros (point (5 - r.2).toNat r.1)
      else scientific (dropTrailingZeros (Text.ofNat r.1)) r.2) := by
    split
    · exact notMem_dropFractionZeros (notMem_point _ _)
    · exact notMem_scientific (fun h => notMem_toDigits _ (subset_dropTrailingZeros _ h)) _
  exact hwritten _

/-- A finite number is written without the letter of the words for infinite and undefined ones. -/
theorem notMem_general {x : Float} (h : x.isFinite = true) : 'n' ∉ general x := by
  obtain ⟨negative, m, e, hvalue⟩ := Binary64.value_of_isFinite h
  have hsign {t : Text} (ht : 'n' ∉ t) : 'n' ∉ withSign negative t := by
    unfold withSign
    split
    · simp [ht]
    · exact ht
  simp only [general, hvalue]
  split
  · exact hsign (by decide)
  · exact hsign (notMem_sixDigits _ _)

end Decimal

/-- A number that has a finite double. -/
def Scalar.Measurable (a : Scalar) : Prop := ∃ x, a.toFloat = .ok x ∧ x.isFinite = true

/-- A number that has a double, which need not be finite. -/
def Scalar.HasDouble (a : Scalar) : Prop := ∃ x, a.toFloat = .ok x

/-- A point with finite coordinates. -/
def Vec.Measurable (v : Vec Scalar) : Prop := v.x.Measurable ∧ v.y.Measurable

/-- A point whose coordinates are doubles. -/
def Vec.ofReals (x y : Float) : Vec Scalar := ⟨.real x, .real y⟩

/-- A piece of a path that can be written: it has points and they are finite, or it is an ellipse
that was measured in doubles. -/
def Subpath.Writable (s : Subpath Scalar) : Prop :=
  match s.ellipse with
  | none => s.points ≠ [] ∧ ∀ p ∈ s.points, p.Measurable
  | some (center, radii) => ∃ a b c d, center = .ofReals a b ∧ radii = .ofReals c d

namespace Svg

variable {a : Scalar} {v : Vec Scalar}

lemma number_real (x : Float) : ∃ t, number (.real x) = .ok t := ⟨_, rfl⟩

lemma number_of_hasDouble (h : a.HasDouble) : ∃ t, number a = .ok t := by
  cases a with
  | whole n =>
    obtain ⟨x, hx⟩ := h
    simp only [number, Scalar.thousandths, hx]
    exact ⟨_, rfl⟩
  | real x => exact number_real x

lemma hasDouble_of_number {a : Scalar} {t : Text} (h : number a = .ok t) : a.HasDouble := by
  cases a with
  | whole n =>
    obtain ⟨x, hx, -⟩ := bind_eq_ok_iff.1 h
    exact ⟨x, hx⟩
  | real x => exact ⟨x, rfl⟩

lemma hasDouble_of_point {v : Vec Scalar} {t : Text} (h : point v = .ok t) :
    v.x.HasDouble ∧ v.y.HasDouble := by
  obtain ⟨x, hx, h⟩ := bind_eq_ok_iff.1 h
  obtain ⟨y, hy, -⟩ := bind_eq_ok_iff.1 h
  exact ⟨hasDouble_of_number hx, hasDouble_of_number hy⟩

/-- A finite number is written as a measure. -/
theorem number_of_measurable (h : a.Measurable) : ∃ t, number a = .ok t ∧ isMeasure t = true := by
  obtain ⟨x, hx, hfinite⟩ : ∃ x, a.thousandths.toFloat = .ok x ∧ x.isFinite = true := by
    obtain ⟨x, hx, hfinite⟩ := h
    cases a with
    | whole n => exact ⟨x, hx, hfinite⟩
    | real y =>
      cases hx
      exact ⟨_, rfl, Decimal.isFinite_roundPlaces 3 hfinite⟩
  refine ⟨Decimal.general x, by simp only [number, hx]; rfl, ?_⟩
  have hnotin := Decimal.notMem_general hfinite
  simp [isMeasure, hnotin]

lemma point_of_measurable (h : v.Measurable) : ∃ t, point v = .ok t ∧ isMeasure t = true := by
  obtain ⟨x, hx, hxm⟩ := number_of_measurable h.1
  obtain ⟨y, hy, hym⟩ := number_of_measurable h.2
  refine ⟨x ++ ',' :: y, by simp only [point, hx, hy]; rfl, ?_⟩
  simp only [isMeasure, Bool.not_eq_true', List.elem_eq_mem, decide_eq_false_iff_not] at hxm hym ⊢
  simp [hxm, hym]

lemma measured_of_isMeasure {t : Text} (h : isMeasure t = true) : measured t = .ok t :=
  if_pos h

/-- A piece that can be written has steps, the first of them with text. -/
lemma subpathSteps_of_writable {s : Subpath Scalar} (h : s.Writable) :
    ∃ t ts, subpathSteps s = .ok (t :: ts) ∧ t ≠ [] := by
  unfold Subpath.Writable at h
  unfold subpathSteps
  split at h
  · next hellipse =>
    rw [hellipse]
    obtain ⟨hpoints, hmeasurable⟩ := h
    cases hs : s.points with
    | nil => exact absurd hs hpoints
    | cons first rest =>
      rw [hs] at hmeasurable
      obtain ⟨t, ht, -⟩ := point_of_measurable (hmeasurable first (by simp))
      obtain ⟨ts, hts⟩ : ∃ ts, rest.mapM point = .ok ts := exists_mapM fun v hv => by
        obtain ⟨t, ht, -⟩ := point_of_measurable (hmeasurable v (List.mem_cons_of_mem _ hv))
        exact ⟨t, ht⟩
      simp only [polylineSteps, ht, hts]
      exact ⟨_, _, rfl, List.cons_ne_nil _ _⟩
  · next hellipse =>
    rw [hellipse]
    obtain ⟨a, b, c, d, rfl, rfl⟩ := h
    exact ⟨_, _, rfl, List.cons_ne_nil _ _⟩

lemma join_ne_nil {t : Text} (sep : Text) (ts : List Text) (h : t ≠ []) :
    Text.join sep (t :: ts) ≠ [] := by
  cases ts with
  | nil => exact h
  | cons u ts =>
    rw [Text.join]
    simp [h]

/-- A path of pieces that can be written can be written, and as nothing only if it has none. -/
theorem pathData_of_writable {path : List (Subpath Scalar)} (h : ∀ s ∈ path, s.Writable) :
    ∃ t, pathData path = .ok t ∧ (t = [] ↔ path = []) := by
  cases path with
  | nil => exact ⟨[], rfl, by simp⟩
  | cons s path =>
    obtain ⟨t, ts, hs, ht⟩ := subpathSteps_of_writable (h s (by simp))
    obtain ⟨steps, hrest⟩ : ∃ steps, path.mapM subpathSteps = .ok steps :=
      exists_mapM fun s hs => by
        obtain ⟨t, ts, hs, -⟩ := subpathSteps_of_writable (h s (List.mem_cons_of_mem _ hs))
        exact ⟨t :: ts, hs⟩
    refine ⟨Text.join [' '] (((t :: ts) :: steps).flatten), ?_, ?_⟩
    · rw [pathData, List.mapM_cons, hs, hrest]
      rfl
    · rw [List.flatten_cons, List.cons_append]
      exact iff_of_false (join_ne_nil _ _ ht) (List.cons_ne_nil _ _)

end Svg

namespace Scalar

/-- A whole number from zero to one. -/
lemma whole_of_mem_unit {k : Int} (hnonneg : le (.real 0.0) (.whole k) = true)
    (hle : le (.whole k) (.real 1.0) = true) : k = 0 ∨ k = 1 := by
  have hzero : Binary64.value 0.0 = .finite false 0 (.negSucc 1073) := by rfl
  have hone : Binary64.value 1.0 = .finite false (2 ^ 52) (-52) := by rfl
  have hratio : Binary64.ratio (2 ^ 52) (-52) = (2 ^ 52, 2 ^ 52) := by rfl
  have hleast (e : Nat) : ∃ d, 0 < d ∧ Binary64.ratio 0 (.negSucc e) = (0, d) :=
    ⟨_, Nat.two_pow_pos _, rfl⟩
  obtain ⟨d, hd, hlow⟩ := hleast 1073
  simp only [le, lt, same, floatLtInt, intLtFloat, intEqFloat, hzero, hone, hratio, hlow,
    Bool.or_eq_true, decide_eq_true_eq, Bool.false_eq_true, if_false] at hnonneg hle
  have hlower : 0 ≤ k := by
    refine nonneg_of_mul_nonneg_left (b := (d : Int)) ?_ (by omega)
    omega
  omega

end Scalar

namespace Color

variable {c : Color} {alpha : Scalar}

lemma mem_unit_of_inRange (h : c.inRange = true) :
    Scalar.le (.real 0.0) c.a = true ∧ Scalar.le c.a (.real 1.0) = true := by
  simp only [inRange, Bool.and_eq_true] at h
  exact ⟨h.1.2, h.2⟩

lemma hasDouble_of_inRange (h : c.inRange = true) : c.a.HasDouble := by
  obtain ⟨hnonneg, hle⟩ := mem_unit_of_inRange h
  cases ha : c.a with
  | real x => exact ⟨x, rfl⟩
  | whole k =>
    rw [ha] at hnonneg hle
    obtain rfl | rfl := Scalar.whole_of_mem_unit hnonneg hle
    · exact ⟨0.0, by rfl⟩
    · exact ⟨1.0, by rfl⟩

/-- The product of the opacity of a colour and a number that has a double has one itself. -/
lemma mul_hasDouble (h : c.inRange = true) (halpha : alpha.HasDouble) :
    ∃ o, Scalar.mul c.a alpha = .ok o ∧ o.HasDouble := by
  obtain ⟨y, hy⟩ := halpha
  obtain ⟨x, hx⟩ := hasDouble_of_inRange h
  obtain ⟨hnonneg, hle⟩ := mem_unit_of_inRange h
  cases ha : c.a with
  | real z =>
    refine ⟨.real (z * y), ?_, _, rfl⟩
    simp only [Scalar.mul, Scalar.lift, Scalar.toFloat] at hy ⊢
    cases alpha <;> simp only [hy] <;> rfl
  | whole k =>
    rw [ha] at hx hnonneg hle
    cases alpha with
    | real z =>
      refine ⟨.real (x * z), ?_, _, rfl⟩
      simp only [Scalar.mul, Scalar.lift, hx]
      rfl
    | whole n =>
      refine ⟨.whole (k * n), rfl, ?_⟩
      obtain rfl | rfl := Scalar.whole_of_mem_unit hnonneg hle
      · rw [Int.zero_mul]
        exact ⟨0.0, by rfl⟩
      · rw [Int.one_mul]
        exact ⟨y, hy⟩

lemma length_hexByte : ∀ n : Fin 256, (hexByte (n : Nat)).length = 2 := by decide +kernel

lemma length_hexByte_of_isByte {n : Int} (h : isByte n = true) : (hexByte n).length = 2 := by
  obtain ⟨hnonneg, hle⟩ := isByte_iff.1 h
  obtain ⟨k, rfl⟩ := Int.eq_ofNat_of_zero_le hnonneg
  exact length_hexByte ⟨k, by omega⟩

/-- At full opacity a colour is written with the same six digits. -/
theorem fullText_of_inRange (h : c.inRange = true) :
    ∃ t, c.text = .ok t ∧ c.fullText = .ok (t.take 7) := by
  obtain ⟨t, ht⟩ := (text_isOk_iff c).2 h
  refine ⟨t, ht, ?_⟩
  have hbytes := h
  rw [inRange_eq] at hbytes
  simp only [Bool.and_eq_true] at hbytes
  obtain ⟨⟨⟨hr, hg⟩, hb⟩, -⟩ := hbytes
  have hlength : (hexByte c.r ++ hexByte c.g ++ hexByte c.b).length = 6 := by
    simp only [List.length_append, length_hexByte_of_isByte hr, length_hexByte_of_isByte hg,
      length_hexByte_of_isByte hb]
  have hfull : c.full.inRange = true := by
    rw [inRange_eq]
    simp only [full, hr, hg, hb, isPart_one, Bool.and_self]
  have hone : Scalar.le (.real 1.0) (.real 1.0) = true := by rfl
  have htake : t.take 7 = '#' :: (hexByte c.r ++ hexByte c.g ++ hexByte c.b) := by
    rw [text, hexDigits, if_pos h] at ht
    obtain ⟨digits, hdigits, ht⟩ := bind_eq_ok_iff.1 ht
    cases ht
    dsimp only at hdigits
    split at hdigits
    · cases hdigits
      rw [List.take_succ_cons, List.take_of_length_le (by rw [hlength])]
    · obtain ⟨scaled, -, hdigits⟩ := bind_eq_ok_iff.1 hdigits
      obtain ⟨part, -, hdigits⟩ := bind_eq_ok_iff.1 hdigits
      cases hdigits
      rw [List.take_succ_cons, List.take_left' hlength]
  rw [htake, fullText, text, hexDigits, if_pos hfull]
  simp only [full, hone, if_true]
  rfl

end Color

end UmlDrawing
