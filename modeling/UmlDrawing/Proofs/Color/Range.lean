import Mathlib.Tactic.SplitIfs
import UmlDrawing.Color.Resolve
import UmlDrawing.Proofs.Fault
import UmlDrawing.Proofs.Numeral.Binary64
import UmlDrawing.Proofs.Numeral.Integer
import UmlDrawing.Proofs.Text.Trim

/-! Which colour properties leave the range of colours. A list of components is read without a look
at their size, two hexadecimal digits may be a sign and a digit, and a name may itself be a list of
numbers. All else is in range, can be written, or gives the default. -/
namespace UmlDrawing.Color

open Numeral Scalar

/-- Whether an opacity is in its range. -/
def isPart (a : Scalar) : Bool := Scalar.le (.real 0.0) a && Scalar.le a (.real 1.0)

/-- A list of components that can be read, one of them out of its range. -/
def ListOversteps (source : Text) : Prop :=
  ∃ reds greens blues r g b, parseDecimal reds = .ok r ∧ parseDecimal greens = .ok g ∧
    parseDecimal blues = .ok b ∧
    ((Text.splitOn ',' source = [reds, greens, blues] ∧ ¬ (isByte r && isByte g && isByte b)) ∨
      ∃ parts a, parseReal? parts = some a ∧
        Text.splitOn ',' source = [reds, greens, blues, parts] ∧
        ¬ (isByte r && isByte g && isByte b && isPart (.real a)))

/-- A numeral that reads as a negative number. -/
def Negative (t : Text) : Prop := ∃ n, parseHex t = .ok n ∧ n < 0

/-- Six or eight characters in pairs that can be read, one of them as a negative number. -/
def HexOversteps (source : Text) : Prop :=
  let digits := (Text.dropStart? ['#'] source).getD source
  (digits.length = 6 ∨ digits.length = 8) ∧ (∀ pair ∈ paired digits, ∃ n, parseHex pair = .ok n) ∧
    ∃ pair ∈ paired digits, Negative pair

/-- A property that is read as a colour out of range. -/
def Oversteps (source : Text) : Prop :=
  let t := Text.lower (Text.trim source)
  if (Text.startsWith t "rgb(".toList || Text.startsWith t "rgba(".toList)
      && Text.endsWith t [')'] then
    ListOversteps (((Text.cut? '(' t).map (·.2)).getD []).dropLast
  else if Text.startsWith t ['#'] then HexOversteps (t.drop 1)
  else ∃ c, ofName? (t.filter fun c => c ≠ '_' && c ≠ ' ') = some c ∧ c.inRange = false

lemma inRange_eq (c : Color) :
    c.inRange = (isByte c.r && isByte c.g && isByte c.b && isPart c.a) := by
  simp only [inRange, isPart, Bool.and_assoc]

lemma isPart_one : isPart (.real 1.0) = true := by rfl

/-- A colour can be written if and only if it is in range. -/
theorem text_isOk_iff (c : Color) : (∃ t, c.text = .ok t) ↔ c.inRange = true := by
  constructor
  · rintro ⟨t, ht⟩
    cases hrange : c.inRange with
    | true => rfl
    | false => simp [text, hexDigits, hrange] at ht
  · intro hrange
    have hpart : isPart c.a = true := by
      rw [inRange_eq, Bool.and_eq_true] at hrange
      exact hrange.2
    rw [isPart, Bool.and_eq_true] at hpart
    obtain ⟨scaled, n, hscaled, hn⟩ := truncate_mul_of_mem_unit hpart.1 hpart.2
    rw [text, hexDigits, if_pos hrange]
    split
    · exact ⟨_, rfl⟩
    · rw [hscaled]
      simp only [hn, bind, Except.bind, pure, Except.pure]
      exact ⟨_, rfl⟩

/-- Reading a list of components gives a colour out of range if and only if one of them is. -/
lemma ofList_oversteps_iff (source : Text) :
    (∃ c, ofList source = .ok c ∧ c.inRange = false) ↔ ListOversteps source := by
  constructor
  · rintro ⟨c, hc, hrange⟩
    rw [inRange_eq] at hrange
    unfold ofList at hc
    split at hc
    · next reds greens blues parts hsplit =>
      simp only [bind_eq_ok_iff, pure_eq_ok_iff, orFault_eq_ok_iff] at hc
      obtain ⟨a, ha, r, hr, g, hg, b, hb, rfl⟩ := hc
      refine ⟨reds, greens, blues, r, g, b, hr, hg, hb, .inr ⟨parts, a, ha, hsplit, ?_⟩⟩
      simp [hrange]
    · next reds greens blues hsplit =>
      simp only [bind_eq_ok_iff, pure_eq_ok_iff] at hc
      obtain ⟨r, hr, g, hg, b, hb, rfl⟩ := hc
      simp only [isPart_one, Bool.and_true] at hrange
      exact ⟨reds, greens, blues, r, g, b, hr, hg, hb, .inl ⟨hsplit, by simp [hrange]⟩⟩
    · cases hc
  · rintro ⟨reds, greens, blues, r, g, b, hr, hg, hb, hlist⟩
    obtain ⟨hsplit, hrange⟩ | ⟨parts, a, ha, hsplit, hrange⟩ := hlist
    · refine ⟨{ r := r, g := g, b := b }, ?_, ?_⟩
      · simp only [ofList, hsplit, bind_eq_ok_iff, pure_eq_ok_iff]
        exact ⟨r, hr, g, hg, b, hb, rfl⟩
      · rw [inRange_eq, isPart_one, Bool.and_true]
        exact eq_false_of_ne_true hrange
    · refine ⟨{ r := r, g := g, b := b, a := .real a }, ?_, ?_⟩
      · simp only [ofList, hsplit, bind_eq_ok_iff, pure_eq_ok_iff, orFault_eq_ok_iff]
        exact ⟨a, ha, r, hr, g, hg, b, hb, rfl⟩
      · rw [inRange_eq]
        exact eq_false_of_ne_true hrange

/-- Whether the quotient is an opacity, in range exactly if the dividend is not negative. -/
def dividesToPart (n m : Int) : Bool :=
  match Scalar.div (.whole n) (.whole m) with
  | .ok a => isPart a == decide (0 ≤ n)
  | .error _ => false

-- The least numeral of two characters is a minus sign with the greatest digit.
lemma dividesToPart_byte : ∀ i : Fin 271, dividesToPart ((i : Int) - 15) 255 = true := by
  decide +kernel

lemma dividesToPart_digit : ∀ i : Fin 16, dividesToPart (i : Int) 15 = true := by
  decide +kernel

lemma exists_of_dividesToPart {n m : Int} (h : dividesToPart n m = true) :
    ∃ a, Scalar.div (.whole n) (.whole m) = .ok a ∧ isPart a = decide (0 ≤ n) := by
  unfold dividesToPart at h
  split at h
  · next a ha => exact ⟨a, ha, eq_of_beq h⟩
  · cases h

/-- The last pair of eight digits makes an opacity, in range unless the pair is negative. -/
lemma hexAlpha_pair {c d : Char} {n : Int} (h : parseHex [c, d] = .ok n) :
    ∃ a, hexAlpha [c, d] 255 = .ok a ∧ isPart a = decide (0 ≤ n) := by
  obtain ⟨hlow, hhigh⟩ := parseHex_two_bounds h
  have hdivides := dividesToPart_byte ⟨(n + 15).toNat, by omega⟩
  have hn : (((n + 15).toNat : Nat) : Int) - 15 = n := by omega
  simp only [hn] at hdivides
  rw [hexAlpha, h]
  exact exists_of_dividesToPart hdivides

/-- The last of four digits makes an opacity in range. -/
lemma isPart_of_hexAlpha_digit {c : Char} {a : Scalar} (h : hexAlpha [c] 15 = .ok a) :
    isPart a = true := by
  obtain ⟨n, hn, hdiv⟩ := bind_eq_ok_iff.1 h
  obtain ⟨hlow, hhigh⟩ := parseHex_one_bounds hn
  have hdivides := dividesToPart_digit ⟨n.toNat, by omega⟩
  have hcast : ((n.toNat : Nat) : Int) = n := by omega
  simp only [hcast] at hdivides
  obtain ⟨a', ha', hpart⟩ := exists_of_dividesToPart hdivides
  rw [ha'] at hdiv
  cases hdiv
  rw [hpart]
  exact decide_eq_true hlow

/-- Three numerals make a colour if and only if each of them can be read. -/
lemma ofHexParts_eq_ok_iff {p q s : Text} {alpha : Scalar} {c : Color} :
    ofHexParts [p, q, s] alpha = .ok c ↔
      ∃ r g b, parseHex p = .ok r ∧ parseHex q = .ok g ∧ parseHex s = .ok b ∧
        c = { r := r, g := g, b := b, a := alpha } := by
  simp only [ofHexParts, List.mapM_cons, List.mapM_nil, bind_eq_ok_iff, pure_eq_ok_iff]
  constructor
  · rintro ⟨parts, ⟨r, hr, -, ⟨g, hg, -, ⟨b, hb, -, rfl, rfl⟩, rfl⟩, rfl⟩, heq⟩
    exact ⟨r, g, b, hr, hg, hb, (pure_eq_ok_iff.1 heq).symm⟩
  · rintro ⟨r, g, b, hr, hg, hb, rfl⟩
    exact ⟨_, ⟨r, hr, _, ⟨g, hg, _, ⟨b, hb, _, rfl, rfl⟩, rfl⟩, rfl⟩, rfl⟩

lemma isByte_iff {n : Int} : isByte n = true ↔ 0 ≤ n ∧ n ≤ 255 := by
  simp [isByte]

/-- Digits written twice make a colour whose opacity alone may be out of range. -/
lemma inRange_of_ofHexParts_doubled {d e f : Char} {alpha : Scalar} {c : Color}
    (h : ofHexParts (doubled [d, e, f]) alpha = .ok c) (hpart : isPart alpha = true) :
    c.inRange = true := by
  obtain ⟨r, g, b, hr, hg, hb, rfl⟩ := ofHexParts_eq_ok_iff.1 h
  have hr := isByte_iff.2 (parseHex_doubled_bounds hr)
  have hg := isByte_iff.2 (parseHex_doubled_bounds hg)
  have hb := isByte_iff.2 (parseHex_doubled_bounds hb)
  rw [inRange_eq]
  simp only [hr, hg, hb, hpart, Bool.and_self]

/-- A colour of three pairs is out of range if and only if a pair is negative or its opacity is out
of range. -/
lemma inRange_pairs {a b c d e f : Char} {x y z : Int} {alpha : Scalar}
    (hx : parseHex [a, b] = .ok x) (hy : parseHex [c, d] = .ok y) (hz : parseHex [e, f] = .ok z) :
    Color.inRange { r := x, g := y, b := z, a := alpha } = false ↔
      x < 0 ∨ y < 0 ∨ z < 0 ∨ isPart alpha = false := by
  have hbyte {n : Int} {c d : Char} (h : parseHex [c, d] = .ok n) : isByte n = decide (0 ≤ n) := by
    rw [isByte, decide_eq_true (parseHex_two_bounds h).2, Bool.and_true]
  rw [inRange_eq]
  simp only [hbyte hx, hbyte hy, hbyte hz, Bool.and_eq_false_iff, decide_eq_false_iff_not,
    Int.not_le, or_assoc]

lemma negative_iff {t : Text} {n : Int} (h : parseHex t = .ok n) : Negative t ↔ n < 0 := by
  constructor
  · rintro ⟨m, hm, hneg⟩
    rw [h] at hm
    cases hm
    exact hneg
  · exact fun hneg => ⟨n, h, hneg⟩

/-- Six digits make a colour out of range if and only if their pairs can be read, one of them as
negative. -/
lemma ofHexParts_six {a b c d e f : Char} :
    (∃ color, ofHexParts (paired [a, b, c, d, e, f]) (.real 1.0) = .ok color ∧
        color.inRange = false) ↔
      (∀ pair ∈ paired [a, b, c, d, e, f], ∃ n, parseHex pair = .ok n) ∧
        ∃ pair ∈ paired [a, b, c, d, e, f], Negative pair := by
  have hpairs : paired [a, b, c, d, e, f] = [[a, b], [c, d], [e, f]] := rfl
  simp only [hpairs, List.mem_cons, List.not_mem_nil, or_false, forall_eq_or_imp, forall_eq,
    exists_eq_or_imp, exists_eq_left]
  constructor
  · rintro ⟨color, hcolor, hrange⟩
    obtain ⟨x, y, z, hx, hy, hz, rfl⟩ := ofHexParts_eq_ok_iff.1 hcolor
    rw [inRange_pairs hx hy hz] at hrange
    refine ⟨⟨⟨x, hx⟩, ⟨y, hy⟩, ⟨z, hz⟩⟩, ?_⟩
    simpa [negative_iff hx, negative_iff hy, negative_iff hz, isPart_one] using hrange
  · rintro ⟨⟨⟨x, hx⟩, ⟨y, hy⟩, ⟨z, hz⟩⟩, hneg⟩
    refine ⟨_, ofHexParts_eq_ok_iff.2 ⟨x, y, z, hx, hy, hz, rfl⟩, ?_⟩
    rw [inRange_pairs hx hy hz]
    simpa [negative_iff hx, negative_iff hy, negative_iff hz, isPart_one] using hneg

/-- Eight digits make a colour out of range if and only if their pairs can be read, one of them as
negative. -/
lemma ofHexParts_eight {a b c d e f g h : Char} :
    (∃ color, (do
        let alpha ← hexAlpha [g, h] 255
        ofHexParts (paired [a, b, c, d, e, f]) alpha) = .ok color ∧ color.inRange = false) ↔
      (∀ pair ∈ paired [a, b, c, d, e, f, g, h], ∃ n, parseHex pair = .ok n) ∧
        ∃ pair ∈ paired [a, b, c, d, e, f, g, h], Negative pair := by
  have hpairs : paired [a, b, c, d, e, f, g, h] = [[a, b], [c, d], [e, f], [g, h]] := rfl
  have hcolors : paired [a, b, c, d, e, f] = [[a, b], [c, d], [e, f]] := rfl
  simp only [hpairs, hcolors, List.mem_cons, List.not_mem_nil, or_false, forall_eq_or_imp,
    forall_eq, exists_eq_or_imp, exists_eq_left, bind_eq_ok_iff]
  constructor
  · rintro ⟨color, ⟨alpha, halpha, hcolor⟩, hrange⟩
    obtain ⟨x, y, z, hx, hy, hz, rfl⟩ := ofHexParts_eq_ok_iff.1 hcolor
    obtain ⟨w, hw, -⟩ := bind_eq_ok_iff.1 halpha
    obtain ⟨alpha', halpha', hpart⟩ := hexAlpha_pair hw
    rw [halpha'] at halpha
    cases halpha
    rw [inRange_pairs hx hy hz, hpart] at hrange
    refine ⟨⟨⟨x, hx⟩, ⟨y, hy⟩, ⟨z, hz⟩, ⟨w, hw⟩⟩, ?_⟩
    simpa [negative_iff hx, negative_iff hy, negative_iff hz, negative_iff hw] using hrange
  · rintro ⟨⟨⟨x, hx⟩, ⟨y, hy⟩, ⟨z, hz⟩, ⟨w, hw⟩⟩, hneg⟩
    obtain ⟨alpha, halpha, hpart⟩ := hexAlpha_pair hw
    refine ⟨_, ⟨alpha, halpha, ofHexParts_eq_ok_iff.2 ⟨x, y, z, hx, hy, hz, rfl⟩⟩, ?_⟩
    rw [inRange_pairs hx hy hz, hpart]
    simpa [negative_iff hx, negative_iff hy, negative_iff hz, negative_iff hw] using hneg

/-- Reading hexadecimal digits gives a colour out of range if and only if a pair of six or eight of
them is negative. -/
lemma ofHex_oversteps_iff (source : Text) :
    (∃ c, ofHex source = .ok c ∧ c.inRange = false) ↔ HexOversteps source := by
  unfold ofHex HexOversteps
  generalize (Text.dropStart? ['#'] source).getD source = digits
  match digits with
  | [a, b, c, d, e, f] => simpa using ofHexParts_six
  | [a, b, c, d, e, f, g, h] => simpa using ofHexParts_eight
  | [a, b, c] =>
    refine iff_of_false ?_ (by simp)
    rintro ⟨color, hcolor, hrange⟩
    have h := inRange_of_ofHexParts_doubled hcolor isPart_one
    simp [h] at hrange
  | [a, b, c, d] =>
    refine iff_of_false ?_ (by simp)
    rintro ⟨color, hcolor, hrange⟩
    obtain ⟨alpha, halpha, hcolor⟩ := bind_eq_ok_iff.1 hcolor
    have h := inRange_of_ofHexParts_doubled hcolor (isPart_of_hexAlpha_digit halpha)
    simp [h] at hrange
  | [] => simp
  | [a] => simp
  | [a, b] => simp
  | [a, b, c, d, e] => simp
  | [a, b, c, d, e, f, g] => simp
  | a :: b :: c :: d :: e :: f :: g :: h :: i :: rest => simp

/-- A property is read as a colour out of range if and only if it oversteps. -/
theorem parse_oversteps_iff (source : Text) :
    (∃ c, parse source = .ok c ∧ c.inRange = false) ↔ Oversteps source := by
  simp only [parse, Oversteps]
  generalize Text.lower (Text.trim source) = t
  split_ifs
  · exact ofList_oversteps_iff _
  · exact ofHex_oversteps_iff _
  · simp only [orFault_eq_ok_iff]

lemma not_oversteps_of_allBlank {source : Text} (h : Text.allBlank source = true) :
    ¬ Oversteps source := by
  have hparse : parse source = parse [] := by
    rw [parse, Text.allBlank_iff_trim_eq_nil.1 h]
    rfl
  rw [← parse_oversteps_iff, hparse]
  rintro ⟨c, hc, -⟩
  have hnamed : named? [] = none := by simp [named?, names]
  have hname : ofName? [] = none := by
    rw [ofName?, hnamed]
    rfl
  have herror : parse [] = .error (.unknownColor []) := by
    change orFault (.unknownColor []) (ofName? []) = _
    rw [hname]
    rfl
  rw [herror] at hc
  cases hc

/-- A default in range can be written. -/
lemma defaultText_isOk {default : Option Color} (h : ∀ c ∈ default, c.inRange = true) :
    ∃ t, defaultText default = .ok t := by
  cases default with
  | none => exact ⟨_, rfl⟩
  | some c => exact (text_isOk_iff c).2 (h c rfl)

/-- A colour property is resolved, whatever it says. -/
lemma exists_resolve (property : Option Text) {default : Option Color}
    (h : ∀ c ∈ default, c.inRange = true) :
    ∃ color notes, resolve property default = .ok (color, notes) := by
  cases property with
  | none => exact ⟨default, [], rfl⟩
  | some value =>
    rw [resolve]
    split
    · exact ⟨default, [], rfl⟩
    · split
      · next c _ => exact ⟨some c, [], rfl⟩
      · obtain ⟨written, hwritten⟩ := defaultText_isOk h
        rw [hwritten]
        exact ⟨default, _, rfl⟩

/-- A colour property is always resolved. The colour is the default or in range, and can be
written, if and only if the property does not overstep. -/
theorem resolve_inRange_iff (property : Option Text) (default : Option Color)
    (h : ∀ c ∈ default, c.inRange = true) :
    ∃ color notes, resolve property default = .ok (color, notes) ∧
      ((color = default ∨ ∃ c, color = some c ∧ c.inRange = true) ↔
        ¬ ∃ value ∈ property, Oversteps value) ∧
      ((∀ c ∈ color, ∃ t, c.text = .ok t) ↔ ¬ ∃ value ∈ property, Oversteps value) := by
  have hdefault (hsafe : ¬ ∃ value ∈ property, Oversteps value) :
      ((default = default ∨ ∃ c, default = some c ∧ c.inRange = true) ↔
        ¬ ∃ value ∈ property, Oversteps value) ∧
      ((∀ c ∈ default, ∃ t, c.text = .ok t) ↔ ¬ ∃ value ∈ property, Oversteps value) := by
    refine ⟨iff_of_true (.inl rfl) hsafe, iff_of_true ?_ hsafe⟩
    exact fun c hc => (text_isOk_iff c).2 (h c hc)
  cases property with
  | none => exact ⟨default, [], rfl, hdefault (by simp)⟩
  | some value =>
    have hsome : (∃ v ∈ some value, Oversteps v) ↔ Oversteps value := by simp
    rw [hsome] at hdefault ⊢
    rw [resolve]
    split
    · next hblank =>
      exact ⟨default, [], rfl, hdefault (not_oversteps_of_allBlank hblank)⟩
    · split
      · next c hc =>
        refine ⟨some c, [], rfl, ?_⟩
        have hiff : c.inRange = true ↔ ¬ Oversteps value := by
          rw [← parse_oversteps_iff, hc]
          simp
        have hfinal : (∀ d ∈ some c, ∃ t, d.text = .ok t) ↔ ¬ Oversteps value := by
          simp [text_isOk_iff, hiff]
        refine ⟨?_, hfinal⟩
        constructor
        · rintro (rfl | ⟨d, hd, hrange⟩)
          · exact hiff.1 (h c rfl)
          · cases hd
            exact hiff.1 hrange
        · exact fun hsafe => .inr ⟨c, rfl, hiff.2 hsafe⟩
      · next fault hfault =>
        obtain ⟨written, hwritten⟩ := defaultText_isOk h
        rw [hwritten]
        refine ⟨default, _, rfl, hdefault ?_⟩
        rw [← parse_oversteps_iff, hfault]
        simp

lemma black_inRange : ∀ c ∈ some black, c.inRange = true := by
  rintro c ⟨⟩
  rfl

/-- Two hexadecimal digits may be a sign and a digit. -/
theorem resolve_inRange_iff_negative_pairs :
    ∃ color notes, resolve (some "#-1-1-1".toList) (some black) = .ok (color, notes) ∧
      ¬ (color = some black ∨ ∃ c, color = some c ∧ c.inRange = true) ∧
      ¬ ∀ c ∈ color, ∃ t, c.text = .ok t := by
  obtain ⟨color, notes, hresolve, hrange, htext⟩ :=
    resolve_inRange_iff (some "#-1-1-1".toList) (some black) black_inRange
  have hover : Oversteps "#-1-1-1".toList := by
    have hlower : Text.lower (Text.trim "#-1-1-1".toList) = "#-1-1-1".toList := by rfl
    refine (parse_oversteps_iff _).1 ⟨{ r := -1, g := -1, b := -1 }, ?_, by rfl⟩
    rw [parse, hlower]
    rfl
  refine ⟨color, notes, hresolve, fun h => hrange.1 h ?_, fun h => htext.1 h ?_⟩
  · exact ⟨_, rfl, hover⟩
  · exact ⟨_, rfl, hover⟩

/-- The components of a list are taken as they are. -/
theorem resolve_rgb_300 :
    (∀ c ∈ some black, c.inRange = true) ∧
      (¬ ∃ color notes, resolve (some "rgb(300, 0, 0)".toList) (some black) = .ok (color, notes) ∧
        (color = some black ∨ ∃ c, color = some c ∧ c.inRange = true)) ∧
      ∃ c, resolve (some "rgb(300, 0, 0)".toList) (some black) = .ok (some c, []) ∧
        c.text = .error .componentRange := by
  have hlower : Text.lower (Text.trim "rgb(300, 0, 0)".toList) = "rgb(300, 0, 0)".toList := by rfl
  have hparse : parse "rgb(300, 0, 0)".toList = .ok { r := 300, g := 0, b := 0 } := by
    rw [parse, hlower]
    rfl
  have hresolve : resolve (some "rgb(300, 0, 0)".toList) (some black) =
      .ok (some { r := 300, g := 0, b := 0 }, []) := by
    rw [resolve, hparse]
    rfl
  have hrange : Color.inRange { r := 300, g := 0, b := 0 } = false := by rfl
  refine ⟨black_inRange, ?_, _, hresolve, by simp [text, hexDigits, hrange]⟩
  rintro ⟨color, notes, h, heq | ⟨c, heq, hc⟩⟩
  · rw [hresolve, heq] at h
    simp [black] at h
  · rw [hresolve, heq] at h
    simp at h
    rw [← h.1, hrange] at hc
    cases hc

end UmlDrawing.Color
