import Mathlib.Data.List.Forall2
import UmlDrawing.Line.Points
import UmlDrawing.Proofs.Numeral.Leading
import UmlDrawing.Proofs.Text.Split

/-! Point lists read back. A token that begins with an integer stands for it and any other token for
zero. Tokens stay in their places whatever is written around the integers, and separators and blanks
at the end make no points. -/
namespace UmlDrawing.PointList

/-! Points and their coordinates. -/

/-- The coordinates of some points, one after the other. -/
def coordinates (points : List (Vec Int)) : List Int := points.flatMap fun p => [p.x, p.y]

/-- The points with the given coordinates. A lone one at the end is the first of its point. -/
def ofCoordinates : List Int → List (Vec Int)
  | [] => []
  | [x] => [⟨x, 0⟩]
  | x :: y :: rest => ⟨x, y⟩ :: ofCoordinates rest

lemma coordinates_ofCoordinates (values : List Int) :
    coordinates (ofCoordinates values) = values ++ List.replicate (values.length % 2) 0 := by
  induction values using ofCoordinates.induct with
  | case1 => rfl
  | case2 x => rfl
  | case3 x y rest ih =>
    have hparity : (x :: y :: rest).length % 2 = rest.length % 2 := by
      simp only [List.length_cons]
      omega
    rw [hparity, List.cons_append, List.cons_append, ← ih]
    rfl

lemma ofCoordinates_coordinates (points : List (Vec Int)) :
    ofCoordinates (coordinates points) = points := by
  induction points with
  | nil => rfl
  | cons p points ih =>
    conv => rhs; rw [← ih]
    rfl

lemma ofList_two_singleton (t : Text) : Chunk.ofList 2 true [t] = [[some t, none]] := rfl

lemma ofList_two_cons_cons (t u : Text) (ts : List Text) :
    Chunk.ofList 2 true (t :: u :: ts) = [some t, some u] :: Chunk.ofList 2 true ts := rfl

lemma point_eq_ok {t : Text} {other : Option Text} {x y : Int} (hx : coordinate (some t) = .ok x)
    (hy : coordinate other = .ok y) : point [some t, other] = .ok ⟨x, y⟩ := by
  simp only [point, List.headD_cons, List.tail_cons, hx, hy, ok_bind]
  rfl

/-- Tokens are taken in pairs, the last one with a missing one if need be. -/
lemma mapM_point_ofList {ts : List Text} {values : List Int}
    (h : List.Forall₂ (fun t n => coordinate (some t) = .ok n) ts values) :
    (Chunk.ofList 2 true ts).mapM point = .ok (ofCoordinates values) := by
  induction values using ofCoordinates.induct generalizing ts with
  | case1 =>
    obtain rfl := List.forall₂_nil_right_iff.1 h
    rfl
  | case2 x =>
    obtain ⟨t, ts, ht, hnil, rfl⟩ := List.forall₂_cons_right_iff.1 h
    obtain rfl := List.forall₂_nil_right_iff.1 hnil
    rw [ofList_two_singleton, List.mapM_cons, point_eq_ok ht rfl]
    rfl
  | case3 x y rest ih =>
    obtain ⟨t, ts, ht, htail, rfl⟩ := List.forall₂_cons_right_iff.1 h
    obtain ⟨u, us, hu, hrest, rfl⟩ := List.forall₂_cons_right_iff.1 htail
    rw [ofList_two_cons_cons, List.mapM_cons, point_eq_ok ht hu, ih hrest]
    rfl

/-! The tokens of a list. -/

lemma isEmpty_comp_trim : (List.isEmpty ∘ Text.trim) = Text.allBlank := by
  funext t
  rw [Bool.eq_iff_iff, Text.allBlank_iff_trim_eq_nil]
  exact List.isEmpty_iff

/-- Up to blanks at their ends, the tokens are those that were joined. -/
lemma map_trim_tokens {ts : List Text} {trailing : Text} (hts : ∀ t ∈ ts, ';' ∉ t)
    (hlast : ∀ t, ts.getLast? = some t → Text.allBlank t = false)
    (htrailing : ∀ c ∈ trailing, c = ';' ∨ Text.isBlank c = true) :
    (tokens (Text.join [';'] ts ++ trailing)).map Text.trim = ts.map Text.trim := by
  have hpieces : ∃ n, (Text.splitOn ';' (Text.join [';'] ts ++ trailing)).map Text.trim =
      ts.map Text.trim ++ List.replicate n [] := by
    obtain ⟨n, hn⟩ := Text.map_trim_splitOn_append (t := Text.join [';'] ts) rfl htrailing
    cases ts with
    | nil => exact ⟨n + 1, hn⟩
    | cons t ts =>
      rw [Text.splitOn_join (List.cons_ne_nil t ts) hts] at hn
      exact ⟨n, hn⟩
  have hkept : (ts.map Text.trim).rdropWhile List.isEmpty = ts.map Text.trim := by
    refine List.rdropWhile_eq_self_iff.2 fun hne hempty => ?_
    rw [List.getLast_map, List.isEmpty_iff, ← Text.allBlank_iff_trim_eq_nil,
      hlast _ (List.getLast?_eq_some_getLast _)] at hempty
    cases hempty
  obtain ⟨n, hn⟩ := hpieces
  rw [tokens, List.map_reverse, ← isEmpty_comp_trim, ← List.dropWhile_map, List.map_reverse,
    Text.map_trim_splitOn_trim rfl, hn, List.reverse_append, List.reverse_replicate,
    List.dropWhile_append_of_pos (by simp)]
  exact hkept

lemma coordinate_trim (t : Text) : coordinate (some (Text.trim t)) = coordinate (some t) :=
  Numeral.parseLeading_trim t 0

/-- A list has the points with the coordinates that its tokens have. -/
lemma decode_join {ts : List Text} {values : List Int} {trailing : Text}
    (hvalues : List.Forall₂ (fun t n => coordinate (some t) = .ok n) ts values)
    (hts : ∀ t ∈ ts, ';' ∉ t) (hlast : ∀ t, ts.getLast? = some t → Text.allBlank t = false)
    (htrailing : ∀ c ∈ trailing, c = ';' ∨ Text.isBlank c = true) :
    decode (Text.join [';'] ts ++ trailing) = .ok (ofCoordinates values) := by
  refine mapM_point_ofList ?_
  have htrimmed : List.Forall₂ (fun t n => coordinate (some t) = .ok n) (ts.map Text.trim) values := by
    simpa only [List.forall₂_map_left_iff, coordinate_trim] using hvalues
  rw [← map_trim_tokens hts hlast htrailing] at htrimmed
  simpa only [List.forall₂_map_left_iff, coordinate_trim] using htrimmed

/-! What is written for a coordinate. -/

/-- A coordinate as it may be written: an integer that is not too long, blanks before it, and after
it a text without separators that does not go on with a digit. -/
structure Written where
  before : Text
  value : Int
  after : Text
  isBlank_before : ∀ c ∈ before, Text.isBlank c = true
  length_le : (Text.ofNat value.natAbs).length ≤ Numeral.maxDigits
  not_isDigit_after : ∀ c, after.head? = some c → Text.isDigit c = false
  notMem_after : ';' ∉ after

namespace Written

def text (w : Written) : Text := w.before ++ (Text.ofInt w.value ++ w.after)

lemma coordinate_text (w : Written) : coordinate (some w.text) = .ok w.value :=
  Numeral.parseLeading_ofInt 0 w.isBlank_before w.length_le w.not_isDigit_after

lemma notMem_text (w : Written) : ';' ∉ w.text := by
  have hnumeral : ';' ∉ Text.ofInt w.value := by
    rw [Numeral.ofInt_eq]
    intro hmem
    obtain hsign | hdigit := List.mem_append.1 hmem
    · split at hsign <;> simp at hsign
    · exact absurd (Numeral.isDigit_of_mem_ofNat hdigit) (by decide)
  intro hmem
  obtain hbefore | hmem := List.mem_append.1 hmem
  · exact absurd (w.isBlank_before _ hbefore) (by decide)
  · exact (List.mem_append.1 hmem).elim hnumeral w.notMem_after

/-- There is a digit in it. -/
lemma not_allBlank_text (w : Written) : Text.allBlank w.text = false := by
  refine Bool.eq_false_iff.2 fun hblank => ?_
  obtain ⟨c, digits, hdigits⟩ := List.exists_cons_of_ne_nil (Numeral.ofNat_ne_nil w.value.natAbs)
  have hmem : c ∈ Text.ofNat w.value.natAbs := by simp [hdigits]
  have hc : Text.isBlank c = true := by
    refine Text.allBlank_iff.1 hblank c ?_
    rw [text, Numeral.ofInt_eq]
    simp [hmem]
  have hdigit : Text.isDigit c = true := by
    rw [Text.isDigit, Text.digitValue?_of_isDigit (Numeral.isDigit_of_mem_ofNat hmem)]
    rfl
  rw [Text.isDigit_of_isBlank hc] at hdigit
  cases hdigit

end Written

/-- What a token stands for: the integer that it begins with, and zero if it begins with none. -/
def Denotes (t : Text) (n : Int) : Prop :=
  Numeral.BeginsWith t n ∨ (∀ m, ¬ Numeral.BeginsWith t m) ∧ n = 0

lemma exists_forall₂_denotes {ts : List Text}
    (hshort : ∀ t ∈ ts, ∀ negative digits, Numeral.leading? t = some (negative, digits) →
      digits.length ≤ Numeral.maxDigits) :
    ∃ values, List.Forall₂ (fun t n => coordinate (some t) = .ok n) ts values ∧
      List.Forall₂ Denotes ts values := by
  induction ts with
  | nil => exact ⟨[], .nil, .nil⟩
  | cons t ts ih =>
    obtain ⟨ht, hts⟩ := List.forall_mem_cons.1 hshort
    obtain ⟨n, hn⟩ := Numeral.exists_parseLeading_iff.2 ht
    obtain ⟨values, hread, hdenotes⟩ := ih hts
    exact ⟨n :: values, .cons hn hread, .cons (Numeral.of_parseLeading hn) hdenotes⟩

/-- Points are read back from what may be written for them. And tokens of any kind are read one by
one: each stands for its own coordinate, and only after the last one a zero may be added. -/
theorem decode_written {trailing : Text}
    (htrailing : ∀ c ∈ trailing, c = ';' ∨ Text.isBlank c = true)
    (written : List (Vec Written)) {ts : List Text} (hts : ∀ t ∈ ts, ';' ∉ t)
    (hlast : ∀ t, ts.getLast? = some t → Text.allBlank t = false)
    (hshort : ∀ t ∈ ts, ∀ negative digits, Numeral.leading? t = some (negative, digits) →
      digits.length ≤ Numeral.maxDigits) :
    decode (Text.join [';'] (written.flatMap fun p => [p.x.text, p.y.text]) ++ trailing) =
        .ok (written.map (Vec.map Written.value)) ∧
      ∃ points values, decode (Text.join [';'] ts ++ trailing) = .ok points ∧
        List.Forall₂ Denotes ts values ∧
        coordinates points = values ++ List.replicate (ts.length % 2) 0 := by
  constructor
  · let parts := written.flatMap fun p => [p.x, p.y]
    have hparts : (written.flatMap fun p => [p.x.text, p.y.text]) = parts.map Written.text := by
      simp [parts, List.map_flatMap]
    have hpoints : ofCoordinates (parts.map Written.value) = written.map (Vec.map Written.value) := by
      rw [← ofCoordinates_coordinates (written.map (Vec.map Written.value))]
      simp [parts, coordinates, List.map_flatMap, List.flatMap_map]
    rw [hparts, ← hpoints]
    refine decode_join ?_ ?_ ?_ htrailing
    · rw [List.forall₂_map_left_iff, List.forall₂_map_right_iff, List.forall₂_same]
      exact fun w _ => w.coordinate_text
    · intro t ht
      obtain ⟨w, -, rfl⟩ := List.mem_map.1 ht
      exact w.notMem_text
    · intro t ht
      obtain ⟨w, -, rfl⟩ := List.mem_map.1 (List.mem_of_getLast? ht)
      exact w.not_allBlank_text
  · obtain ⟨values, hread, hdenotes⟩ := exists_forall₂_denotes hshort
    refine ⟨ofCoordinates values, values, decode_join hread hts hlast htrailing, hdenotes, ?_⟩
    rw [coordinates_ofCoordinates, hdenotes.length_eq]

/-- Twelve with a unit after it. -/
def Written.twelve : Written where
  before := [' ']
  value := 12
  after := "px".toList
  isBlank_before := List.all_eq_true.1 rfl
  length_le := by decide
  not_isDigit_after := by
    intro c hc
    obtain rfl := Option.some.inj hc
    decide
  notMem_after := by decide

/-- Minus seven with a fraction after it. -/
def Written.minusSeven : Written where
  before := []
  value := -7
  after := ".5".toList
  isBlank_before := by simp
  length_le := by decide
  not_isDigit_after := by
    intro c hc
    obtain rfl := Option.some.inj hc
    decide
  notMem_after := by decide

/-- A point with a unit and a fraction, and separators after it; and three tokens, the middle one of
which begins with no integer. -/
theorem decode_written_units :
    decode " 12px;-7.5;; ;".toList = .ok [⟨12, -7⟩] ∧
      ∃ points values, decode "5;x6; 7y;; ;".toList = .ok points ∧
        List.Forall₂ Denotes ["5".toList, "x6".toList, " 7y".toList] values ∧
        coordinates points = values ++ [0] := by
  have hshort : ∀ t ∈ ["5".toList, "x6".toList, " 7y".toList], ∀ negative digits,
      Numeral.leading? t = some (negative, digits) → digits.length ≤ Numeral.maxDigits := by
    intro t ht negative digits hfound
    have hall : ∀ t ∈ ["5".toList, "x6".toList, " 7y".toList],
        ((Numeral.leading? t).map fun found => found.2.length).getD 0 ≤ 1 := by decide
    have hlength := hall t ht
    rw [hfound] at hlength
    exact Nat.le_trans hlength (by decide)
  have hblank : Text.isBlank ' ' = true := by decide
  have htrailing : ∀ c ∈ ";; ;".toList, c = ';' ∨ Text.isBlank c = true := by simp [hblank]
  have hts : ∀ t ∈ ["5".toList, "x6".toList, " 7y".toList], ';' ∉ t := by decide
  have hlast : ∀ t, ["5".toList, "x6".toList, " 7y".toList].getLast? = some t →
      Text.allBlank t = false := by
    intro t ht
    obtain rfl := Option.some.inj ht
    decide
  have h := decode_written htrailing [⟨.twelve, .minusSeven⟩] hts hlast hshort
  exact h

end UmlDrawing.PointList
