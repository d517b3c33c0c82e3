import UmlDrawing.Line.Style
import UmlDrawing.Proofs.Text.Trim

/-! What a line style says. Its token is cut into a left arrowhead, a body, a right arrowhead and a
rest, each part as long as it can be; with a body between the arrowheads there is only one way to cut
it. -/
namespace UmlDrawing

namespace ArrowKind

/-- A token repeats one character if any two of its characters are the same. -/
lemma uniform_iff {token : Text} : uniform token = true ↔ ∀ a ∈ token, ∀ b ∈ token, a = b := by
  cases token with
  | nil => simp [uniform]
  | cons c r =>
    simp only [uniform, List.all_eq_true, decide_eq_true_eq]
    constructor
    · intro h a ha b hb
      have hc : ∀ d ∈ c :: r, d = c := List.forall_mem_cons.2 ⟨rfl, h⟩
      rw [hc a ha, hc b hb]
    · intro h a ha
      exact h a (List.mem_cons_of_mem _ ha) c (List.mem_cons_self ..)

/-- What the arrowheads of tokens are: none for a token that is empty, mixed or longer than five
characters, and the one with the number of its characters for any other token. -/
structure Names (token : Text) (kind : ArrowKind) : Prop where
  none_iff : kind = none ↔ token = [] ∨ (∃ a ∈ token, ∃ b ∈ token, a ≠ b) ∨ 5 < token.length
  length_eq : kind ≠ none → kind.length = token.length

lemma length_ofLength : ∀ n ≤ 5, (ofLength n).length = n := by decide

lemma eq_none_iff_length_eq_zero {kind : ArrowKind} : kind = none ↔ kind.length = 0 := by
  cases kind <;> simp [length]

lemma supported_iff {token : Text} :
    supported token = true ↔ ¬ ((∃ a ∈ token, ∃ b ∈ token, a ≠ b) ∨ 5 < token.length) := by
  rw [supported, Bool.and_eq_true, uniform_iff, decide_eq_true_eq, not_or, Nat.not_lt]
  push Not
  rfl

theorem names_ofToken (token : Text) : Names token (ofToken token) := by
  by_cases h : supported token = true
  · have hshort : token.length ≤ 5 := (Bool.and_eq_true_iff.1 h).2 |> of_decide_eq_true
    have hlength : (ofToken token).length = token.length := by
      rw [ofToken, if_pos h, length_ofLength _ hshort]
    refine ⟨?_, fun _ => hlength⟩
    rw [eq_none_iff_length_eq_zero, hlength, List.length_eq_zero_iff, or_iff_left (supported_iff.1 h)]
  · have hnone : ofToken token = none := if_neg h
    refine ⟨iff_of_true hnone (.inr ?_), fun hsome => absurd hnone hsome⟩
    rwa [supported_iff, not_not] at h

end ArrowKind

namespace LineStyle

lemma isHead_iff {c : Char} : isHead c = true ↔ c = '<' ∨ c = '>' := by
  rw [isHead, Bool.or_eq_true, beq_iff_eq, beq_iff_eq]

lemma isBody_iff {c : Char} : isBody c = true ↔ c = '-' ∨ c = '.' := by
  rw [isBody, Bool.or_eq_true, beq_iff_eq, beq_iff_eq]

lemma isBlank_of_isHead {c : Char} (h : isHead c = true) : Text.isBlank c = false := by
  obtain rfl | rfl := isHead_iff.1 h <;> decide

lemma isBlank_of_isBody {c : Char} (h : isBody c = true) : Text.isBlank c = false := by
  obtain rfl | rfl := isBody_iff.1 h <;> decide

lemma isHead_of_isBody {c : Char} (h : isBody c = true) : isHead c = false := by
  obtain rfl | rfl := isBody_iff.1 h <;> decide

lemma isBody_of_isHead {c : Char} (h : isHead c = true) : isBody c = false := by
  obtain rfl | rfl := isHead_iff.1 h <;> decide

/-- Whether a style is what a token says. The token is cut into a left arrowhead, a body, a right
arrowhead and a rest, none of which begins with a character that the part before it could go on
with; the rest does not matter. -/
def IsReadOff (token : Text) (style : LineStyle) : Prop :=
  ∃ body rest, token = style.left ++ (body ++ (style.right ++ rest)) ∧
    (∀ c ∈ style.left, isHead c = true) ∧
    (∀ c, (body ++ (style.right ++ rest)).head? = some c → isHead c = false) ∧
    (∀ c ∈ body, isBody c = true) ∧
    (∀ c, (style.right ++ rest).head? = some c → isBody c = false) ∧
    (∀ c ∈ style.right, isHead c = true) ∧
    (∀ c, rest.head? = some c → isHead c = false) ∧ style.dash = .ofBody body

/-- Every token says something. -/
lemma isReadOff_ofToken (token : Text) : IsReadOff token (ofToken token) := by
  let afterLeft := token.dropWhile isHead
  let afterBody := afterLeft.dropWhile isBody
  have hbody : afterLeft.takeWhile isBody ++ afterBody = afterLeft :=
    List.takeWhile_append_dropWhile
  have hright : afterBody.takeWhile isHead ++ afterBody.dropWhile isHead = afterBody :=
    List.takeWhile_append_dropWhile
  refine ⟨afterLeft.takeWhile isBody, afterBody.dropWhile isHead, ?_,
    fun c hc => List.mem_takeWhile_imp hc, ?_, fun c hc => List.mem_takeWhile_imp hc, ?_,
    fun c hc => List.mem_takeWhile_imp hc, Text.head?_dropWhile_eq_false _, rfl⟩
  · change token = token.takeWhile isHead ++ (afterLeft.takeWhile isBody ++
      (afterBody.takeWhile isHead ++ afterBody.dropWhile isHead))
    rw [hright, hbody, List.takeWhile_append_dropWhile]
  · change ∀ c, (afterLeft.takeWhile isBody ++
      (afterBody.takeWhile isHead ++ afterBody.dropWhile isHead)).head? = some c → _
    rw [hright, hbody]
    exact Text.head?_dropWhile_eq_false token
  · change ∀ c, (afterBody.takeWhile isHead ++ afterBody.dropWhile isHead).head? = some c → _
    rw [hright]
    exact Text.head?_dropWhile_eq_false afterLeft

/-- A token says nothing else. -/
theorem ofToken_eq_iff {token : Text} {style : LineStyle} :
    ofToken token = style ↔ IsReadOff token style := by
  constructor
  · rintro rfl
    exact isReadOff_ofToken token
  · obtain ⟨dash, left, right⟩ := style
    rintro ⟨body, rest, rfl, hleft, hafterLeft, hbody, hafterBody, hright, hafterRight, hdash⟩
    simp only [ofToken, Text.takeWhile_append_of_boundary hleft hafterLeft,
      Text.dropWhile_append_of_boundary hleft hafterLeft,
      Text.takeWhile_append_of_boundary hbody hafterBody,
      Text.dropWhile_append_of_boundary hbody hafterBody,
      Text.takeWhile_append_of_boundary hright hafterRight]
    exact congrArg (LineStyle.mk · left right) hdash.symm

variable {left body right rest before after : Text}

/-- What may follow the right arrowhead: nothing that belongs to an arrowhead, and nothing that
belongs to the body unless the arrowhead keeps it apart. -/
def EndsAfter (right rest : Text) : Prop :=
  ∀ c, rest.head? = some c → isHead c = false ∧ (right = [] → isBody c = false)

/-- A token with a body is cut as it is written. -/
lemma ofToken_append (hleft : ∀ c ∈ left, isHead c = true) (hbody : ∀ c ∈ body, isBody c = true)
    (hright : ∀ c ∈ right, isHead c = true) (hne : body ≠ []) (hrest : EndsAfter right rest) :
    ofToken (left ++ body ++ right ++ rest) = ⟨.ofBody body, left, right⟩ := by
  refine ofToken_eq_iff.2 ⟨body, rest, by simp only [List.append_assoc], hleft, ?_, hbody, ?_,
    hright, fun c hc => (hrest c hc).1, rfl⟩
  · obtain ⟨b, body, rfl⟩ := List.exists_cons_of_ne_nil hne
    intro c hc
    obtain rfl := Option.some.inj hc
    exact isHead_of_isBody (hbody b (List.mem_cons_self ..))
  · intro c hc
    cases right with
    | nil => exact (hrest c hc).2 rfl
    | cons d right =>
      obtain rfl := Option.some.inj hc
      exact isBody_of_isHead (hright d (List.mem_cons_self ..))

/-- A property that is such a token is cut as it is written, whatever blanks are around it. -/
lemma decode_padded (hleft : ∀ c ∈ left, isHead c = true) (hbody : ∀ c ∈ body, isBody c = true)
    (hright : ∀ c ∈ right, isHead c = true) (hne : body ≠ []) (hrest : EndsAfter right rest)
    (hbefore : ∀ c ∈ before, Text.isBlank c = true) (hafter : ∀ c ∈ after, Text.isBlank c = true) :
    decode (some (before ++ (left ++ body ++ right ++ rest ++ after))) =
      ⟨.ofBody body, left, right⟩ := by
  have hparts : ∀ c ∈ left ++ body ++ right, Text.isBlank c = false := by
    intro c hc
    rw [List.mem_append, List.mem_append] at hc
    obtain (hc | hc) | hc := hc
    · exact isBlank_of_isHead (hleft c hc)
    · exact isBlank_of_isBody (hbody c hc)
    · exact isBlank_of_isHead (hright c hc)
  have hall : left ++ body ++ right ≠ [] := by simp [hne]
  have htrim : Text.trim (before ++ (left ++ body ++ right ++ rest ++ after)) =
      left ++ body ++ right ++ Text.trimEnd rest := by
    rw [Text.trim_append_of_blank_left hbefore, Text.trim_append_of_blank_right hafter,
      Text.trim_append_of_forall hall hparts]
  have hends : EndsAfter right (Text.trimEnd rest) := by
    obtain ⟨blanks, hblanks⟩ := Text.trimEnd_prefix rest
    intro c hc
    refine hrest c ?_
    rw [← hblanks, List.head?_append, hc]
    rfl
  rw [decode, Option.getD_some, htrim, if_neg (List.append_ne_nil_of_left_ne_nil hall _),
    ofToken_append hleft hbody hright hne hends]

/-- Nothing has to be around the token. -/
lemma decode_append (hleft : ∀ c ∈ left, isHead c = true) (hbody : ∀ c ∈ body, isBody c = true)
    (hright : ∀ c ∈ right, isHead c = true) (hne : body ≠ []) :
    decode (some (left ++ body ++ right)) = ⟨.ofBody body, left, right⟩ := by
  have hrest : EndsAfter right [] := by simp [EndsAfter]
  have hblank : ∀ c ∈ ([] : Text), Text.isBlank c = true := by simp
  simpa using decode_padded hleft hbody hright hne hrest hblank hblank

/-- Every property is read as a line style, that of its token, or of a plain line if it is missing or
blank; the kinds of its ends are those that its arrowheads name. A token with a body between two
arrowheads has these arrowheads and the dash of this body, with blanks around it and anything after
it that the token does not go on with. -/
theorem decode_reads (property : Option Text) (hleft : ∀ c ∈ left, c = '<' ∨ c = '>')
    (hbody : ∀ c ∈ body, c = '-' ∨ c = '.') (hright : ∀ c ∈ right, c = '<' ∨ c = '>')
    (hne : body ≠ [])
    (hrest : ∀ c, rest.head? = some c →
      c ≠ '<' ∧ c ≠ '>' ∧ (right = [] → c ≠ '-' ∧ c ≠ '.'))
    (hbefore : ∀ c ∈ before, Text.isBlank c = true)
    (hafter : ∀ c ∈ after, Text.isBlank c = true) :
    ((Text.trim (property.getD []) = [] ∧ decode property = {} ∨
        IsReadOff (Text.trim (property.getD [])) (decode property)) ∧
      ArrowKind.Names (decode property).left (decode property).leftKind ∧
      ArrowKind.Names (decode property).right (decode property).rightKind) ∧
      ∃ dash : Dash, decode (some (before ++ (left ++ body ++ right ++ rest ++ after))) =
          ⟨dash, left, right⟩ ∧
        (body = ['.'] → dash = .long) ∧ (body = ['.', '.'] → dash = .short) ∧
        (body ≠ ['.'] → body ≠ ['.', '.'] → dash = .solid) := by
  refine ⟨⟨?_, ArrowKind.names_ofToken _, ArrowKind.names_ofToken _⟩, .ofBody body, ?_, ?_, ?_, ?_⟩
  · rw [decode]
    split
    · next hblank => exact .inl ⟨hblank, rfl⟩
    · exact .inr (isReadOff_ofToken _)
  · refine decode_padded (fun c hc => isHead_iff.2 (hleft c hc))
      (fun c hc => isBody_iff.2 (hbody c hc)) (fun c hc => isHead_iff.2 (hright c hc)) hne
      (fun c hc => ?_) hbefore hafter
    obtain ⟨hless, hgreater, hapart⟩ := hrest c hc
    refine ⟨by simp [isHead, hless, hgreater], fun hnone => ?_⟩
    obtain ⟨hdash, hdot⟩ := hapart hnone
    simp [isBody, hdash, hdot]
  · rintro rfl
    rfl
  · rintro rfl
    rfl
  · intro hlong hshort
    rw [Dash.ofBody, if_neg hlong, if_neg hshort]

/-- A filled triangle, a long dash and an open head, with a note after them. -/
theorem decode_reads_long_dash :
    (∀ c ∈ "<<<".toList, c = '<' ∨ c = '>') ∧ (∀ c ∈ ".".toList, c = '-' ∨ c = '.') ∧
      (∀ c ∈ ">".toList, c = '<' ∨ c = '>') ∧
      decode (some " <<<.>- x\t".toList) = ⟨.long, "<<<".toList, ">".toList⟩ ∧
      (decode (some " <<<.>- x\t".toList)).leftKind = .filledTriangle := by
  have hleft : ∀ c ∈ "<<<".toList, c = '<' ∨ c = '>' := by simp
  have hbody : ∀ c ∈ ".".toList, c = '-' ∨ c = '.' := by simp
  have hright : ∀ c ∈ ">".toList, c = '<' ∨ c = '>' := by simp
  have hrest : ∀ c, "- x".toList.head? = some c →
      c ≠ '<' ∧ c ≠ '>' ∧ (">".toList = [] → c ≠ '-' ∧ c ≠ '.') := by
    intro c hc
    obtain rfl := Option.some.inj hc
    decide
  have hbefore : ∀ c ∈ " ".toList, Text.isBlank c = true := List.all_eq_true.1 rfl
  have hafter : ∀ c ∈ "\t".toList, Text.isBlank c = true := List.all_eq_true.1 rfl
  obtain ⟨-, dash, hdecode, hlong, -, -⟩ := decode_reads (some " <<<.>- x\t".toList) hleft hbody
    hright (by decide) hrest hbefore hafter
  obtain rfl := hlong rfl
  have hwritten : decode (some " <<<.>- x\t".toList) = ⟨.long, "<<<".toList, ">".toList⟩ := hdecode
  refine ⟨hleft, hbody, hright, hwritten, ?_⟩
  rw [hwritten]
  rfl

end LineStyle

end UmlDrawing
