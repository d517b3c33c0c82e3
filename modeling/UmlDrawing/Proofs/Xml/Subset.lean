import UmlDrawing.Proofs.Xml.Room

/-! Declarations of a document type in a document with more room. They are read with a bound on the
steps, which grows with the room. -/
namespace UmlDrawing.Xml.Parser

variable {α : Type}

lemma foldl_size_le {is js : List Input} (h : Widened is js) (n : Nat) :
    is.foldl (fun n i => n + i.size) n ≤ js.foldl (fun n i => n + i.size) n := by
  induction h generalizing n with
  | outermost h => exact Nat.add_le_add_left h.size n
  | inner i h ih => exact ih (n + i.size)

/-- With more room there are more steps. -/
lemma Covers.stepLimit {f f' : Nat → Parser α} (hf : ∀ n m, n ≤ m → Covers (f n) (f' m)) :
    Covers (stepLimit >>= f) (stepLimit >>= f') := by
  intro s t h
  refine hf _ _ ?_ h
  obtain ⟨h⟩ := h
  exact foldl_size_le h _

lemma interrupt_lasts (t : Text) : Lasts (interrupt t) := by
  unfold interrupt
  refine .get fun s s' ⟨h⟩ => .guarded ?_ (.set ?_)
  · have hlength := h.length_eq
    simp only [List.length_cons] at hlength
    dsimp only
    omega
  · exact .intro (.inner _ h)

lemma parameterReference_lasts : Lasts parameterReference := by
  unfold parameterReference
  refine .bind (.lift _) fun n => .get fun s s' ⟨h⟩ => ?_
  dsimp only
  cases s.doctype.parameters.lookup n with
  | none => exact .bind (undeclared_lasts _) fun _ => noteParameter_lasts
  | some e =>
    cases e with
    | internal t => exact .bind (interrupt_lasts t) fun _ => noteParameter_lasts
    | missing => exact .failure _
    | outside => exact .pure _
    | unparsed => exact .failure _

/-- The text around one that has ended is the same but for its room if it is the outermost. -/
lemma resume_covers {o o' : Input} {l l' : List Input} (h : Widened (o :: l) (o' :: l')) (size : Nat) :
    Covers (do charge size; modify fun s => { s with input := o, around := l })
      (do charge size; modify fun s => { s with input := o', around := l' }) :=
  .bind (charge_lasts size) fun _ => by
    rintro s - ⟨hwide⟩ a s' hrun
    cases hrun
    exact ⟨_, rfl, .intro h⟩

/-- What follows blanks that were found, given the rest of the input and those around it. -/
def gapAfter (blanks : Text) (goOn : Parser Bool) : Text → List Input → Parser Bool
  | [], outer :: around => do
    resume outer around
    let _ ← goOn
    pure true
  | '%' :: r, _ :: _ =>
    if (r.head?.map isBlank).getD true then pure !blanks.isEmpty
    else do
      token "%"
      parameterReference
      let _ ← goOn
      pure true
  | _, _ => pure !blanks.isEmpty

lemma gapWith_succ (fuel : Nat) : gapWith (fuel + 1) = (do
    let blanks ← (Reader.takeWhile isBlank : Reader Text)
    let s ← get
    gapAfter blanks (gapWith fuel) s.input.rest s.around) := by
  rw [gapWith]
  rfl

lemma gapAfter_outermost (blanks : Text) (goOn : Parser Bool) (rest : Text) :
    gapAfter blanks goOn rest [] = pure !blanks.isEmpty := by
  rw [gapAfter]
  · exact fun _ _ _ h => nomatch h
  · exact fun _ _ _ _ h => nomatch h

lemma gapAfter_covers {goOn goOn' : Parser Bool} (h : Covers goOn goOn') {o o' : Input}
    {l l' : List Input} (hwide : Widened (o :: l) (o' :: l')) (blanks : Text) {i : Input} {s t : Reading}
    (hs : s.input = i) (ht : t.input = i) :
    ∃ p q, gapAfter blanks goOn i.rest (o :: l) s = p s ∧ gapAfter blanks goOn' i.rest (o' :: l') t = q t ∧
      Covers p q := by
  have hgoOn : Covers (do let _ ← goOn; pure true) (do let _ ← goOn'; pure true) :=
    .bind h fun _ => .pure _
  cases hrest : i.rest with
  | nil =>
    refine ⟨_, _, ?_, ?_, .bind (resume_covers hwide i.size) fun _ => hgoOn⟩
    · rw [gapAfter, ← hs]
      rfl
    · rw [gapAfter, ← ht]
      rfl
  | cons c r =>
    refine ⟨_, _, rfl, rfl, ?_⟩
    by_cases hc : c = '%'
    · subst hc
      rw [gapAfter, gapAfter]
      refine .ite (.pure _) (.bind (token_lasts "%") fun _ => ?_)
      exact .bind parameterReference_lasts fun _ => hgoOn
    · have hplain (k : Parser Bool) (m : List Input) :
          gapAfter blanks k (c :: r) m = pure !blanks.isEmpty := by
        rw [gapAfter]
        · exact fun _ _ h _ => nomatch h
        · exact fun _ _ _ h _ => hc (List.cons.inj h).1
      rw [hplain, hplain]
      exact .pure _

lemma gapWith_covers {n m : Nat} (h : n ≤ m) : Covers (gapWith n) (gapWith m) := by
  induction n generalizing m with
  | zero => exact .failure _
  | succ n ih =>
    obtain ⟨m, rfl⟩ : ∃ k, m = k + 1 := ⟨m - 1, by omega⟩
    rw [gapWith_succ, gapWith_succ]
    refine .bind (.lift _) fun blanks => .getAt fun s t hwide => ?_
    obtain ⟨hwide⟩ := hwide
    -- the input itself changes with the room, but what is left of it does not
    generalize hi : s.input = i at hwide
    generalize hl : s.around = l at hwide
    cases hwide with
    | outermost hwide =>
      exact ⟨_, _, congrFun (gapAfter_outermost _ _ _) s, congrFun (gapAfter_outermost _ _ _) _, .pure _⟩
    | inner i hwide =>
      obtain ⟨o, l, o', l', rfl, rfl⟩ := hwide.exists_cons
      exact gapAfter_covers (ih (by omega)) hwide blanks hi rfl

lemma gap_lasts : Lasts gap := .stepLimit fun _ _ h => gapWith_covers h

lemma someGap_lasts : Lasts someGap := .bind gap_lasts fun _ => .ite (.pure _) (.failure _)

/-! The declarations. -/

lemma endIn_lasts (number : Nat) : Lasts (endIn number) := by
  unfold endIn
  refine .get fun s t ⟨h⟩ => .guarded ?_ (token_lasts ">")
  rw [h.head.number]
  exact id

lemma looksAtQuote_lasts : Lasts looksAtQuote :=
  .bind (.lift _) fun _ => .bind (.lift _) fun _ => .pure _

lemma externalId?_lasts (alone : Bool) : Lasts (externalId? alone) := by
  unfold externalId?
  dsimp only
  refine .bind (.lift _) fun _ => .ite ?_ (.bind (.lift _) fun _ => .ite ?_ (.pure _))
  · exact .bind someGap_lasts fun _ => .bind (.lift _) fun _ => .pure _
  · refine .bind someGap_lasts fun _ => .bind (.lift _) fun _ => .bind gap_lasts fun _ => ?_
    refine .bind looksAtQuote_lasts fun _ => .ite ?_ (.ite (.pure _) (.failure _))
    exact .bind (.lift _) fun _ => .pure _

lemma checkSystem_lasts (system : Text) : Lasts (checkSystem system) := by
  unfold checkSystem
  cases Uri.ofText? system with
  | none => exact .bind (complain_lasts _) fun _ => .pure _
  | some uri => exact .ite (.failure _) (.pure _)

lemma outsideEntity_lasts : Lasts outsideEntity := by
  unfold outsideEntity
  refine .bind gap_lasts fun _ => .bind (.lift _) fun _ => .ite (.guarded id ?_) (.pure _)
  refine .bind someGap_lasts fun _ => .bind (.lift _) fun _ => .ite ?_ (.pure _)
  exact .bind (.lift _) fun _ => .pure _

lemma entityDefinition_lasts (isParameter : Bool) : Lasts (entityDefinition isParameter) := by
  unfold entityDefinition
  refine .bind looksAtQuote_lasts fun _ => .ite (.bind entityValue_lasts fun _ => .pure _) ?_
  refine .bind (externalId?_lasts false) fun found => ?_
  split
  · refine .bind (checkSystem_lasts _) fun _ => .ite (.pure _) ?_
    exact .map _ outsideEntity_lasts
  · exact .failure _

lemma entityDeclaration_lasts (number : Nat) : Lasts (entityDeclaration number) := by
  unfold entityDeclaration
  refine .bind someGap_lasts fun _ => .bind (.lift _) fun isParameter => ?_
  refine .optionally someGap_lasts fun _ => .bind (.lift _) fun n => ?_
  refine .bind (ensure_lasts _ _) fun _ => .bind someGap_lasts fun _ => ?_
  refine .bind (entityDefinition_lasts isParameter) fun e => .bind gap_lasts fun _ => ?_
  exact .bind (endIn_lasts number) fun _ => .modified fun _ _ ⟨h⟩ => .intro h

/-- The parts of what an element may contain are read with the same steps, if there are as many. -/
lemma parts_covers {n m : Nat} (h : n ≤ m) :
    (∀ depth, Covers (particle depth n) (particle depth m)) ∧
    (∀ depth number, Covers (group depth number n) (group depth number m)) ∧
    ∀ depth number separator,
      Covers (parts depth number separator n) (parts depth number separator m) := by
  -- the three read each other, with one step less
  induction n generalizing m with
  | zero =>
    refine ⟨fun depth => ?_, fun depth number => ?_, fun depth number separator => ?_⟩
    · rw [particle]
      exact .failure _
    · rw [group]
      exact .failure _
    · rw [parts]
      exact .failure _
  | succ n ih =>
    obtain ⟨m, rfl⟩ : ∃ k, m = k + 1 := ⟨m - 1, by omega⟩
    obtain ⟨hparticle, hgroup, hparts⟩ := ih (m := m) (by omega)
    refine ⟨fun depth => ?_, fun depth number => ?_, fun depth number separator => ?_⟩
    · unfold particle
      have hend : Lasts (do let _ ← gap; pure ()) := .bind gap_lasts fun _ => .pure _
      refine .bind gap_lasts fun _ => .bind (.lift _) fun _ => .ite (.get fun s t hwide => ?_) ?_
      · obtain ⟨hwide⟩ := hwide
        rw [hwide.head.number]
        exact .bind (hgroup _ _) fun _ => hend
      · exact .bind (.lift _) fun _ => .bind (.lift _) fun _ => hend
    · unfold group
      refine .guarded id (.bind (hparticle depth) fun _ => .bind (.lift _) fun _ => ?_)
      exact .ite (.bind (hparts _ _ _) fun _ => .lift _) (.bind (hparts _ _ _) fun _ => .lift _)
    · unfold parts
      refine .bind (.lift _) fun _ => .ite (.get fun s t hwide => ?_) ?_
      · obtain ⟨hwide⟩ := hwide
        rw [hwide.head.number]
        exact .ite (.failure _) (.pure _)
      · refine .bind (token_lasts _) fun _ => .bind (hparticle depth) fun _ => ?_
        exact hparts _ _ _

lemma mixedNames_covers (found : Bool) {n m : Nat} (h : n ≤ m) :
    Covers (mixedNames found n) (mixedNames found m) := by
  induction n generalizing m found with
  | zero => exact .failure _
  | succ n ih =>
    obtain ⟨m, rfl⟩ : ∃ k, m = k + 1 := ⟨m - 1, by omega⟩
    unfold mixedNames
    refine .bind gap_lasts fun _ => .bind (.lift _) fun _ => .ite (.pure _) ?_
    refine .bind (token_lasts "|") fun _ => .bind gap_lasts fun _ => .bind (.lift _) fun _ => ?_
    exact ih true (by omega)

lemma contentModel_lasts : Lasts contentModel := by
  unfold contentModel
  refine .bind (.lift _) fun _ => .ite (.pure _) <| .bind (.lift _) fun _ => .ite (.pure _) ?_
  refine .bind (token_lasts "(") fun _ => .get fun s t ⟨hwide⟩ => ?_
  rw [hwide.head.number]
  refine .bind gap_lasts fun _ => .bind (.lift _) fun _ => .ite ?_ ?_
  · refine .stepLimit fun n m hnm => .bind (mixedNames_covers false hnm) fun any => ?_
    refine .get fun s t ⟨hwide⟩ => ?_
    rw [hwide.head.number]
    refine .guarded id (.bind (token_lasts ")") fun _ => .bind (.lift _) fun _ => ?_)
    exact .ite (.failure _) (.pure _)
  · exact .stepLimit fun n m hnm => (parts_covers hnm).2.1 _ _

lemma elementDeclaration_lasts (number : Nat) : Lasts (elementDeclaration number) := by
  unfold elementDeclaration
  refine .bind someGap_lasts fun _ => .bind (.lift _) fun n => .bind someGap_lasts fun _ => ?_
  refine .bind contentModel_lasts fun _ => .bind gap_lasts fun _ => ?_
  refine .bind (endIn_lasts number) fun _ => .get fun s t ⟨h⟩ => ?_
  exact .bind (ensure_lasts _ _) fun _ => .modified fun _ _ ⟨h⟩ => .intro h

lemma alternatives_covers (one : Reader Text) (seen : List Text) {n m : Nat} (h : n ≤ m) :
    Covers (alternatives one seen n) (alternatives one seen m) := by
  induction n generalizing m seen with
  | zero => exact .failure _
  | succ n ih =>
    obtain ⟨m, rfl⟩ : ∃ k, m = k + 1 := ⟨m - 1, by omega⟩
    unfold alternatives
    refine .bind gap_lasts fun _ => .bind (.lift _) fun w => .bind (ensure_lasts _ _) fun _ => ?_
    refine .bind gap_lasts fun _ => .bind (.lift _) fun _ => .ite (.pure _) ?_
    exact .bind (token_lasts "|") fun _ => ih (w :: seen) (by omega)

lemma valueKind_lasts : Lasts valueKind := by
  unfold valueKind
  refine .bind (.lift _) fun found => ?_
  cases found with
  | some kind => exact .pure _
  | none =>
    refine .bind (.lift _) fun ofNotation => .optionally someGap_lasts fun _ => ?_
    refine .bind (token_lasts "(") fun _ => .stepLimit fun n m hnm => ?_
    exact .bind (alternatives_covers _ _ hnm) fun _ => .pure _

lemma attributeDefault_lasts (kind : ValueKind) : Lasts (attributeDefault kind) := by
  unfold attributeDefault
  refine .bind (.lift _) fun _ => .ite (.pure _) <| .bind (.lift _) fun _ => .ite (.pure _) ?_
  refine .bind (.lift _) fun _ => .optionally someGap_lasts fun _ => ?_
  exact .bind (attributeValue_lasts _ _) fun _ => .pure _

lemma declareAttribute_lasts (r : AttributeRule) : Lasts (declareAttribute r) := by
  unfold declareAttribute
  refine .bind (ensure_lasts _ _) fun _ => .guarded id <| .bind (ensure_lasts _ _) fun _ => ?_
  refine .get fun s t ⟨h⟩ => .ite (complain_lasts _) ?_
  exact .bind (ensure_lasts _ _) fun _ => .modified fun _ _ ⟨h⟩ => .intro h

lemma attributeDeclarations_covers (element : Text) (number : Nat) {n m : Nat} (h : n ≤ m) :
    Covers (attributeDeclarations element number n) (attributeDeclarations element number m) := by
  induction n generalizing m with
  | zero => exact .failure _
  | succ n ih =>
    obtain ⟨m, rfl⟩ : ∃ k, m = k + 1 := ⟨m - 1, by omega⟩
    unfold attributeDeclarations
    refine .bind (.lift _) fun _ => .ite (endIn_lasts number) <| .bind (.lift _) fun _ => ?_
    refine .bind someGap_lasts fun _ => .bind valueKind_lasts fun kind => ?_
    refine .bind someGap_lasts fun _ => .bind (attributeDefault_lasts kind) fun value => ?_
    refine .bind (.lift _) fun _ => .optionally someGap_lasts fun _ => ?_
    exact .bind (declareAttribute_lasts _) fun _ => ih (by omega)

lemma attributeDeclaration_lasts (number : Nat) : Lasts (attributeDeclaration number) := by
  unfold attributeDeclaration
  refine .bind someGap_lasts fun _ => .bind (.lift _) fun element => .bind gap_lasts fun _ => ?_
  exact .stepLimit fun n m hnm => attributeDeclarations_covers element number hnm

lemma notationDeclaration_lasts (number : Nat) : Lasts (notationDeclaration number) := by
  unfold notationDeclaration
  refine .bind someGap_lasts fun _ => .bind (.lift _) fun n => .bind (ensure_lasts _ _) fun _ => ?_
  refine .bind someGap_lasts fun _ => .bind (externalId?_lasts true) fun _ => .guarded id ?_
  refine .bind gap_lasts fun _ => .bind (endIn_lasts number) fun _ => .get fun s t ⟨h⟩ => ?_
  exact .bind (ensure_lasts _ _) fun _ => .modified fun _ _ ⟨h⟩ => .intro h

lemma declaration_lasts : Lasts declaration := by
  unfold declaration
  refine .get fun s t ⟨h⟩ => ?_
  rw [h.head.number]
  refine .bind (.lift _) fun _ => .ite (.bind (.lift _) fun _ => .pure _) ?_
  refine .bind (.lift _) fun _ => .ite (entityDeclaration_lasts _) ?_
  refine .bind (.lift _) fun _ => .ite (elementDeclaration_lasts _) ?_
  refine .bind (.lift _) fun _ => .ite (attributeDeclaration_lasts _) ?_
  refine .bind (.lift _) fun _ => .ite (notationDeclaration_lasts _) ?_
  refine .bind (.lift _) fun _ => .ite (.pure _) ?_
  refine .bind (.lift _) fun _ => .ite (.bind instruction_lasts fun _ => .pure _) ?_
  exact .bind (token_lasts "%") fun _ => parameterReference_lasts

lemma declarations_covers {n m : Nat} (h : n ≤ m) : Covers (declarations n) (declarations m) := by
  induction n generalizing m with
  | zero => exact .failure _
  | succ n ih =>
    obtain ⟨m, rfl⟩ : ∃ k, m = k + 1 := ⟨m - 1, by omega⟩
    unfold declarations
    refine .bind gap_lasts fun _ => .get fun s t hwide => ?_
    rw [hwide.isEmpty_around]
    refine .bind (.lift _) fun _ => .ite (.pure _) ?_
    exact .bind declaration_lasts fun _ => ih (by omega)

/-- The type of a document is read in the same way if there is more room. -/
theorem doctype_lasts : Lasts doctype := by
  unfold doctype
  refine .bind (.lift _) fun _ => .bind (.lift _) fun _ => .bind (.lift _) fun _ => ?_
  refine .bind (externalId?_lasts false) fun outside => .optionally noteParameter_lasts fun _ => ?_
  refine .bind (.lift _) fun _ => .bind (.lift _) fun _ => .ite ?_ ?_
  · refine .stepLimit fun n m hnm => .bind (declarations_covers hnm) fun _ => ?_
    exact .bind (.lift _) fun _ => token_lasts ">"
  · exact .bind (.lift _) fun _ => token_lasts ">"

end UmlDrawing.Xml.Parser
