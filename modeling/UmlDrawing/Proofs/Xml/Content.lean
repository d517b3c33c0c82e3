import UmlDrawing.Proofs.Xml.Subset

/-! Elements and documents with more room. -/
namespace UmlDrawing.Xml.Parser

lemma bind_lasts (g : Given) (label resource : Text) : Lasts (g.bind label resource) := by
  unfold Given.bind
  refine .bind (complainAll_lasts _) fun _ => ?_
  exact .ite (.pure _) (.ite (.failure _) (.pure _))

lemma givenAttribute_lasts (levels : Nat) (element : QName) (g : Given) :
    Lasts (givenAttribute levels element g) := by
  unfold givenAttribute
  refine .bind (.lift _) fun ⟨n, isProper⟩ => .bind (ensure_lasts _ _) fun _ => ?_
  refine .bind (.lift _) fun _ => .bind (attributeValue_lasts _ _) fun ⟨v, undeclared⟩ => ?_
  refine .get fun s t ⟨h⟩ => .optionally (ensure_lasts _ _) fun _ => ?_
  dsimp only
  cases Scope.bound? n with
  | none => exact .pure _
  | some label => exact bind_lasts _ _ _

lemma attributes_lasts (levels : Nat) (element : QName) (g : Given) (fuel : Nat) :
    Lasts (attributes levels element g fuel) := by
  induction fuel generalizing g with
  | zero => exact .failure _
  | succ fuel ih =>
    unfold attributes
    refine .bind (.lift _) fun _ => .bind (.lift _) fun _ => .ite (.pure _) ?_
    refine .bind (.lift _) fun _ => .ite (.pure _) (.ite (.failure _) ?_)
    exact .bind (givenAttribute_lasts _ _ _) fun g => ih g

lemma defaults_lasts (element : QName) : Lasts (defaults element) := by
  unfold defaults
  exact .get fun s t ⟨h⟩ => .pure _

lemma addDefaults_lasts (scope : Scope) (names : List (QName × Option Text))
    (defaults : List (QName × Text)) : Lasts (addDefaults scope names defaults) := by
  induction defaults generalizing names with
  | nil => exact .pure _
  | cons d rest ih =>
    unfold addDefaults
    refine .ite (.bind (charge_lasts _) fun _ => ih names) ?_
    dsimp only
    refine .bind (complainAll_lasts _) fun _ => ?_
    split
    · exact .bind (ensure_lasts _ _) fun _ => ih names
    · exact .bind (charge_lasts _) fun _ => ih _

lemma identify_lasts (v : Text) : Lasts (identify v) := by
  unfold identify
  refine .ite (.pure _) <| .get fun s t ⟨h⟩ => .ite (complain_lasts _) ?_
  exact .modified fun _ _ ⟨h⟩ => .intro h

lemma identifyBy_lasts (element : QName) (a : QName × Text) : Lasts (identifyBy element a) := by
  unfold identifyBy
  refine .ite (.pure _) (.ite (.bind (ensure_lasts _ _) fun _ => identify_lasts _) ?_)
  exact .get fun s t ⟨h⟩ => .ite (identify_lasts _) (.pure _)

lemma openElement_lasts (scope : Scope) (n : QName) (g : Given) : Lasts (openElement scope n g) := by
  unfold openElement
  refine .bind (defaults_lasts n) fun defaults => ?_
  refine .bind (.forM (fun _ => complainAll_lasts _) _) fun _ => ?_
  split
  · exact .failure _
  · refine .bind (complainAll_lasts _) fun _ => .bind (addDefaults_lasts _ _ _) fun _ => ?_
    refine .bind (ensure_lasts _ _) fun _ => .bind (.forM (identifyBy_lasts n) _) fun _ => ?_
    exact .pure _

lemma startTag_lasts (levels : Nat) (scope : Scope) (fuel : Nat) :
    Lasts (startTag levels scope fuel) := by
  unfold startTag
  refine .bind (.lift _) fun ⟨n, isProper⟩ => .bind (ensure_lasts _ _) fun _ => ?_
  refine .bind (attributes_lasts _ _ _ _) fun ⟨g, isClosed⟩ => ?_
  exact .bind (openElement_lasts _ _ _) fun _ => .pure _

/-! Content, where entities are used. -/

section Content

variable {expand : Expansion} (hexpand : ∀ t scope, Lasts (expand t scope))

include hexpand

lemma useInContent_lasts (scope : Scope) (n : Text) : Lasts (useInContent expand scope n) := by
  unfold useInContent
  refine .get fun s t ⟨h⟩ => ?_
  dsimp only
  cases s.doctype.entity? n with
  | none => exact undeclared_lasts _
  | some e =>
    cases e with
    | outside => exact .pure _
    | internal t =>
      refine .ite (charge_lasts _) (.bind (hexpand t scope) fun size => ?_)
      exact .bind (.modified fun _ _ ⟨h⟩ => .intro h) fun _ => charge_lasts _
    | missing => exact .failure _
    | unparsed => exact .failure _

lemma reference_lasts (scope : Scope) : Lasts (reference expand scope) := by
  unfold reference
  refine .bind (.lift _) fun _ => .ite (.bind (.lift _) fun _ => .pure _) ?_
  refine .bind (.lift _) fun n => ?_
  cases predefined? n with
  | some c => exact .pure _
  | none => exact .bind (useInContent_lasts hexpand scope n) fun _ => .pure _

lemma simpleNode?_lasts (scope : Scope) : Lasts (simpleNode? expand scope) := by
  unfold simpleNode?
  refine .bind (.lift _) fun _ => .ite (.bind (.lift _) fun _ => .pure _) ?_
  refine .bind (.lift _) fun _ => .ite (.bind (.lift _) fun _ => .pure _) ?_
  refine .bind (.lift _) fun _ => .ite (.bind instruction_lasts fun _ => .pure _) ?_
  refine .bind (.lift _) fun _ => .ite (.map _ (reference_lasts hexpand scope)) ?_
  refine .bind (.lift _) fun _ => .ite (.pure _) (.bind (.lift _) fun _ => .pure _)

lemma contentWith_lasts (levels fuel : Nat) (outer : List OpenElement) (e : OpenElement) :
    Lasts (contentWith levels expand fuel outer e) := by
  induction fuel generalizing outer e with
  | zero => exact .failure _
  | succ fuel ih =>
    unfold contentWith
    refine .bind atEnd_lasts fun _ => .ite (.ite (.pure _) (.failure _)) ?_
    refine .bind (.lift _) fun _ => .ite (.bind (.lift _) fun _ => ?_) ?_
    · cases outer with
      | nil => exact .pure _
      | cons parent outer => exact ih _ _
    · refine .bind (simpleNode?_lasts hexpand _) fun found => ?_
      cases found with
      | some n => exact ih _ _
      | none =>
        refine .bind (token_lasts "<") fun _ => .bind (startTag_lasts _ _ _) fun tag => ?_
        exact .guarded id (.ite (ih _ _) (ih _ _))

end Content

/-- The replacement of an entity is read beside the document, where there is as much room for it. -/
lemma expandWith_lasts (content : Nat → List OpenElement → OpenElement → Parser Node) (t : Text)
    (scope : Scope) : Lasts (expandWith content t scope) := by
  rintro s - ⟨h⟩ a s' hrun
  unfold expandWith at hrun ⊢
  dsimp only at hrun ⊢
  split at hrun
  · cases hrun
    exact ⟨_, rfl, .intro h⟩
  · cases hrun

lemma content_lasts (levels fuel : Nat) (outer : List OpenElement) (e : OpenElement) :
    Lasts (content levels fuel outer e) := by
  cases levels with
  | zero => exact contentWith_lasts (fun _ _ => .failure _) _ _ _ _
  | succ levels => exact contentWith_lasts (expandWith_lasts _) _ _ _ _

lemma skipMisc_lasts (fuel : Nat) : Lasts (skipMisc fuel) := by
  induction fuel with
  | zero => exact .failure _
  | succ fuel ih =>
    unfold skipMisc
    refine .bind (.lift _) fun _ => .bind (.lift _) fun _ => .ite (.bind (.lift _) fun _ => ih) ?_
    exact .bind (.lift _) fun _ => .ite (.bind instruction_lasts fun _ => ih) (.pure _)

/-- A document is read in the same way if there is more room. -/
theorem document_lasts : Lasts document := by
  unfold document
  refine .get fun s t ⟨h⟩ => ?_
  rw [h.head.rest]
  generalize s.input.rest.length + 1 = fuel
  have hlast (root : Node) : Lasts (do
      skipMisc fuel
      if ← atEnd then pure root else failure) :=
    .bind (skipMisc_lasts fuel) fun _ => .bind atEnd_lasts fun _ => .ite (.pure _) (.failure _)
  have hroot : Lasts (do
      token "<"
      let tag ← startTag entityDepth [] fuel
      let root ←
        if tag.isClosed then pure tag.element.close else content entityDepth fuel [] tag.element
      skipMisc fuel
      if ← atEnd then pure root else failure) := by
    refine .bind (token_lasts "<") fun _ => .bind (startTag_lasts _ _ _) fun tag => ?_
    exact .ite (.bind (.pure _) hlast) (.bind (content_lasts _ _ _ _) hlast)
  refine .bind (skipMisc_lasts _) fun _ => .bind (.lift _) fun _ => .ite ?_ hroot
  exact .bind doctype_lasts fun _ => .bind (skipMisc_lasts _) fun _ => hroot

end UmlDrawing.Xml.Parser
