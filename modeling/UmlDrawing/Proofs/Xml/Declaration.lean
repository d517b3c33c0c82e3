import UmlDrawing.Proofs.Text.Encoding
import UmlDrawing.Proofs.Text.Split
import UmlDrawing.Xml.Declaration

/-! Declarations of documents. They consist of visible basic characters and blanks, so a change of the
text that leaves these in their places leaves the declaration as it is. Two changes are of this kind: the
one of line ends, and the one that takes every byte for a character. -/
namespace UmlDrawing.Xml

/-- Whether the character is a visible basic one. -/
def isInk (c : Char) : Bool := decide (0x20 < c.toNat) && decide (c.toNat < 0x7F)

/-- Whether a change of texts leaves the visible basic characters in their places, and blanks blanks. -/
structure KeepsInk (f : Text → Text) : Prop where
  nil : f [] = []
  append : ∀ before c after, isInk c = true → f (before ++ c :: after) = f before ++ c :: f after
  mem : ∀ t c, isInk c = true → (c ∈ f t ↔ c ∈ t)
  head : ∀ c t, isInk c = false → ∃ d u, f (c :: t) = d :: u ∧ isInk d = false ∧ isBlank d = isBlank c
  blanks : ∀ t, (f t).dropWhile isBlank = f (t.dropWhile isBlank)

namespace KeepsInk

variable {f : Text → Text} {c : Char} {t : Text}

lemma cons (h : KeepsInk f) (hc : isInk c = true) (t : Text) : f (c :: t) = c :: f t := by
  rw [← List.nil_append (c :: t), h.append [] c t hc, h.nil, List.nil_append]

lemma exists_cons (h : KeepsInk f) (c : Char) (t : Text) :
    ∃ d u, f (c :: t) = d :: u ∧ isInk d = isInk c ∧ isBlank d = isBlank c := by
  cases hc : isInk c with
  | true => exact ⟨c, f t, h.cons hc t, hc, rfl⟩
  | false => exact h.head c t hc

lemma dropStart? (h : KeepsInk f) {start : Text} (hstart : start.all isInk = true) (t : Text) :
    Text.dropStart? start (f t) = (Text.dropStart? start t).map f := by
  induction start generalizing t with
  | nil => rfl
  | cons c start ih =>
    rw [List.all_cons, Bool.and_eq_true] at hstart
    cases t with
    | nil => rw [h.nil]; rfl
    | cons d t =>
      cases hd : isInk d with
      | true =>
        rw [h.cons hd, Text.dropStart?, Text.dropStart?]
        split
        · exact ih hstart.2 t
        · rfl
      | false =>
        obtain ⟨e, u, hu, he, -⟩ := h.head d t hd
        have hne {x : Char} (hx : isInk x = false) : c ≠ x := by
          rintro rfl
          rw [hstart.1] at hx
          cases hx
        rw [hu, Text.dropStart?, Text.dropStart?, if_neg (hne he), if_neg (hne hd)]
        rfl

lemma startsWith (h : KeepsInk f) {start : Text} (hstart : start.all isInk = true) (t : Text) :
    Text.startsWith (f t) start = Text.startsWith t start := by
  rw [Text.startsWith, Text.startsWith, h.dropStart? hstart, Option.isSome_map]

lemma cut? (h : KeepsInk f) (hc : isInk c = true) (t : Text) :
    Text.cut? c (f t) = (Text.cut? c t).map (Prod.map f f) := by
  cases hcut : Text.cut? c t with
  | some parts =>
    obtain ⟨before, after⟩ := parts
    obtain ⟨hnot, rfl⟩ := Text.cut?_eq_some_iff.1 hcut
    rw [h.append _ _ _ hc]
    exact Text.cut?_append (fun hmem => hnot ((h.mem _ _ hc).1 hmem)) _
  | none =>
    have hnot := Text.cut?_eq_none_iff.1 hcut
    exact Text.cut?_eq_none_iff.2 fun hmem => hnot ((h.mem t c hc).1 hmem)

lemma eq_of_all (h : KeepsInk f) (ht : t.all isInk = true) : f t = t := by
  induction t with
  | nil => exact h.nil
  | cons c t ih =>
    rw [List.all_cons, Bool.and_eq_true] at ht
    rw [h.cons ht.1, ih ht.2]

lemma all_isInk (h : KeepsInk f) (t : Text) : (f t).all isInk = t.all isInk := by
  induction t with
  | nil => rw [h.nil]
  | cons c t ih =>
    cases hc : isInk c with
    | true => rw [h.cons hc, List.all_cons, List.all_cons, ih]
    | false =>
      obtain ⟨d, u, hu, hd, -⟩ := h.head c t hc
      rw [hu, List.all_cons, List.all_cons, hd, hc, Bool.false_and, Bool.false_and]

/-- A text of visible basic characters stays as it is, and no other text becomes one. -/
lemma of_all (h : KeepsInk f) {p : Text → Bool} (hp : ∀ t, p t = true → t.all isInk = true)
    (t : Text) : p (f t) = p t ∧ (p t = true → f t = t) := by
  refine ⟨?_, fun hpt => h.eq_of_all (hp t hpt)⟩
  cases ht : t.all isInk with
  | true => rw [h.eq_of_all ht]
  | false =>
    have hfalse {u : Text} (hu : u.all isInk = false) : p u = false := by
      rw [← Bool.not_eq_true]
      intro hpu
      rw [hp u hpu] at hu
      cases hu
    rw [hfalse ht, hfalse ((h.all_isInk t).trans ht)]

end KeepsInk

/-! What a reader makes of a changed text. -/

lemma Reader.cutAt_eq (q : Char) (done t : Text) :
    cutAt [q] done t = (Text.cut? q t).map fun parts => (done.reverse ++ parts.1, parts.2) := by
  induction t generalizing done with
  | nil => rfl
  | cons c t ih =>
    rw [cutAt, Text.dropStart?, Text.cut?]
    by_cases hc : q = c
    · rw [if_pos hc, if_pos hc.symm]
      simp [Text.dropStart?]
    · rw [if_neg hc, if_neg (Ne.symm hc), ih]
      cases Text.cut? q t <;> simp

/-- Whether a reader takes the same off a changed text, up to a change of what it takes, and leaves the
rest with the change. -/
def Follows {α : Type} (f : Text → Text) (g : α → α) (r : Reader α) : Prop :=
  ∀ t, r (f t) = (r t).map (Prod.map g f)

namespace Follows

open Reader

variable {f : Text → Text} {α β : Type}

lemma pure (a : α) : Follows f id (Pure.pure a : Reader α) := fun _ => rfl

lemma failure {g : α → α} : Follows f g (Alternative.failure : Reader α) := fun _ => rfl

lemma bind {r : Reader α} {s : α → Reader β} {g : β → β} (hr : Follows f id r)
    (hs : ∀ a, Follows f g (s a)) : Follows f g (r >>= s) := by
  intro t
  change (r (f t)).bind (fun x => s x.1 x.2) = ((r t).bind fun x => s x.1 x.2).map (Prod.map g f)
  rw [hr t]
  cases r t with
  | none => rfl
  | some x => exact hs x.1 x.2

lemma ite {p : Prop} [Decidable p] {r s : Reader α} {g : α → α} (hr : Follows f g r)
    (hs : Follows f g s) : Follows f g (if p then r else s) := by
  split
  · exact hr
  · exact hs

lemma map {r : Reader α} (k : α → β) (hr : Follows f id r) : Follows f id (k <$> r) := by
  rw [← bind_pure_comp]
  exact bind hr fun a => pure (k a)

lemma blanks (h : KeepsInk f) : Follows f id blanks := fun t => by
  rw [Reader.blanks, h.blanks]
  rfl

lemma someBlanks (h : KeepsInk f) : Follows f id someBlanks := fun t => by
  cases t with
  | nil => rw [h.nil]; rfl
  | cons c t =>
    obtain ⟨d, u, hu, -, hd⟩ := h.exists_cons c t
    have hblanks := h.blanks (c :: t)
    rw [hu] at hblanks
    rw [hu, Reader.someBlanks, Reader.someBlanks, hd]
    cases hc : isBlank c with
    | false => rfl
    | true =>
      rw [List.dropWhile_cons_of_pos (hd.trans hc), List.dropWhile_cons_of_pos hc] at hblanks
      rw [if_pos rfl, if_pos rfl, hblanks]
      rfl

lemma looksAt (h : KeepsInk f) {s : String} (hs : s.toList.all isInk = true) :
    Follows f id (looksAt s) := fun t => by
  rw [Reader.looksAt, h.startsWith hs]
  rfl

lemma expect (h : KeepsInk f) {s : String} (hs : s.toList.all isInk = true) :
    Follows f id (expect s) := fun t => by
  rw [Reader.expect, h.dropStart? hs, Option.map_map, Reader.expect, Option.map_map]
  rfl

/-- How many blanks there are may change, but not whether there are any. -/
lemma takeBlanks (h : KeepsInk f) {g : Bool → Reader α} (hg : ∀ b, Follows f id (g b)) :
    Follows f id (takeWhile isBlank >>= fun b => g b.isEmpty) := by
  intro t
  change g ((f t).takeWhile isBlank).isEmpty ((f t).dropWhile isBlank) =
    (g (t.takeWhile isBlank).isEmpty (t.dropWhile isBlank)).map (Prod.map id f)
  have hempty : ((f t).takeWhile isBlank).isEmpty = (t.takeWhile isBlank).isEmpty := by
    cases t with
    | nil => rw [h.nil]
    | cons c t =>
      obtain ⟨d, u, hu, -, hd⟩ := h.exists_cons c t
      rw [hu, List.takeWhile_cons, List.takeWhile_cons, hd]
      cases isBlank c <;> rfl
  rw [hempty, h.blanks]
  exact hg _ _

lemma accept (h : KeepsInk f) {s : String} (hs : s.toList.all isInk = true) :
    Follows f id (accept s) := fun t => by
  rw [Reader.accept, h.dropStart? hs, Reader.accept]
  cases Text.dropStart? s.toList t <;> rfl

lemma upTo (h : KeepsInk f) {s : String} {c : Char} (hs : s.toList = [c]) (hc : isInk c = true) :
    Follows f f (upTo s) := fun t => by
  rw [Reader.upTo, Reader.upTo, hs, cutAt_eq, cutAt_eq, h.cut? hc]
  cases Text.cut? c t <;> rfl

lemma quoted (h : KeepsInk f) : Follows f f quoted :=
  bind (accept h rfl) fun _ => ite (upTo h rfl rfl) (bind (expect h rfl) fun _ => upTo h rfl rfl)

/-- A quoted text that has to consist of visible basic characters is read as it is. -/
lemma quotedWhere (h : KeepsInk f) {p : Text → Bool} (hp : ∀ t, p t = true → t.all isInk = true) :
    Follows f id (quotedWhere p) := by
  intro t
  change (Reader.quoted (f t)).bind (fun x => (if p x.1 then Pure.pure x.1 else Alternative.failure :
      Reader Text) x.2) =
    ((Reader.quoted t).bind fun x => (if p x.1 then Pure.pure x.1 else Alternative.failure :
      Reader Text) x.2).map (Prod.map id f)
  rw [quoted h t]
  cases Reader.quoted t with
  | none => rfl
  | some x =>
    obtain ⟨hsame, hstays⟩ := h.of_all hp x.1
    change (if p (f x.1) then Pure.pure (f x.1) else Alternative.failure : Reader Text) (f x.2) =
      ((if p x.1 then Pure.pure x.1 else Alternative.failure : Reader Text) x.2).map (Prod.map id f)
    rw [hsame]
    cases hx : p x.1 with
    | true => rw [hstays hx]; rfl
    | false => rfl

end Follows

namespace Declaration

variable {f : Text → Text}

lemma isInk_of_isAlphanum {c : Char} (h : c.isAlphanum = true) : isInk c = true := by
  change (decide (65 ≤ c.val ∧ c.val ≤ 90) || decide (97 ≤ c.val) && decide (c.val ≤ 122) ||
    decide (48 ≤ c.val) && decide (c.val ≤ 57)) = true at h
  simp only [UInt32.le_iff_toNat_le, Bool.or_eq_true, Bool.and_eq_true, decide_eq_true_eq] at h
  change (65 ≤ c.toNat ∧ c.toNat ≤ 90 ∨ 97 ≤ c.toNat ∧ c.toNat ≤ 122) ∨
    48 ≤ c.toNat ∧ c.toNat ≤ 57 at h
  rw [isInk, Bool.and_eq_true, decide_eq_true_eq, decide_eq_true_eq]
  omega

lemma all_of_isVersion (t : Text) (h : isVersion t = true) : t.all isInk = true := by
  unfold isVersion at h
  split at h
  · next digits =>
    have hdigits : digits.all isInk = true := List.all_eq_true.2 fun c hc =>
      isInk_of_isAlphanum (Bool.or_eq_true_iff.2 (.inr (List.all_eq_true.1 h c hc)))
    simp only [List.all_cons, hdigits]
    rfl
  · cases h

lemma all_of_isEncodingName (t : Text) (h : isEncodingName t = true) : t.all isInk = true := by
  unfold isEncodingName at h
  split at h
  · next c r =>
    rw [Bool.and_eq_true] at h
    rw [List.all_cons, isInk_of_isAlphanum (Bool.or_eq_true_iff.2 (.inl h.1)), Bool.true_and]
    refine List.all_eq_true.2 fun d hd => ?_
    have hkind := List.all_eq_true.1 h.2 d hd
    simp only [Bool.or_eq_true, beq_iff_eq] at hkind
    obtain ((hkind | rfl) | rfl) | rfl := hkind
    · exact isInk_of_isAlphanum hkind
    · rfl
    · rfl
    · rfl
  · cases h

lemma item_follows (h : KeepsInk f) {n : String} (hn : n.toList.all isInk = true) {p : Text → Bool}
    (hp : ∀ t, p t = true → t.all isInk = true) : Follows f id (item n p) :=
  .bind (.expect h hn) fun _ => .bind
    (.bind (.blanks h) fun _ => .bind (.expect h rfl) fun _ => .blanks h) fun _ => .quotedWhere h hp

/-- An item that may be left out, but has blanks before it where it is not. -/
lemma optional_follows (h : KeepsInk f) {n : String} (hn : n.toList.all isInk = true) {spaced : Bool}
    {α β : Type} {there : Reader β} {absent : α} {goOn : α → Reader β} (hthere : Follows f id there)
    (hgoOn : ∀ a, Follows f id (goOn a)) :
    Follows f id (do
      let isThere ← Reader.looksAt n
      if isThere = true then if spaced = true then there else failure >>= goOn
      else pure absent >>= goOn) :=
  .bind (.looksAt h hn) fun _ =>
    .ite (.ite hthere (.bind .failure hgoOn)) (.bind (.pure absent) hgoOn)

lemma gap_follows (h : KeepsInk f) (before : Bool) : Follows f id (tail.gap before) :=
  .ite (.pure _) (.takeBlanks h fun _ => .pure _)

lemma tail_follows (h : KeepsInk f) (spaced : Bool) : Follows f id (tail spaced) := by
  unfold tail
  dsimp only
  refine optional_follows h rfl (.bind (.map _ (item_follows h rfl all_of_isEncodingName)) ?rest) ?rest
  intro encoding
  refine .bind (gap_follows h _) fun spaced => ?_
  refine optional_follows h rfl (.bind (item_follows h rfl ?_) fun v => .bind (.pure _) ?last) ?last
  · intro t ht
    rw [Bool.or_eq_true, beq_iff_eq, beq_iff_eq] at ht
    obtain rfl | rfl := ht <;> rfl
  · intro standalone
    exact .bind (.blanks h) fun _ => .bind (.expect h rfl) fun _ => .pure _

lemma read_follows (h : KeepsInk f) : Follows f id read :=
  .bind (.someBlanks h) fun _ => .bind (item_follows h rfl all_of_isVersion) fun _ =>
    .takeBlanks h fun _ => tail_follows h _

/-- A change that leaves the visible basic characters and the blanks in their places leaves the
declaration of a document as it is. -/
theorem cut?_follows (h : KeepsInk f) (t : Text) : cut? (f t) = (cut? t).map (Prod.map id f) := by
  have hdrop : Text.dropStart? "<?xml".toList (f t) = (Text.dropStart? "<?xml".toList t).map f :=
    h.dropStart? rfl t
  have hthere : isThere (f t) = isThere t := by
    unfold isThere
    rw [hdrop]
    cases Text.dropStart? "<?xml".toList t with
    | none => rfl
    | some rest =>
      cases rest with
      | nil => rw [Option.map_some, h.nil]
      | cons c rest =>
        obtain ⟨d, u, hu, -, hd⟩ := h.exists_cons c rest
        rw [Option.map_some, hu]
        exact hd
  unfold cut?
  rw [hthere]
  split
  · next his =>
    unfold isThere at his
    split at his
    · next c rest hrest =>
      rw [hrest] at hdrop
      have hkept := Text.dropStart?_eq_some_iff.1 hdrop
      have hsource := Text.dropStart?_eq_some_iff.1 hrest
      have hread := read_follows h (c :: rest)
      rw [hkept, hsource]
      exact hread
    · cases his
  · rfl

/-- A declaration without an encoding that takes up some room. -/
def plain (room : Nat) (standalone : Bool) : Text :=
  "<?xml ".toList ++ List.replicate room ' ' ++
    (if standalone then "version=\"1.0\" standalone=\"yes\"?>" else "version=\"1.0\"?>").toList

lemma cut?_plain (room : Nat) (standalone : Bool) (rest : Text) :
    cut? (plain room standalone ++ rest) = some (⟨none, standalone⟩, rest) := by
  have hread (t : Text) : cut? ("<?xml ".toList ++ t) =
      (do
        let _ ← item "version" isVersion
        let b ← Reader.takeWhile isBlank
        tail !b.isEmpty : Reader Declaration).run (t.dropWhile isBlank) := rfl
  have hblanks (t : Text) : (List.replicate room ' ' ++ t).dropWhile isBlank = t.dropWhile isBlank := by
    induction room with
    | zero => rfl
    | succ room ih => exact ih
  rw [plain, List.append_assoc, List.append_assoc, hread, hblanks]
  cases standalone with
  | true => rfl
  | false => rfl

end Declaration

/-! The change of line ends. -/

/-- Texts are taken apart at their line ends. -/
lemma lines_induction {motive : Text → Prop} (nil : motive [])
    (both : ∀ t, motive t → motive ('\r' :: '\n' :: t))
    (single : ∀ t, (∀ r, t = '\n' :: r → False) → motive t → motive ('\r' :: t))
    (other : ∀ c t, c ≠ '\r' → motive t → motive (c :: t)) (t : Text) : motive t :=
  normalizeFrom.induct (fun _ t => motive t) (fun _ => nil) (fun _ => both) (fun _ => single)
    (fun _ c t _ => other c t) [] t

lemma normalizeFrom_eq (done t : Text) : normalizeFrom done t = done.reverse ++ normalizeLines t := by
  unfold normalizeLines
  induction t using lines_induction generalizing done with
  | nil => simp [normalizeFrom]
  | both t ih =>
    rw [normalizeFrom, normalizeFrom, ih, ih ['\n'], List.reverse_cons, List.append_assoc]
    rfl
  | single t ht ih =>
    rw [normalizeFrom, normalizeFrom, ih, ih ['\n'], List.reverse_cons, List.append_assoc]
    · rfl
    · exact ht
    · exact ht
  | other c t hc ih =>
    rw [normalizeFrom, normalizeFrom, ih, ih [c], List.reverse_cons, List.append_assoc]
    · rfl
    · exact fun _ h => absurd h hc
    · exact hc
    · exact fun _ h => absurd h hc
    · exact hc

lemma normalizeLines_both (t : Text) :
    normalizeLines ('\r' :: '\n' :: t) = '\n' :: normalizeLines t := by
  rw [normalizeLines, normalizeFrom, normalizeFrom_eq]
  rfl

lemma normalizeLines_single {t : Text} (h : ∀ r, t = '\n' :: r → False) :
    normalizeLines ('\r' :: t) = '\n' :: normalizeLines t := by
  rw [normalizeLines, normalizeFrom, normalizeFrom_eq]
  · rfl
  · exact h

lemma normalizeLines_other {c : Char} (hc : c ≠ '\r') (t : Text) :
    normalizeLines (c :: t) = c :: normalizeLines t := by
  rw [normalizeLines, normalizeFrom, normalizeFrom_eq]
  · rfl
  · exact fun _ h => absurd h hc
  · exact hc

lemma normalizeLines_append {before : Text} (h : ∀ c ∈ before, c ≠ '\r') (t : Text) :
    normalizeLines (before ++ t) = before ++ normalizeLines t := by
  induction before with
  | nil => rfl
  | cons c before ih =>
    rw [List.cons_append, normalizeLines_other (h c List.mem_cons_self),
      ih fun d hd => h d (List.mem_cons_of_mem _ hd), List.cons_append]

lemma room_le_utf8Size (room : Nat) (standalone : Bool) (t : Text) :
    room ≤ Text.utf8Size (normalizeLines (Declaration.plain room standalone ++ t)) := by
  have hmark : "<?xml ".toList.all (· != '\r') = true := rfl
  have hlines : ∀ c ∈ "<?xml ".toList ++ List.replicate room ' ', c ≠ '\r' := by
    intro c hc
    obtain hc | hc := List.mem_append.1 hc
    · exact bne_iff_ne.1 (List.all_eq_true.1 hmark c hc)
    · rw [List.eq_of_mem_replicate hc]
      decide
  rw [Declaration.plain, List.append_assoc, normalizeLines_append hlines]
  refine Nat.le_trans ?_ (Text.length_le_utf8Size _)
  rw [List.length_append, List.length_append, List.length_replicate]
  omega

/-- Line ends in one form are still line ends, and nothing else changes. -/
lemma keepsInk_normalizeLines : KeepsInk normalizeLines where
  nil := rfl
  append before c after hc := by
    have hother : c ≠ '\r' := by
      rintro rfl
      cases hc
    induction before using lines_induction with
    | nil => exact normalizeLines_other hother after
    | both t ih =>
      rw [List.cons_append, List.cons_append, normalizeLines_both, normalizeLines_both, ih]
      rfl
    | single t ht ih =>
      -- a visible character that follows is no second half of the line end
      have happend : ∀ r, t ++ c :: after = '\n' :: r → False := by
        intro r hr
        cases t with
        | nil =>
          obtain ⟨rfl, -⟩ := List.cons.inj hr
          cases hc
        | cons d t =>
          obtain ⟨rfl, -⟩ := List.cons.inj hr
          exact ht t rfl
      rw [List.cons_append, normalizeLines_single happend, normalizeLines_single ht, ih]
      rfl
    | other d t hd ih =>
      rw [List.cons_append, normalizeLines_other hd, normalizeLines_other hd, ih]
      rfl
  mem t c hc := by
    have hne : c ≠ '\r' ∧ c ≠ '\n' := by
      constructor <;> rintro rfl <;> cases hc
    induction t using lines_induction with
    | nil => rfl
    | both t ih => simp [normalizeLines_both, ih, hne.1, hne.2]
    | single t ht ih => simp [normalizeLines_single ht, ih, hne.1, hne.2]
    | other d t hd ih => simp [normalizeLines_other hd, ih]
  head c t hc := by
    by_cases hr : c = '\r'
    · subst hr
      cases t with
      | nil => exact ⟨'\n', [], rfl, rfl, rfl⟩
      | cons d t =>
        by_cases hd : d = '\n'
        · subst hd
          exact ⟨'\n', _, normalizeLines_both t, rfl, rfl⟩
        · refine ⟨'\n', _, normalizeLines_single ?_, rfl, rfl⟩
          exact fun r hr => hd (List.cons.inj hr).1
    · exact ⟨c, _, normalizeLines_other hr t, hc, rfl⟩
  blanks t := by
    induction t using lines_induction with
    | nil => rfl
    | both t ih => rw [normalizeLines_both]; exact ih
    | single t ht ih => rw [normalizeLines_single ht]; exact ih
    | other c t hc ih =>
      rw [normalizeLines_other hc, List.dropWhile_cons, List.dropWhile_cons]
      split
      · exact ih
      · exact (normalizeLines_other hc t).symm

/-! The change of bytes into characters. -/

/-- The bytes of a character taken for characters. -/
def unread (c : Char) : Text := Text.ofLatin1 (Text.utf8Char c)

lemma ofLatin1_toUtf8 (t : Text) : Text.ofLatin1 (Text.toUtf8 t) = t.flatMap unread :=
  List.map_flatMap ..

lemma unread_of_isBasic {c : Char} (h : Text.isBasic c = true) : unread c = [c] := by
  have hc : c.toNat < 0x80 := of_decide_eq_true h
  rw [unread, Text.utf8Char_of_isBasic h, Text.ofLatin1, List.map_singleton,
    Text.toNat_toUInt8 (by omega), Char.ofNat_toNat]

lemma unread_of_not_isBasic {c : Char} (h : Text.isBasic c = false) :
    unread c ≠ [] ∧ ∀ d ∈ unread c, 0x80 ≤ d.toNat := by
  obtain ⟨⟨a, b, r, hbytes⟩, hhigh⟩ := Text.utf8Char_of_not_isBasic h
  constructor
  · simp [unread, hbytes, Text.ofLatin1]
  · intro d hd
    obtain ⟨b, hb, rfl⟩ := List.mem_map.1 hd
    rw [Text.toNat_ofNat_of_lt b.toNat_lt]
    exact hhigh b hb

lemma isBasic_of_isInk {c : Char} (h : isInk c = true) : Text.isBasic c = true := by
  simp only [isInk, Text.isBasic, Bool.and_eq_true, decide_eq_true_eq] at *
  omega

lemma not_isInk_of_ge {c : Char} (h : 0x80 ≤ c.toNat) : isInk c = false ∧ isBlank c = false := by
  constructor
  · rw [← Bool.not_eq_true]
    exact fun hc => absurd (of_decide_eq_true (isBasic_of_isInk hc)) (by omega)
  · simp only [isBlank, Bool.or_eq_false_iff, beq_eq_false_iff_ne]
    refine ⟨⟨⟨?_, ?_⟩, ?_⟩, ?_⟩ <;> rintro rfl <;> exact absurd h (by decide)

lemma isBasic_of_isBlank {c : Char} (h : isBlank c = true) : Text.isBasic c = true := by
  cases hbasic : Text.isBasic c with
  | true => rfl
  | false =>
    rw [(not_isInk_of_ge (by simpa [Text.isBasic] using hbasic)).2] at h
    cases h

lemma exists_unread (c : Char) :
    ∃ d u, unread c = d :: u ∧ isInk d = isInk c ∧ isBlank d = isBlank c := by
  cases hbasic : Text.isBasic c with
  | true => exact ⟨c, [], unread_of_isBasic hbasic, rfl, rfl⟩
  | false =>
    obtain ⟨hne, hge⟩ := unread_of_not_isBasic hbasic
    obtain ⟨d, u, hu⟩ := List.exists_cons_of_ne_nil hne
    have hd := not_isInk_of_ge (hge d (by simp [hu]))
    have hc : isInk c = false ∧ isBlank c = false :=
      not_isInk_of_ge (by simpa [Text.isBasic] using hbasic)
    exact ⟨d, u, hu, hd.1.trans hc.1.symm, hd.2.trans hc.2.symm⟩

/-- Bytes taken for characters: the basic ones are characters of their own, and the others give no
characters that are basic. -/
lemma keepsInk_ofLatin1 : KeepsInk fun t => Text.ofLatin1 (Text.toUtf8 t) where
  nil := rfl
  append before c after hc := by
    simp only [ofLatin1_toUtf8, List.flatMap_append, List.flatMap_cons,
      unread_of_isBasic (isBasic_of_isInk hc), List.singleton_append]
  mem t c hc := by
    simp only [ofLatin1_toUtf8, List.mem_flatMap]
    constructor
    · rintro ⟨d, hd, hmem⟩
      cases hbasic : Text.isBasic d with
      | true =>
        rw [unread_of_isBasic hbasic, List.mem_singleton] at hmem
        exact hmem ▸ hd
      | false =>
        have hge := (unread_of_not_isBasic hbasic).2 c hmem
        rw [(not_isInk_of_ge hge).1] at hc
        cases hc
    · exact fun hmem => ⟨c, hmem, by simp [unread_of_isBasic (isBasic_of_isInk hc)]⟩
  head c t hc := by
    obtain ⟨d, u, hu, hd, hblank⟩ := exists_unread c
    simp only [ofLatin1_toUtf8, List.flatMap_cons, hu]
    exact ⟨d, _, rfl, hd.trans hc, hblank⟩
  blanks t := by
    simp only [ofLatin1_toUtf8]
    induction t with
    | nil => rfl
    | cons c t ih =>
      cases hblank : isBlank c with
      | true =>
        rw [List.flatMap_cons, unread_of_isBasic (isBasic_of_isBlank hblank), List.singleton_append,
          List.dropWhile_cons_of_pos hblank, List.dropWhile_cons_of_pos hblank, ih]
      | false =>
        obtain ⟨d, u, hu, -, hd⟩ := exists_unread c
        have hneg {x : Char} (hx : isBlank x = false) : ¬ isBlank x = true := by simp [hx]
        rw [List.dropWhile_cons_of_neg (hneg hblank), List.flatMap_cons, hu, List.cons_append,
          List.dropWhile_cons_of_neg (hneg (hd.trans hblank))]

end UmlDrawing.Xml
