import UmlDrawing.Proofs.Document.Enclosed
import UmlDrawing.Proofs.Numeral.Leading

/-! The fields of an element. Each is decided by the last child with the name of the field, and the
coordinates by the last children of the last child that has them. So the record of an element depends
neither on nodes with other names nor on the order of children with different names. -/
namespace UmlDrawing.Document

open Xml (Node)

/-- The last of some nodes that has a name. -/
def lastNamed? (name : String) (ns : List Node) : Option Node := (ns.filter (named name)).getLast?

/-- Whether a node has one of some names. -/
def namedIn (names : List String) (n : Node) : Bool := names.any fun name => named name n

/-- The names of the fields of an element. -/
def fieldNames : List String :=
  ["id", "coordinates", "panel_attributes", "additional_attributes", "layer"]

/-- The names of coordinates. -/
def coordinateNames : List String := ["x", "y", "w", "h"]

/-- A node whose name can be looked up. -/
def Namable (n : Node) : Prop := ∃ t, tag n = .ok t

/-- A node whose text does not begin with an integer of too many digits. -/
def Short (n : Node) : Prop :=
  ∀ negative digits, Numeral.leading? n.textContent = some (negative, digits) →
    digits.length ≤ Numeral.maxDigits

/-- The integer that the text of a node begins with, or zero. -/
def integerOf (n : Node) : Int :=
  match Numeral.leading? n.textContent with
  | none => 0
  | some (negative, digits) => Numeral.signed negative (Numeral.ofDigits 10 digits)

/-- A child of coordinates that can be read. -/
structure LegibleNumber (n : Node) : Prop where
  namable : Namable n
  short : namedIn coordinateNames n = true → Short n

/-- A child of an element that can be read. -/
structure LegibleField (n : Node) : Prop where
  namable : Namable n
  numbers : named "coordinates" n = true → ∀ m ∈ n.children, LegibleNumber m
  short : named "layer" n = true → Short n

/-- The number that the last child with a name decides. -/
def lastNumber (name : String) (ns : List Node) : Coordinate :=
  .number (((lastNamed? name ns).map integerOf).getD 0)

/-- The text that the last child with a name decides. -/
def lastText (name : String) (ns : List Node) : Text :=
  ((lastNamed? name ns).map Node.textContent).getD []

/-- The coordinates that some children decide. -/
def lastCoordinates (ns : List Node) : Coordinates where
  x := lastNumber "x" ns
  y := lastNumber "y" ns
  w := lastNumber "w" ns
  h := lastNumber "h" ns

/-- The record that some children decide. -/
def lastFields (ns : List Node) : ElementRecord where
  id := lastText "id" ns
  coordinates := ((lastNamed? "coordinates" ns).map fun n => lastCoordinates n.children).getD {}
  panel := lastText "panel_attributes" ns
  additional := lastText "additional_attributes" ns
  layer := (lastNamed? "layer" ns).map integerOf

variable {n : Node} {ns : List Node} {name : String}

lemma lastNamed?_append (name : String) (ns ms : List Node) :
    lastNamed? name (ns ++ ms) = (lastNamed? name ms).or (lastNamed? name ns) := by
  rw [lastNamed?, List.filter_append, List.getLast?_append]
  rfl

lemma lastNamed?_singleton (name : String) (n : Node) :
    lastNamed? name [n] = if named name n then some n else none := by
  rw [lastNamed?, List.filter_singleton]
  cases named name n <;> rfl

lemma lastNamed?_concat (name : String) (ns : List Node) (n : Node) :
    lastNamed? name (ns ++ [n]) = if named name n then some n else lastNamed? name ns := by
  rw [lastNamed?_append, lastNamed?_singleton]
  split <;> rfl

lemma lastNumber_concat (name : String) (ns : List Node) (n : Node) :
    lastNumber name (ns ++ [n]) =
      if named name n then .number (integerOf n) else lastNumber name ns := by
  rw [lastNumber, lastNamed?_concat]
  split <;> rfl

lemma lastText_concat (name : String) (ns : List Node) (n : Node) :
    lastText name (ns ++ [n]) = if named name n then n.textContent else lastText name ns := by
  rw [lastText, lastNamed?_concat]
  split <;> rfl

/-- The integer of a node is read unless it has too many digits. -/
lemma integer_eq_ok_iff {k : Int} : integer n = .ok k ↔ Short n ∧ k = integerOf n := by
  rw [integer, Numeral.parseLeading, Short, integerOf]
  cases hfound : Numeral.leading? n.textContent with
  | none => simp [eq_comm]
  | some found =>
    obtain ⟨negative, digits⟩ := found
    dsimp only [Numeral.decimal]
    split
    · next hlong =>
      refine iff_of_false (fun h => by cases h) fun h => ?_
      exact absurd (h.1 negative digits rfl) (Nat.not_le_of_lt hlong)
    · next hshort =>
      have hall : ∀ negative' digits', some (negative, digits) = some (negative', digits') →
          digits'.length ≤ Numeral.maxDigits := by
        rintro _ _ ⟨⟩
        exact Nat.not_lt.1 hshort
      simp [Except.map, hall, eq_comm]

/-- A fold whose value after each step is known, if the step can be taken. -/
lemma foldlM_eq_ok_iff {β : Type} {step : β → Node → Except Fault β} {Legible : Node → Prop}
    {value : List Node → β}
    (hstep : ∀ ns n b, step (value ns) n = .ok b ↔ Legible n ∧ b = value (ns ++ [n]))
    {ns : List Node} {b : β} :
    ns.foldlM step (value []) = .ok b ↔ (∀ n ∈ ns, Legible n) ∧ b = value ns := by
  -- from the end of the list, since it is the last step that overwrites
  induction ns using List.reverseRecOn generalizing b with
  | nil =>
    rw [List.foldlM_nil, pure_eq_ok_iff]
    simp [eq_comm]
  | append_singleton ns n ih =>
    rw [List.foldlM_append, bind_eq_ok_iff]
    simp only [ih, List.foldlM_cons, List.foldlM_nil, bind_pure]
    constructor
    · rintro ⟨_, ⟨hns, rfl⟩, hlast⟩
      obtain ⟨hn, rfl⟩ := (hstep ns n b).1 hlast
      exact ⟨List.forall_mem_append.2 ⟨hns, List.forall_mem_singleton.2 hn⟩, rfl⟩
    · rintro ⟨hall, rfl⟩
      obtain ⟨hns, hn⟩ := List.forall_mem_append.1 hall
      exact ⟨value ns, ⟨hns, rfl⟩, (hstep ns n _).2 ⟨List.forall_mem_singleton.1 hn, rfl⟩⟩

lemma not_namable {fault : Fault} (h : tag n = .error fault) : ¬ Namable n := by
  rw [Namable, h]
  exact not_ok_of_fault

lemma tag_of_named (h : named name n = true) : tag n = .ok name.toList := by
  cases htag : tag n with
  | error fault => simp [named, htag, Except.toOption] at h
  | ok t =>
    rw [named_of_tag htag] at h
    rw [of_decide_eq_true h]

/-- A node has one name only. -/
lemma eq_of_named {f g : String} (hf : named f n = true) (hg : named g n = true) : f = g :=
  String.toList_inj.1 (Except.ok.inj ((tag_of_named hf).symm.trans (tag_of_named hg)))

/-- What is made of something, if that can be read. -/
lemma made_eq_ok_iff {α β : Type} {x : Except Fault α} {a : α} {f : α → β} {b : β}
    {P Legible : Prop} (hx : ∀ {c}, x = .ok c ↔ P ∧ c = a) (hlegible : Legible ↔ P) :
    (do
      let c ← x
      pure (f c)) = .ok b ↔ Legible ∧ b = f a := by
  simp only [bind_eq_ok_iff, hx, pure_eq_ok_iff, hlegible]
  constructor
  · rintro ⟨_, ⟨hread, rfl⟩, rfl⟩
    exact ⟨hread, rfl⟩
  · rintro ⟨hread, rfl⟩
    exact ⟨_, ⟨hread, rfl⟩, rfl⟩

lemma legibleNumber_iff_short (hname : Namable n) (h : namedIn coordinateNames n = true) :
    LegibleNumber n ↔ Short n :=
  ⟨fun hlegible => hlegible.short h, fun hshort => ⟨hname, fun _ => hshort⟩⟩

lemma readCoordinate_eq_ok_iff (ns : List Node) (n : Node) (c : Coordinates) :
    readCoordinate (lastCoordinates ns) n = .ok c ↔
      LegibleNumber n ∧ c = lastCoordinates (ns ++ [n]) := by
  cases htag : tag n with
  | error fault =>
    rw [readCoordinate, htag]
    exact iff_of_false (fun h => by cases h) fun h => not_namable htag h.1.namable
  | ok t =>
    have hname : Namable n := ⟨t, htag⟩
    have hnamed (f : String) : named f n = decide (t = f.toList) := named_of_tag htag
    simp only [readCoordinate, htag, ok_bind, lastCoordinates, lastNumber_concat, hnamed,
      decide_eq_true_eq]
    have hcoordinate : namedIn coordinateNames n = true ↔
        t = ['x'] ∨ t = ['y'] ∨ t = ['w'] ∨ t = ['h'] := by
      simp [namedIn, coordinateNames, hnamed]
    by_cases hany : namedIn coordinateNames n = true
    · have hlegible := legibleNumber_iff_short hname hany
      obtain rfl | rfl | rfl | rfl := hcoordinate.1 hany
      · exact made_eq_ok_iff (f := fun k => { lastCoordinates ns with x := .number k })
          integer_eq_ok_iff hlegible
      · exact made_eq_ok_iff (f := fun k => { lastCoordinates ns with y := .number k })
          integer_eq_ok_iff hlegible
      · exact made_eq_ok_iff (f := fun k => { lastCoordinates ns with w := .number k })
          integer_eq_ok_iff hlegible
      · exact made_eq_ok_iff (f := fun k => { lastCoordinates ns with h := .number k })
          integer_eq_ok_iff hlegible
    · obtain ⟨hx, hy, hw, hh⟩ : t ≠ ['x'] ∧ t ≠ ['y'] ∧ t ≠ ['w'] ∧ t ≠ ['h'] := by
        simpa only [hcoordinate, not_or] using hany
      have hlegible : LegibleNumber n := ⟨hname, fun h => absurd h hany⟩
      simp only [String.reduceToList, hx, hy, hw, hh, ↓reduceIte, hlegible, true_and]
      exact pure_eq_ok_iff.trans eq_comm

/-- Coordinates can be read if all children that are coordinates have integers that can be, and are
decided by the last children that have their names. -/
lemma readCoordinates_eq_ok_iff {c : Coordinates} :
    readCoordinates n = .ok c ↔
      (∀ m ∈ n.children, LegibleNumber m) ∧ c = lastCoordinates n.children :=
  foldlM_eq_ok_iff readCoordinate_eq_ok_iff

/-- A child that is neither coordinates nor a layer can be read if its name can be looked up. -/
lemma legibleField_of_not (hname : Namable n) (hcoordinates : named "coordinates" n = false)
    (hlayer : named "layer" n = false) : LegibleField n where
  namable := hname
  numbers h := absurd h (by simp [hcoordinates])
  short h := absurd h (by simp [hlayer])

lemma legibleField_iff_numbers (h : named "coordinates" n = true) :
    LegibleField n ↔ ∀ m ∈ n.children, LegibleNumber m := by
  constructor
  · exact fun hlegible => hlegible.numbers h
  · exact fun hnumbers => ⟨⟨_, tag_of_named h⟩, fun _ => hnumbers,
      fun hlayer => absurd (eq_of_named h hlayer) (by decide)⟩

lemma legibleField_iff_short (h : named "layer" n = true) : LegibleField n ↔ Short n := by
  constructor
  · exact fun hlegible => hlegible.short h
  · exact fun hshort => ⟨⟨_, tag_of_named h⟩,
      fun hcoordinates => absurd (eq_of_named h hcoordinates) (by decide), fun _ => hshort⟩

lemma lastFields_concat (ns : List Node) (n : Node) : lastFields (ns ++ [n]) =
    { id := if named "id" n then n.textContent else lastText "id" ns
      coordinates := if named "coordinates" n then lastCoordinates n.children
        else (lastFields ns).coordinates
      panel := if named "panel_attributes" n then n.textContent
        else lastText "panel_attributes" ns
      additional := if named "additional_attributes" n then n.textContent
        else lastText "additional_attributes" ns
      layer := if named "layer" n then some (integerOf n) else (lastFields ns).layer } := by
  simp only [lastFields, lastText_concat, lastNamed?_concat]
  congr <;> split <;> rfl

lemma readField_eq_ok_iff (ns : List Node) (n : Node) (r : ElementRecord) :
    readField (lastFields ns) n = .ok r ↔ LegibleField n ∧ r = lastFields (ns ++ [n]) := by
  cases htag : tag n with
  | error fault =>
    rw [readField, htag]
    exact iff_of_false (fun h => by cases h) fun h => not_namable htag h.1.namable
  | ok t =>
    have hname : Namable n := ⟨t, htag⟩
    have hnamed (f : String) : named f n = decide (t = f.toList) := named_of_tag htag
    rw [readField, htag, ok_bind, lastFields_concat]
    simp only [hnamed, decide_eq_true_eq]
    by_cases hcoordinates : t = "coordinates".toList
    · subst hcoordinates
      exact made_eq_ok_iff (f := fun c => { lastFields ns with coordinates := c })
        readCoordinates_eq_ok_iff (legibleField_iff_numbers (hnamed _))
    by_cases hlayer : t = "layer".toList
    · subst hlayer
      exact made_eq_ok_iff (f := fun k => { lastFields ns with layer := some k })
        integer_eq_ok_iff (legibleField_iff_short (hnamed _))
    · have hlegible : LegibleField n := legibleField_of_not hname
        (by rw [hnamed, decide_eq_false hcoordinates]) (by rw [hnamed, decide_eq_false hlayer])
      simp only [if_neg hcoordinates, if_neg hlayer, hlegible, true_and]
      by_cases hid : t = "id".toList
      · subst hid
        exact pure_eq_ok_iff.trans eq_comm
      by_cases hpanel : t = "panel_attributes".toList
      · subst hpanel
        exact pure_eq_ok_iff.trans eq_comm
      by_cases hadditional : t = "additional_attributes".toList
      · subst hadditional
        exact pure_eq_ok_iff.trans eq_comm
      simp only [if_neg hid, if_neg hpanel, if_neg hadditional]
      exact pure_eq_ok_iff.trans eq_comm

/-- An element can be read if its children can be, and its record is the one that they decide, with
blanks around the kind taken away. -/
lemma readElement_eq_ok_iff {r : ElementRecord} :
    readElement n = .ok r ↔ (∀ m ∈ n.children, LegibleField m) ∧
      r = { lastFields n.children with id := Text.trim (lastText "id" n.children) } := by
  have hfold (r' : ElementRecord) : n.children.foldlM readField {} = .ok r' ↔
      (∀ m ∈ n.children, LegibleField m) ∧ r' = lastFields n.children :=
    foldlM_eq_ok_iff readField_eq_ok_iff
  exact made_eq_ok_iff (f := fun r => { r with id := Text.trim r.id }) (hfold _) Iff.rfl

/-- One edit among the children of an element with fields of some names. A node with none of these names
is put in, or one before another of the same name, or two neighbours of different names change places. -/
inductive Edit (names : List String) (Legible : Node → Prop) : List Node → List Node → Prop
  | foreign {before after : List Node} {n : Node} (hname : Namable n)
      (hother : namedIn names n = false) :
      Edit names Legible (before ++ after) (before ++ n :: after)
  | duplicate {before after : List Node} {n m : Node} (hm : m ∈ after) (hsame : tag n = tag m)
      (hlegible : Legible n) : Edit names Legible (before ++ after) (before ++ n :: after)
  | swap {before after : List Node} {n m : Node} (hdifferent : tag n ≠ tag m) :
      Edit names Legible (before ++ n :: m :: after) (before ++ m :: n :: after)

/-- One edit among the children of an element, or among those of coordinates inside it. -/
inductive FieldEdit : List Node → List Node → Prop
  | child {ns ms : List Node} (h : Edit fieldNames LegibleField ns ms) : FieldEdit ns ms
  | coordinates {before after ns ms : List Node} {name : Text} {attributes : List Xml.Attribute}
      (hnamed : named "coordinates" (.element name attributes ns) = true)
      (h : Edit coordinateNames LegibleNumber ns ms) :
      FieldEdit (before ++ .element name attributes ns :: after)
        (before ++ .element name attributes ms :: after)

variable {ms : List Node} {names : List String} {Legible : Node → Prop}

lemma lastNamed?_cons (name : String) (n : Node) (ns : List Node) : lastNamed? name (n :: ns) =
    (lastNamed? name ns).or (if named name n then some n else none) := by
  rw [← List.singleton_append, lastNamed?_append, lastNamed?_singleton]

lemma named_congr {m : Node} (h : tag n = tag m) : named name n = named name m := by
  rw [named, named, h]

/-- A node with another name does not matter. -/
lemma lastNamed?_insert (h : ¬ named name n = true) :
    lastNamed? name (ns ++ n :: ms) = lastNamed? name (ns ++ ms) := by
  rw [lastNamed?_append, lastNamed?_append, lastNamed?_cons, if_neg h, Option.or_none]

/-- Nor do the nodes before one that has the name. -/
lemma lastNamed?_append_of_mem {m : Node} (hm : m ∈ ms) (h : named name m = true) :
    lastNamed? name (ns ++ ms) = lastNamed? name ms := by
  have hsome : (lastNamed? name ms).isSome = true := by
    rw [lastNamed?, List.getLast?_isSome]
    exact List.ne_nil_of_mem (List.mem_filter.2 ⟨hm, h⟩)
  rw [lastNamed?_append, Option.or_of_isSome hsome]

/-- An edit leaves the last child with the name of a field as it is. -/
lemma Edit.lastNamed?_eq (h : Edit names Legible ns ms) (hname : name ∈ names) :
    lastNamed? name ns = lastNamed? name ms := by
  cases h with
  | foreign hnamable hother =>
    exact (lastNamed?_insert (List.any_eq_false.1 hother name hname)).symm
  | @duplicate before after n m hm hsame hlegible =>
    by_cases hn : named name n = true
    · have hlast : named name m = true := named_congr hsame ▸ hn
      rw [lastNamed?_append_of_mem hm hlast,
        lastNamed?_append_of_mem (List.mem_cons_of_mem n hm) hlast, ← List.singleton_append,
        lastNamed?_append_of_mem hm hlast]
    · exact (lastNamed?_insert hn).symm
  | @swap before after n m hdifferent =>
    by_cases hn : named name n = true
    · have hm : ¬ named name m = true := fun hm =>
        hdifferent ((tag_of_named hn).trans (tag_of_named hm).symm)
      calc lastNamed? name (before ++ n :: m :: after)
          = lastNamed? name (before ++ [n] ++ m :: after) := by rw [← List.append_cons]
        _ = lastNamed? name (before ++ [n] ++ after) := lastNamed?_insert hm
        _ = lastNamed? name (before ++ n :: after) := by rw [← List.append_cons]
        _ = lastNamed? name (before ++ m :: n :: after) := (lastNamed?_insert hm).symm
    · calc lastNamed? name (before ++ n :: m :: after)
          = lastNamed? name (before ++ m :: after) := lastNamed?_insert hn
        _ = lastNamed? name (before ++ [m] ++ after) := by rw [← List.append_cons]
        _ = lastNamed? name (before ++ [m] ++ n :: after) := (lastNamed?_insert hn).symm
        _ = lastNamed? name (before ++ m :: n :: after) := by rw [← List.append_cons]

/-- An edit puts in nothing that cannot be read, and takes nothing out. -/
lemma Edit.legible_iff (h : Edit names Legible ns ms)
    (hforeign : ∀ n, Namable n → namedIn names n = false → Legible n) :
    (∀ n ∈ ns, Legible n) ↔ ∀ n ∈ ms, Legible n := by
  cases h with
  | foreign hname hother =>
    simp only [List.forall_mem_append, List.forall_mem_cons, hforeign _ hname hother, true_and]
  | duplicate hm hsame hlegible =>
    simp only [List.forall_mem_append, List.forall_mem_cons, hlegible, true_and]
  | swap hdifferent => simp only [List.forall_mem_append, List.forall_mem_cons, and_left_comm]

lemma legibleNumber_of_foreign (hname : Namable n) (hother : namedIn coordinateNames n = false) :
    LegibleNumber n :=
  ⟨hname, fun h => absurd h (by simp [hother])⟩

lemma legibleField_of_foreign (hname : Namable n) (hother : namedIn fieldNames n = false) :
    LegibleField n := by
  have hnot (name : String) (h : name ∈ fieldNames) : named name n = false :=
    eq_false_of_ne_true (List.any_eq_false.1 hother name h)
  exact legibleField_of_not hname (hnot _ (by decide)) (hnot _ (by decide))

/-- Coordinates are the same after an edit. -/
lemma Edit.lastCoordinates_eq (h : Edit coordinateNames Legible ns ms) :
    lastCoordinates ns = lastCoordinates ms := by
  have hlast (name : String) (hname : name ∈ coordinateNames) :
      lastNumber name ns = lastNumber name ms := by
    rw [lastNumber, lastNumber, h.lastNamed?_eq hname]
  simp only [lastCoordinates, hlast "x" (by decide), hlast "y" (by decide), hlast "w" (by decide),
    hlast "h" (by decide)]

/-- Two lists of children decide the same record if the last ones with the names of fields are the same,
save that those with the coordinates need only decide the same coordinates. -/
lemma lastFields_congr (hother : ∀ name ∈ fieldNames, name ≠ "coordinates" →
      lastNamed? name ns = lastNamed? name ms)
    (hcoordinates : (lastNamed? "coordinates" ns).map (fun n => lastCoordinates n.children) =
      (lastNamed? "coordinates" ms).map fun n => lastCoordinates n.children) :
    lastFields ns = lastFields ms := by
  simp only [lastFields, lastText, hcoordinates, hother "id" (by decide) (by decide),
    hother "panel_attributes" (by decide) (by decide),
    hother "additional_attributes" (by decide) (by decide), hother "layer" (by decide) (by decide)]

/-- An edit changes neither what can be read nor what is decided. -/
lemma FieldEdit.agrees (h : FieldEdit ns ms) :
    ((∀ n ∈ ns, LegibleField n) ↔ ∀ n ∈ ms, LegibleField n) ∧ lastFields ns = lastFields ms := by
  cases h with
  | child h =>
    refine ⟨h.legible_iff fun n => legibleField_of_foreign, lastFields_congr ?_ ?_⟩
    · exact fun name hname _ => h.lastNamed?_eq hname
    · rw [h.lastNamed?_eq (by decide)]
  | @coordinates before after ns ms name attributes hnamed h =>
    have hname (f : String) : named f (.element name attributes ns) =
        named f (.element name attributes ms) := named_congr rfl
    have hbefore : LegibleField (.element name attributes ns) ↔ ∀ m ∈ ns, LegibleNumber m :=
      legibleField_iff_numbers hnamed
    have hafter : LegibleField (.element name attributes ms) ↔ ∀ m ∈ ms, LegibleNumber m :=
      legibleField_iff_numbers (hname _ ▸ hnamed)
    have hlegible : LegibleField (.element name attributes ns) ↔
        LegibleField (.element name attributes ms) := by
      rw [hbefore, hafter, h.legible_iff fun n => legibleNumber_of_foreign]
    refine ⟨?_, lastFields_congr ?_ ?_⟩
    · simp only [List.forall_mem_append, List.forall_mem_cons, hlegible]
    · intro f _ hf
      have hnot : ¬ named f (.element name attributes ns) = true :=
        fun h => hf (eq_of_named h hnamed)
      rw [lastNamed?_insert hnot, lastNamed?_insert (hname f ▸ hnot)]
    · have hsame : lastCoordinates (Node.element name attributes ns).children =
          lastCoordinates (Node.element name attributes ms).children := h.lastCoordinates_eq
      simp only [lastNamed?_append, lastNamed?_cons, Option.map_or, ← hname, if_pos hnamed,
        Option.map_some, hsame]

/-- Nor do any number of edits, or their undoing. -/
lemma agrees_of_edits (h : Relation.EqvGen FieldEdit ns ms) :
    ((∀ n ∈ ns, LegibleField n) ↔ ∀ n ∈ ms, LegibleField n) ∧ lastFields ns = lastFields ms := by
  induction h with
  | rel ns ms h => exact h.agrees
  | refl ns => exact ⟨Iff.rfl, rfl⟩
  | symm ns ms _ ih => exact ⟨ih.1.symm, ih.2.symm⟩
  | trans ns ms ls _ _ ih ih' => exact ⟨ih.1.trans ih'.1, ih.2.trans ih'.2⟩

/-- An element is read if and only if the names of its children can be looked up and no integer among
them has too many digits. Each field is decided by the last child with its name, and each coordinate by
the last child with its name of the last child that has the coordinates. So neither nodes with other
names nor children before another of the same name nor the order of different names make a difference. -/
theorem readElement_decided (n : Node) :
    (∀ r, readElement n = .ok r ↔ (∀ m ∈ n.children, LegibleField m) ∧
      r = { lastFields n.children with id := Text.trim (lastText "id" n.children) }) ∧
    ∀ m : Node, Relation.EqvGen FieldEdit n.children m.children →
      ∀ r, readElement n = .ok r ↔ readElement m = .ok r := by
  refine ⟨fun r => readElement_eq_ok_iff, fun m hedits r => ?_⟩
  obtain ⟨hlegible, hfields⟩ := agrees_of_edits hedits
  have hid : lastText "id" n.children = lastText "id" m.children :=
    congrArg ElementRecord.id hfields
  rw [readElement_eq_ok_iff, readElement_eq_ok_iff, hlegible, hfields, hid]

/-- A node with a name and a text. -/
def written (name text : String) : Node := .element name.toList [] [.text text.toList]

/-- Coordinates with some numbers. -/
def placed (numbers : List Node) : Node := .element "coordinates".toList [] numbers

/-- An element with a kind and a place. -/
def plainChildren : List Node := [written "id" "A", placed [written "x" "1", written "y" "2"]]

/-- The same element with a comment, another kind and another number before those that count, and its
kind after its place. -/
def editedChildren : List Node :=
  [.comment "note".toList, placed [written "x" "7", written "x" "1", written "y" "2"],
    written "ID" "B", written "id" "A"]

/-- Both elements have the same record. -/
theorem readElement_decided_edited :
    Relation.EqvGen FieldEdit plainChildren editedChildren ∧
      readElement (.element "element".toList [] editedChildren) =
        .ok { id := "A".toList, coordinates := { x := .number 1, y := .number 2 } } := by
  let place := placed [written "x" "1", written "y" "2"]
  have hswapped : Edit fieldNames LegibleField plainChildren [place, written "id" "A"] := by
    refine @Edit.swap _ _ [] [] (written "id" "A") place fun h => ?_
    exact absurd (Except.ok.inj h) (by decide : "id".toList ≠ "coordinates".toList)
  have hkind : Edit fieldNames LegibleField [place, written "id" "A"]
      [place, written "ID" "B", written "id" "A"] :=
    @Edit.duplicate _ _ [place] [written "id" "A"] (written "ID" "B") (written "id" "A")
      (List.mem_singleton.2 rfl) (by rfl) (legibleField_of_not ⟨_, rfl⟩ (by rfl) (by rfl))
  have hcomment : Edit fieldNames LegibleField [place, written "ID" "B", written "id" "A"]
      [.comment "note".toList, place, written "ID" "B", written "id" "A"] :=
    @Edit.foreign _ _ [] _ (.comment "note".toList) ⟨_, rfl⟩ (by rfl)
  have hnumber : Edit coordinateNames LegibleNumber [written "x" "1", written "y" "2"]
      [written "x" "7", written "x" "1", written "y" "2"] := by
    refine @Edit.duplicate _ _ [] [written "x" "1", written "y" "2"] (written "x" "7")
      (written "x" "1") (List.mem_cons_self ..) (by rfl) ⟨⟨_, rfl⟩, fun _ => ?_⟩
    rintro _ _ ⟨⟩
    decide
  have hplaced : FieldEdit [.comment "note".toList, place, written "ID" "B", written "id" "A"]
      editedChildren :=
    @FieldEdit.coordinates [.comment "note".toList] [written "ID" "B", written "id" "A"] _ _
      "coordinates".toList [] (by rfl) hnumber
  have hedits : Relation.EqvGen FieldEdit plainChildren editedChildren :=
    .trans _ _ _ (.rel _ _ (.child hswapped)) (.trans _ _ _ (.rel _ _ (.child hkind))
      (.trans _ _ _ (.rel _ _ (.child hcomment)) (.rel _ _ hplaced)))
  have hread : readElement (.element "element".toList [] plainChildren) =
      .ok { id := "A".toList, coordinates := { x := .number 1, y := .number 2 } } := by rfl
  exact ⟨hedits, ((readElement_decided (.element "element".toList [] plainChildren)).2
    (.element "element".toList [] editedChildren) hedits _).1 hread⟩

/-- A child with a label that stands for nothing. -/
def labelled : Node := .element "x:b".toList [] []

/-- The kinds of the elements of a document, if it can be read. -/
def kindsIn (source : Text) : Option (List Text) :=
  match (ofSource source).1 with
  | .ok ds => some ((ds.flatMap Diagram.records).map ElementRecord.id)
  | .error _ => none

/-- A child with another name is not passed over if its name cannot be looked up, and there are
documents with such children. -/
theorem readElement_labelled :
    namedIn fieldNames labelled = false ∧
      readElement (.element "element".toList [] [written "id" "K"]) = .ok { id := "K".toList } ∧
      readElement (.element "element".toList [] [written "id" "K", labelled]) =
        .error .unreadableName ∧
      kindsIn ("<diagram><element><id>K</id></element>".toList ++
        "<c xmlns=\"rel\"/></diagram>".toList) = some ["K".toList] ∧
      kindsIn ("<diagram><element><id>K</id><x:b/></element>".toList ++
        "<c xmlns=\"rel\"/></diagram>".toList) = none :=
  ⟨by rfl, by rfl, by rfl, by decide +kernel, by decide +kernel⟩

end UmlDrawing.Document
