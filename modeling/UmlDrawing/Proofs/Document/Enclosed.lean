import Mathlib.Algebra.BigOperators.Group.List.Basic
import Mathlib.Algebra.Order.Group.Multiset
import Mathlib.Tactic.Abel
import UmlDrawing.Document.Diagram
import UmlDrawing.Proofs.Fault

/-! How often the elements of a document are read. A diagram is read with all elements inside it, those
inside the diagrams it holds included, so an element is read once for every diagram around it that is
read. A root that is a diagram is the only one that is read, any other root gives way to all diagrams
inside it. -/
namespace UmlDrawing.Document

open Xml (Node)

/-- Whether a node has a name for look-up. -/
def named (name : String) (n : Node) : Bool := decide ((tag n).toOption = some name.toList)

lemma named_of_tag {name : String} {n : Node} {t : Text} (h : tag n = .ok t) :
    named name n = decide (t = name.toList) := by
  rw [named, h]
  simp [Except.toOption]

mutual

/-- All nodes inside a node in the order of the document, each with the number of diagrams around it;
so many are around the node itself. -/
def enclosed (depth : Nat) : Node → List (Nat × Node)
  | .element name attributes children =>
    enclosedOf (if named "diagram" (.element name attributes children) then depth + 1 else depth)
      children
  | _ => []

/-- Some nodes and all nodes inside them, each with the number of diagrams around it; so many are around
all of them. -/
def enclosedOf (depth : Nat) : List Node → List (Nat × Node)
  | [] => []
  | n :: ns => (depth, n) :: (enclosed depth n ++ enclosedOf depth ns)

end

/-- The elements inside the diagrams of a document, each with the number of diagrams around it. -/
def diagramElements (root : Node) : List (Nat × Node) :=
  (enclosed 0 root).filter fun p => decide (0 < p.1) && named "element" p.2

/-- The elements inside a node. -/
def elementsIn (n : Node) : List Node := (descendants n).filter (named "element")

/-- The elements among some nodes with numbers, each as often as its number says. -/
def copies (ps : List (Nat × Node)) : List Node :=
  ps.flatMap fun p => if named "element" p.2 then List.replicate p.1 p.2 else []

@[simp] lemma copies_nil : copies [] = [] := rfl

@[simp] lemma copies_cons (p : Nat × Node) (ps : List (Nat × Node)) :
    copies (p :: ps) =
      (if named "element" p.2 then List.replicate p.1 p.2 else []) ++ copies ps := rfl

@[simp] lemma copies_append (ps qs : List (Nat × Node)) :
    copies (ps ++ qs) = copies ps ++ copies qs := List.flatMap_append

mutual

lemma map_snd_enclosed (depth : Nat) : ∀ n, (enclosed depth n).map Prod.snd = descendants n
  | .element _ _ children => map_snd_enclosedOf _ children
  | .text _ | .comment _ | .instruction _ _ | .reference _ => rfl

lemma map_snd_enclosedOf (depth : Nat) :
    ∀ ns, (enclosedOf depth ns).map Prod.snd = descendantsOf ns
  | [] => rfl
  | n :: ns => by
    rw [enclosedOf, descendantsOf, List.map_cons, List.map_append, map_snd_enclosed depth n,
      map_snd_enclosedOf depth ns]

end

mutual

/-- The elements inside a node, each as often as there are diagrams around it, are those inside it once
for every diagram around the node itself and those inside each diagram that the node is or holds. -/
lemma coe_copies_enclosed (depth : Nat) : ∀ n, (copies (enclosed depth n) : Multiset Node) =
    depth • (elementsIn n : Multiset Node) +
      (((n :: descendants n).filter (named "diagram")).flatMap elementsIn : List Node)
  | .element name attributes children => by
    have hinside : elementsIn (.element name attributes children) =
        (descendantsOf children).filter (named "element") := rfl
    rw [enclosed, coe_copies_enclosedOf, hinside, descendants]
    by_cases h : named "diagram" (.element name attributes children) = true
    · rw [if_pos h, List.filter_cons_of_pos h, List.flatMap_cons, hinside, ← Multiset.coe_add,
        succ_nsmul, add_assoc]
    · rw [if_neg h, List.filter_cons_of_neg h]
  | .text _ | .comment _ | .instruction _ _ | .reference _ => by
    simp [enclosed, elementsIn, descendants, named, tag, Except.toOption]

lemma coe_copies_enclosedOf (depth : Nat) : ∀ ns, (copies (enclosedOf depth ns) : Multiset Node) =
    depth • ((descendantsOf ns).filter (named "element") : Multiset Node) +
      (((descendantsOf ns).filter (named "diagram")).flatMap elementsIn : List Node)
  | [] => by simp [enclosedOf, descendantsOf]
  | n :: ns => by
    have hself : ((if named "element" n then List.replicate depth n else [] : List Node) :
        Multiset Node) = depth • ((([n] : List Node).filter (named "element") : List Node)) := by
      by_cases h : named "element" n = true
      · simp [h, Multiset.nsmul_singleton, Multiset.coe_replicate]
      · simp [h]
    have hsplit : n :: (descendants n ++ descendantsOf ns) =
        [n] ++ descendants n ++ descendantsOf ns := rfl
    rw [enclosedOf, copies_cons, copies_append, descendantsOf, hsplit]
    simp only [List.filter_append, List.flatMap_append, ← Multiset.coe_add, nsmul_add]
    rw [hself, coe_copies_enclosed depth n, coe_copies_enclosedOf depth ns]
    have hcons : ((n :: descendants n).filter (named "diagram")).flatMap elementsIn =
        (([n] : List Node).filter (named "diagram")).flatMap elementsIn ++
          ((descendants n).filter (named "diagram")).flatMap elementsIn := by
      rw [← List.flatMap_append, ← List.filter_append]
      rfl
    rw [hcons, ← Multiset.coe_add, elementsIn]
    abel

end

mutual

lemma le_of_mem_enclosed {depth : Nat} {p : Nat × Node} :
    ∀ n, p ∈ enclosed depth n → depth ≤ p.1
  | .element name attributes children, h => by
    rw [enclosed] at h
    have hle := le_of_mem_enclosedOf children h
    split at hle <;> omega
  | .text _, h | .comment _, h | .instruction _ _, h | .reference _, h => absurd h List.not_mem_nil

lemma le_of_mem_enclosedOf {depth : Nat} {p : Nat × Node} :
    ∀ ns, p ∈ enclosedOf depth ns → depth ≤ p.1
  | [], h => absurd h List.not_mem_nil
  | n :: ns, h => by
    rw [enclosedOf, List.mem_cons, List.mem_append] at h
    obtain rfl | h | h := h
    · exact le_rfl
    · exact le_of_mem_enclosed n h
    · exact le_of_mem_enclosedOf ns h

end

/-- Whatever is inside a diagram has a diagram around it. -/
lemma pos_of_mem_enclosed {root : Node} (hroot : named "diagram" root = true) {p : Nat × Node}
    (h : p ∈ enclosed 0 root) : 0 < p.1 := by
  cases root with
  | element name attributes children =>
    rw [enclosed, if_pos hroot] at h
    exact le_of_mem_enclosedOf children h
  | text | comment | instruction | reference => exact absurd h List.not_mem_nil

lemma copies_eq (ps : List (Nat × Node)) : copies ps =
    (ps.filter fun p => decide (0 < p.1) && named "element" p.2).flatMap fun p =>
      List.replicate p.1 p.2 := by
  induction ps with
  | nil => rfl
  | cons p ps ih =>
    obtain ⟨depth, n⟩ := p
    rw [copies_cons, ih, List.filter_cons]
    by_cases h : named "element" n = true
    · cases depth with
      | zero => simp
      | succ depth => simp [h]
    · simp [h]

/-- The diagrams of a document that are read: its root if that is one, else all inside it. -/
def diagramsIn (root : Node) : List Node :=
  if named "diagram" root then [root] else (descendants root).filter (named "diagram")

/-- How often an element with so many diagrams around it is read in the document of a root. -/
def timesRead (root : Node) (p : Nat × Node) : Nat := if named "diagram" root then 1 else p.1

/-- The elements of the diagrams that are read are those inside diagrams, once if the root is a diagram
and else as often as there are diagrams around them. -/
theorem perm_elementsIn (root : Node) : ((diagramsIn root).flatMap elementsIn).Perm
    ((diagramElements root).flatMap fun p => List.replicate (timesRead root p) p.2) := by
  unfold diagramsIn timesRead
  by_cases h : named "diagram" root = true
  · have hall : diagramElements root = (enclosed 0 root).filter fun p => named "element" p.2 :=
      List.filter_congr fun p hp => by simp [pos_of_mem_enclosed h hp]
    have helements : elementsIn root = (diagramElements root).map Prod.snd := by
      rw [hall, elementsIn, ← map_snd_enclosed 0 root, List.filter_map]
      rfl
    simp only [h, if_true, List.flatMap_singleton, List.replicate_one, helements]
    rw [List.map_eq_flatMap]
  · have hcopies := coe_copies_enclosed 0 root
    rw [zero_nsmul, zero_add, List.filter_cons_of_neg h, copies_eq, Multiset.coe_eq_coe] at hcopies
    simp only [h]
    exact hcopies.symm

lemma collect_eq_ok_iff {α : Type} {name : String} {f : Node → Except Fault α} {ns : List Node}
    {found : List α} : collect name f ns = .ok found ↔
      (∀ n ∈ ns, ∃ t, tag n = .ok t) ∧ (ns.filter (named name)).map f = found.map .ok := by
  induction ns generalizing found with
  | nil =>
    rw [collect]
    simp [eq_comm]
  | cons n ns ih =>
    rw [collect, bind_eq_ok_iff, List.forall_mem_cons]
    constructor
    · rintro ⟨t, ht, h⟩
      by_cases hname : t = name.toList
      · rw [if_pos hname] at h
        obtain ⟨a, ha, h⟩ := bind_eq_ok_iff.1 h
        obtain ⟨as, has, h⟩ := bind_eq_ok_iff.1 h
        cases h
        obtain ⟨hreadable, hmap⟩ := ih.1 has
        have hn : named name n = true := by rw [named_of_tag ht, decide_eq_true hname]
        refine ⟨⟨⟨t, ht⟩, hreadable⟩, ?_⟩
        rw [List.filter_cons_of_pos hn, List.map_cons, ha, hmap, List.map_cons]
      · rw [if_neg hname] at h
        obtain ⟨hreadable, hmap⟩ := ih.1 h
        have hn : ¬ named name n = true := by rwa [named_of_tag ht, decide_eq_true_eq]
        refine ⟨⟨⟨t, ht⟩, hreadable⟩, ?_⟩
        rw [List.filter_cons_of_neg hn, hmap]
    · rintro ⟨⟨⟨t, ht⟩, hreadable⟩, hmap⟩
      refine ⟨t, ht, ?_⟩
      by_cases hname : t = name.toList
      · have hn : named name n = true := by rw [named_of_tag ht, decide_eq_true hname]
        rw [List.filter_cons_of_pos hn, List.map_cons] at hmap
        obtain ⟨a, as, rfl, ha, has⟩ := List.map_eq_cons_iff.1 hmap.symm
        rw [if_pos hname, ← ha, ok_bind, ih.2 ⟨hreadable, has.symm⟩]
        rfl
      · have hn : ¬ named name n = true := by rwa [named_of_tag ht, decide_eq_true_eq]
        rw [List.filter_cons_of_neg hn] at hmap
        rw [if_neg hname]
        exact ih.2 ⟨hreadable, hmap⟩

lemma exists_find? (name : String) {ns : List Node} (h : ∀ n ∈ ns, ∃ t, tag n = .ok t) :
    ∃ found, find? name ns = .ok found := by
  induction ns with
  | nil => exact ⟨none, rfl⟩
  | cons n ns ih =>
    obtain ⟨⟨t, ht⟩, hrest⟩ := List.forall_mem_cons.1 h
    rw [find?, ht, ok_bind]
    split
    · exact ⟨some n, rfl⟩
    · exact ih hrest

/-- A diagram has the records of all elements inside its node. -/
lemma records_of_readDiagram {n : Node} {d : Diagram} (h : (readDiagram n).1 = .ok d) :
    (∀ m ∈ descendants n, ∃ t, tag m = .ok t) ∧
      (elementsIn n).map readElement = d.records.map .ok := by
  unfold readDiagram at h
  dsimp only at h
  split at h
  · cases h
  · split at h
    · next help records hread =>
      cases h
      obtain ⟨found, -, hread⟩ := bind_eq_ok_iff.1 hread
      obtain ⟨records', hcollect, hread⟩ := bind_eq_ok_iff.1 hread
      cases hread
      exact collect_eq_ok_iff.1 hcollect
    · cases h

lemma exists_readDiagram {n : Node} (hreadable : ∀ m ∈ descendants n, ∃ t, tag m = .ok t)
    (hread : ∀ m ∈ elementsIn n, ∃ r, readElement m = .ok r) :
    ∃ d, (readDiagram n).1 = .ok d := by
  obtain ⟨zoom, hzoom⟩ := exists_find? "zoom_level" hreadable
  obtain ⟨help, hhelp⟩ := exists_find? "help_text" hreadable
  obtain ⟨records, hrecords⟩ := exists_mapM hread
  have hcollect : collect "element" readElement (descendants n) = .ok records :=
    collect_eq_ok_iff.2 ⟨hreadable, mapM_eq_ok_iff.1 hrecords⟩
  have hcontent : readContent (descendants n) =
      .ok ((help.map Node.textContent).getD [], records) := by
    rw [readContent, hhelp, ok_bind, hcollect]
    rfl
  have hlevel : ∃ level, readZoomLevel (descendants n) = .ok level := by
    rw [readZoomLevel, hzoom, ok_bind]
    cases zoom with
    | none => exact ⟨_, rfl⟩
    | some z => exact ⟨_, rfl⟩
  obtain ⟨level, hlevel⟩ := hlevel
  simp only [readDiagram, hlevel, hcontent]
  exact ⟨_, rfl⟩

lemma readDiagrams_eq (ns : List Node) :
    (readDiagrams ns).1 = ns.mapM fun n => (readDiagram n).1 := by
  induction ns with
  | nil => rfl
  | cons n ns ih =>
    rw [List.mapM_cons, ← ih, readDiagrams]
    rcases readDiagram n with ⟨_ | d, notes⟩
    · rfl
    · rcases readDiagrams ns with ⟨_ | ds, more⟩ <;> rfl

/-- The diagrams together have the records of all elements inside their nodes. -/
lemma records_of_readDiagrams {ns : List Node} {ds : List Diagram}
    (h : (readDiagrams ns).1 = .ok ds) :
    (ds.flatMap Diagram.records).map .ok = (ns.flatMap elementsIn).map readElement := by
  rw [readDiagrams_eq] at h
  induction ns generalizing ds with
  | nil =>
    cases h
    rfl
  | cons n ns ih =>
    rw [List.mapM_cons] at h
    obtain ⟨d, hd, h⟩ := bind_eq_ok_iff.1 h
    obtain ⟨ds', hds', h⟩ := bind_eq_ok_iff.1 h
    cases h
    rw [List.flatMap_cons, List.flatMap_cons, List.map_append, List.map_append, ih hds',
      (records_of_readDiagram hd).2]

/-- The names that are looked up before the diagrams of a document are known. -/
lemma diagramNodes_eq_ok_iff {root : Node} {ns : List Node} : diagramNodes root = .ok ns ↔
    (∃ t, tag root = .ok t) ∧
      (named "diagram" root = false → ∀ n ∈ descendants root, ∃ t, tag n = .ok t) ∧
      ns = diagramsIn root := by
  unfold diagramNodes diagramsIn
  rw [bind_eq_ok_iff]
  constructor
  · rintro ⟨t, ht, h⟩
    refine ⟨⟨t, ht⟩, ?_⟩
    by_cases hname : t = "diagram".toList
    · have hroot : named "diagram" root = true := by rw [named_of_tag ht, decide_eq_true hname]
      rw [if_pos hname] at h
      rw [hroot, if_pos rfl]
      exact ⟨fun hne => absurd hne (by decide), (pure_eq_ok_iff.1 h).symm⟩
    · have hroot : named "diagram" root = false := by
        rw [named_of_tag ht, decide_eq_false hname]
      rw [if_neg hname] at h
      obtain ⟨hreadable, hns⟩ := collect_eq_ok_iff.1 h
      rw [hroot, if_neg Bool.false_ne_true]
      exact ⟨fun _ => hreadable, (List.map_injective_iff.2 (fun _ _ => Except.ok.inj) hns).symm⟩
  · rintro ⟨⟨t, ht⟩, hreadable, rfl⟩
    refine ⟨t, ht, ?_⟩
    by_cases hname : t = "diagram".toList
    · have hroot : named "diagram" root = true := by rw [named_of_tag ht, decide_eq_true hname]
      rw [if_pos hname, hroot]
      rfl
    · have hroot : named "diagram" root = false := by
        rw [named_of_tag ht, decide_eq_false hname]
      rw [if_neg hname, hroot]
      exact collect_eq_ok_iff.2 ⟨hreadable hroot, rfl⟩

lemma ofRoot_eq_ok_iff {root : Node} {ds : List Diagram} : (ofRoot root).1 = .ok ds ↔
    diagramNodes root = .ok (diagramsIn root) ∧ (readDiagrams (diagramsIn root)).1 = .ok ds := by
  unfold ofRoot
  cases h : diagramNodes root with
  | error fault => simp
  | ok ns =>
    obtain ⟨-, -, rfl⟩ := diagramNodes_eq_ok_iff.1 h
    cases hns : diagramsIn root with
    | nil => simp [readDiagrams]
    | cons n ns => simp

mutual

lemma descendants_subset {m k : Node} (hk : k ∈ descendants m) :
    ∀ n, m ∈ descendants n → k ∈ descendants n
  | .element _ _ children, h => descendantsOf_subset hk children h
  | .text _, h | .comment _, h | .instruction _ _, h | .reference _, h => absurd h List.not_mem_nil

lemma descendantsOf_subset {m k : Node} (hk : k ∈ descendants m) :
    ∀ ns, m ∈ descendantsOf ns → k ∈ descendantsOf ns
  | [], h => absurd h List.not_mem_nil
  | n :: ns, h => by
    rw [descendantsOf, List.mem_cons, List.mem_append] at h ⊢
    obtain rfl | h | h := h
    · exact .inr (.inl hk)
    · exact .inr (.inl (descendants_subset hk n h))
    · exact .inr (.inr (descendantsOf_subset hk ns h))

end

lemma descendants_of_mem_diagramsIn {root n m : Node} (hn : n ∈ diagramsIn root)
    (hm : m ∈ descendants n) : m ∈ descendants root := by
  unfold diagramsIn at hn
  split at hn
  · obtain rfl := List.mem_singleton.1 hn
    exact hm
  · exact descendants_subset hm root (List.mem_filter.1 hn).1

lemma timesRead_pos {root : Node} {p : Nat × Node} (h : p ∈ diagramElements root) :
    0 < timesRead root p := by
  unfold timesRead
  split
  · exact Nat.one_pos
  · have hp := (List.mem_filter.1 h).2
    rw [Bool.and_eq_true, decide_eq_true_eq] at hp
    exact hp.1

/-- The elements that are read are those inside a diagram. -/
lemma mem_elementsIn_iff {root n : Node} :
    n ∈ (diagramsIn root).flatMap elementsIn ↔ ∃ p ∈ diagramElements root, p.2 = n := by
  rw [(perm_elementsIn root).mem_iff, List.mem_flatMap]
  refine exists_congr fun p => and_congr_right fun hp => ?_
  rw [List.mem_replicate, eq_comm (a := n)]
  exact and_iff_right (timesRead_pos hp).ne'

lemma eq_one_of_sum_eq_length {ns : List Nat} (hpos : ∀ n ∈ ns, 1 ≤ n)
    (hsum : ns.sum = ns.length) : ∀ n ∈ ns, n = 1 := by
  induction ns with
  | nil => exact fun n hn => absurd hn List.not_mem_nil
  | cons n ns ih =>
    obtain ⟨hn, hns⟩ := List.forall_mem_cons.1 hpos
    have hle := List.length_le_sum_of_one_le ns hns
    rw [List.sum_cons, List.length_cons] at hsum
    exact List.forall_mem_cons.2 ⟨by omega, ih hns (by omega)⟩

/-- Copies are a permutation of the members only if there is one of each. -/
lemma perm_map_iff {α β : Type} {f : α → β} {times : α → Nat} {as : List α}
    (hpos : ∀ a ∈ as, 0 < times a) :
    (as.flatMap fun a => List.replicate (times a) (f a)).Perm (as.map f) ↔
      ∀ a ∈ as, times a = 1 := by
  constructor
  · intro hperm
    have hlen := hperm.length_eq
    rw [List.length_flatMap, List.length_map] at hlen
    simp only [List.length_replicate] at hlen
    have hone := eq_one_of_sum_eq_length (List.forall_mem_map.2 hpos)
      (hlen.trans (List.length_map times).symm)
    exact List.forall_mem_map.1 hone
  · intro hone
    rw [List.map_eq_flatMap]
    refine List.Perm.of_eq (List.flatMap_congr fun a ha => ?_)
    rw [hone a ha, List.replicate_one]

/-- A document has diagrams if all names in it can be looked up and every element inside a diagram can
be read. The diagrams together have the record of each of these elements once if the root is a diagram,
and else as often as there are diagrams around the element: so no element is read twice if and only if
the root is a diagram or no element lies in a diagram that lies in another one. -/
theorem ofRoot_records (root : Node) :
    ((∃ ds, (ofRoot root).1 = .ok ds) ↔
      (∀ n ∈ root :: descendants root, ∃ t, tag n = .ok t) ∧
        ∀ p ∈ diagramElements root, ∃ r, readElement p.2 = .ok r) ∧
    ∀ ds, (ofRoot root).1 = .ok ds →
      ((ds.flatMap Diagram.records).map .ok).Perm
        ((diagramElements root).flatMap fun p =>
          List.replicate (if named "diagram" root then 1 else p.1) (readElement p.2)) ∧
      (((ds.flatMap Diagram.records).map .ok).Perm
          ((diagramElements root).map fun p => readElement p.2) ↔
        named "diagram" root = true ∨ ∀ p ∈ diagramElements root, p.1 = 1) := by
  have hperm : ∀ ds, (ofRoot root).1 = .ok ds → ((ds.flatMap Diagram.records).map .ok).Perm
      ((diagramElements root).flatMap fun p =>
        List.replicate (timesRead root p) (readElement p.2)) := by
    intro ds h
    rw [records_of_readDiagrams (ofRoot_eq_ok_iff.1 h).2]
    refine ((perm_elementsIn root).map readElement).trans (List.Perm.of_eq ?_)
    rw [List.map_flatMap]
    simp only [List.map_replicate]
  refine ⟨⟨?_, ?_⟩, fun ds h => ⟨hperm ds h, ?_⟩⟩
  · rintro ⟨ds, h⟩
    obtain ⟨hnodes, hread⟩ := ofRoot_eq_ok_iff.1 h
    obtain ⟨hroot, hinside, -⟩ := diagramNodes_eq_ok_iff.1 hnodes
    refine ⟨List.forall_mem_cons.2 ⟨hroot, ?_⟩, fun p hp => ?_⟩
    · cases hdiagram : named "diagram" root with
      | false => exact hinside hdiagram
      | true =>
        have hmem : root ∈ diagramsIn root := by simp [diagramsIn, hdiagram]
        rw [readDiagrams_eq] at hread
        obtain ⟨d, hd⟩ := exists_of_mapM hread root hmem
        exact (records_of_readDiagram hd).1
    · have hmem : readElement p.2 ∈ (ds.flatMap Diagram.records).map Except.ok := by
        rw [records_of_readDiagrams hread]
        exact List.mem_map_of_mem (mem_elementsIn_iff.2 ⟨p, hp, rfl⟩)
      obtain ⟨r, -, hr⟩ := List.mem_map.1 hmem
      exact ⟨r, hr.symm⟩
  · rintro ⟨hreadable, hread⟩
    obtain ⟨hroot, hinside⟩ := List.forall_mem_cons.1 hreadable
    have hnodes := diagramNodes_eq_ok_iff.2 ⟨hroot, fun _ => hinside, rfl⟩
    have hdiagrams : ∀ n ∈ diagramsIn root, ∃ d, (readDiagram n).1 = .ok d := by
      intro n hn
      refine exists_readDiagram (fun m hm => hinside m (descendants_of_mem_diagramsIn hn hm)) ?_
      intro m hm
      obtain ⟨p, hp, rfl⟩ := mem_elementsIn_iff.1 (List.mem_flatMap.2 ⟨n, hn, hm⟩)
      exact hread p hp
    obtain ⟨ds, hds⟩ := exists_mapM hdiagrams
    rw [← readDiagrams_eq] at hds
    exact ⟨ds, ofRoot_eq_ok_iff.2 ⟨hnodes, hds⟩⟩
  · rw [(hperm ds h).congr_left]
    refine (perm_map_iff fun p hp => timesRead_pos hp).trans ?_
    unfold timesRead
    cases named "diagram" root with
    | true => simp
    | false => simp

/-- A diagram that holds a diagram with one element. -/
def diagramInDiagram : Node :=
  .element "diagram".toList [] [.element "diagram".toList []
    [.element "element".toList [] [.element "id".toList [] [.text "A".toList]]]]

/-- As a root, the outer diagram is the only one that is read, and its element is read once. -/
theorem ofRoot_records_of_diagram :
    ∃ ds, (ofRoot diagramInDiagram).1 = .ok ds ∧ (diagramElements diagramInDiagram).length = 1 ∧
      ((ds.flatMap Diagram.records).map .ok).Perm
        ((diagramElements diagramInDiagram).map fun p => readElement p.2) := by
  have hread : ∃ ds, (ofRoot diagramInDiagram).1 = .ok ds := ⟨_, rfl⟩
  obtain ⟨ds, hds⟩ := hread
  exact ⟨ds, hds, rfl, ((ofRoot_records diagramInDiagram).2 ds hds).2.2 (.inl rfl)⟩

/-- Under any other root both diagrams are read, and the element in them is read twice. -/
theorem ofRoot_reads_twice :
    ∃ ds, (ofRoot (.element "umlet".toList [] [diagramInDiagram])).1 = .ok ds ∧
      diagramElements (.element "umlet".toList [] [diagramInDiagram]) =
        [(2, .element "element".toList [] [.element "id".toList [] [.text "A".toList]])] ∧
      (ds.flatMap Diagram.records).map ElementRecord.id = ["A".toList, "A".toList] ∧
      ¬ ((ds.flatMap Diagram.records).map .ok).Perm
        ((diagramElements (.element "umlet".toList [] [diagramInDiagram])).map fun p =>
          readElement p.2) := by
  refine ⟨_, rfl, rfl, rfl, fun hperm => ?_⟩
  exact absurd hperm.length_eq (by decide)

end UmlDrawing.Document
