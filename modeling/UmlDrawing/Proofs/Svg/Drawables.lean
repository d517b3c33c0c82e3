import UmlDrawing.Proofs.Fault
import UmlDrawing.Proofs.Svg.Sheet
import UmlDrawing.Svg.Printer

/-! What a document draws, in document order: its paths and texts, those of inner groups included.
A document that is written has an element for each of them, in the same order. -/
namespace UmlDrawing

namespace Xml.Node

mutual

/-- The paths and texts of a node, in document order, without those that are only defined. -/
def drawn : Node → List Node
  | element name attributes children =>
    if name = "defs".toList then []
    else if name = "path".toList ∨ name = "text".toList then
      element name attributes children :: drawnOf children
    else drawnOf children
  | _ => []

/-- The paths and texts of some nodes, in document order. -/
def drawnOf : List Node → List Node
  | [] => []
  | n :: ns => n.drawn ++ drawnOf ns

end

end Xml.Node

namespace Svg

/-- What is drawn of an item, in document order. The fuel bounds the depth of the groups. -/
def leaves (groups : List Group) : Nat → Item → Except Fault (List Item)
  | 0, .group _ => .error .cyclicDrawing
  | fuel + 1, .group number => do
    let inner ← (groups.getD number {}).items.mapM (leaves groups fuel)
    pure inner.flatten
  | _, item => pure [item]

/-- All paths and texts of a document, in document order. -/
def Document.drawables (d : Document) : Except Fault (List Item) := do
  let inner ← (d.groups.headD {}).items.mapM (leaves d.groups d.groups.length)
  pure inner.flatten

/-- An item that is written as a node. -/
def Prints (item : Item) (node : Xml.Node) : Prop := itemNode [] 0 item = .ok node

variable {groups : List Group} {fuel : Nat} {item : Item} {items ds : List Item} {ns : List Nat}
  {node : Xml.Node} {nodes : List Xml.Node} {d : Document}

lemma leaves_of_not_isGroup (h : ¬ item.IsGroup) : leaves groups fuel item = .ok [item] := by
  cases item with
  | group number => exact absurd trivial h
  | path data paint => cases fuel <;> rfl
  | text content position font ink => cases fuel <;> rfl

/-- Fuel for as many groups as there are inside is enough. -/
theorem leaves_of_lists (h : Lists d.contents items ds ns) (hfuel : ns.length ≤ fuel) :
    ∃ dss, items.mapM (leaves d.groups fuel) = .ok dss ∧ dss.flatten = ds := by
  induction h generalizing fuel with
  | nil => exact ⟨[], rfl, rfl⟩
  | @drawn item rest ds ns hitem _ ih =>
    obtain ⟨dss, hrest, rfl⟩ := ih hfuel
    refine ⟨[item] :: dss, ?_, rfl⟩
    rw [List.mapM_cons, leaves_of_not_isGroup hitem, hrest]
    rfl
  | @group n inner rest ds es ns ms hn _ _ ihinner ihrest =>
    simp only [List.length_cons, List.length_append] at hfuel
    -- this group takes one step of fuel and is one of the groups that bound it
    obtain ⟨fuel, rfl⟩ := Nat.exists_eq_succ_of_ne_zero (n := fuel) (by omega)
    obtain ⟨dss, hinner, rfl⟩ := ihinner (show ns.length ≤ fuel by omega)
    obtain ⟨ess, hrest, rfl⟩ := ihrest (show ms.length ≤ fuel + 1 by omega)
    have hgroup : (d.groups.getD n {}).items = inner := by
      rw [Document.contents] at hn
      obtain ⟨g, hg, rfl⟩ := Option.map_eq_some_iff.1 hn
      rw [List.getD_eq_getElem?_getD, hg, Option.getD_some]
    refine ⟨dss.flatten :: ess, ?_, rfl⟩
    rw [List.mapM_cons, leaves, hgroup, hinner, hrest]
    rfl

/-- The groups inside a document are different from each other, so there are not more inside of items
than there are in all. -/
lemma length_le_of_lists (h : Lists d.contents items ds ns) (hnodup : ns.Nodup) :
    ns.length ≤ d.groups.length := by
  have hsubset : ns ⊆ List.range d.groups.length := fun n hn =>
    List.mem_range.2 (Document.lt_of_contents_isSome (h.isSome n hn))
  have hle := (hnodup.subperm hsubset).length_le
  rwa [List.length_range] at hle

/-- A group draws what is listed for it. -/
lemma leaves_group_of_lists {k : Nat} (h : Lists d.contents [.group k] ds ns) (hnodup : ns.Nodup) :
    leaves d.groups d.groups.length (.group k) = .ok ds := by
  obtain ⟨dss, hdss, hflatten⟩ := leaves_of_lists h (length_le_of_lists h hnodup)
  rw [List.mapM_cons, List.mapM_nil] at hdss
  obtain ⟨es, hes, hdss⟩ := bind_eq_ok_iff.1 hdss
  cases hdss
  rw [hes, ← hflatten, List.flatten_singleton]

/-- The groups inside a document are not deeper than there are groups. -/
theorem drawables_of_lists (h : Lists d.contents [.group 0] ds ns) (hnodup : ns.Nodup) :
    d.drawables = .ok ds := by
  have hbound := length_le_of_lists h hnodup
  cases h with
  | drawn hitem _ => exact absurd trivial hitem
  | @group n inner rest ds es ns ms hn hinner hrest =>
    cases hrest
    simp only [List.append_nil, List.length_cons] at hbound ⊢
    obtain ⟨dss, hdss, rfl⟩ := leaves_of_lists hinner (show ns.length ≤ d.groups.length by omega)
    have hgroup : (d.groups.headD {}).items = inner := by
      rw [Document.contents] at hn
      obtain ⟨g, hg, rfl⟩ := Option.map_eq_some_iff.1 hn
      cases hgroups : d.groups with
      | nil => simp [hgroups] at hg
      | cons g' rest =>
        rw [hgroups] at hg
        cases hg
        rfl
    rw [Document.drawables, hgroup, hdss]
    rfl

lemma drawn_of_pathNode {data : List (Subpath Scalar)} {attributes : List Xml.Attribute}
    (h : pathNode data attributes = .ok node) : node.drawn = [node] := by
  rw [pathNode] at h
  obtain ⟨_, -, h⟩ := bind_eq_ok_iff.1 h
  obtain ⟨_, -, h⟩ := bind_eq_ok_iff.1 h
  obtain ⟨_, -, h⟩ := bind_eq_ok_iff.1 h
  cases h
  rfl

lemma drawn_of_textNode {content ink : Text} {position : Vec Scalar} {font : FontStyle Scalar}
    (h : textNode content position font ink = .ok node) : node.drawn = [node] := by
  rw [textNode] at h
  obtain ⟨_, -, h⟩ := bind_eq_ok_iff.1 h
  obtain ⟨_, -, h⟩ := bind_eq_ok_iff.1 h
  obtain ⟨_, -, h⟩ := bind_eq_ok_iff.1 h
  cases h
  rfl

/-- The items that are drawn are written as the nodes that are drawn. -/
def Writes (dss : Except Fault (List (List Item))) (nodes : List Xml.Node) : Prop :=
  ∃ ds, dss = .ok ds ∧ List.Forall₂ Prints ds.flatten nodes

lemma writes_items (hitem : ∀ item node, itemNode groups fuel item = .ok node →
      ∃ ds, leaves groups fuel item = .ok ds ∧ List.Forall₂ Prints ds node.drawn)
    (h : itemNodes groups fuel items = .ok nodes) :
    Writes (items.mapM (leaves groups fuel)) (Xml.Node.drawnOf nodes) := by
  induction items generalizing nodes with
  | nil =>
    rw [itemNodes] at h
    cases h
    exact ⟨[], rfl, .nil⟩
  | cons item items ih =>
    rw [itemNodes] at h
    obtain ⟨node, hnode, h⟩ := bind_eq_ok_iff.1 h
    obtain ⟨rest, hrest, h⟩ := bind_eq_ok_iff.1 h
    cases h
    obtain ⟨ds, hds, hprints⟩ := hitem item node hnode
    obtain ⟨dss, hdss, hprintss⟩ := ih hrest
    refine ⟨ds :: dss, ?_, ?_⟩
    · rw [List.mapM_cons, hds, hdss]
      rfl
    · rw [List.flatten_cons, Xml.Node.drawnOf]
      exact List.rel_append hprints hprintss

lemma itemNode_of_not_isGroup (h : ¬ item.IsGroup) :
    itemNode groups fuel item = itemNode [] 0 item := by
  cases item with
  | group number => exact absurd trivial h
  | path data paint => rw [itemNode, itemNode]
  | text content position font ink => rw [itemNode, itemNode]

lemma drawn_of_itemNode (h : ¬ item.IsGroup) (hnode : itemNode groups fuel item = .ok node) :
    node.drawn = [node] := by
  cases item with
  | group number => exact absurd trivial h
  | path data paint =>
    rw [itemNode] at hnode
    obtain ⟨_, -, hnode⟩ := bind_eq_ok_iff.1 hnode
    exact drawn_of_pathNode hnode
  | text content position font ink =>
    rw [itemNode] at hnode
    exact drawn_of_textNode hnode

lemma leaves_of_drawn (hitem : ¬ item.IsGroup) (h : itemNode groups fuel item = .ok node) :
    ∃ ds, leaves groups fuel item = .ok ds ∧ List.Forall₂ Prints ds node.drawn := by
  refine ⟨[item], leaves_of_not_isGroup hitem, ?_⟩
  rw [drawn_of_itemNode hitem h]
  exact .cons ((itemNode_of_not_isGroup hitem).symm.trans h) .nil

/-- An item is written with all that is drawn of it, in order. -/
theorem leaves_of_itemNode (h : itemNode groups fuel item = .ok node) :
    ∃ ds, leaves groups fuel item = .ok ds ∧ List.Forall₂ Prints ds node.drawn := by
  induction fuel generalizing item node with
  | zero =>
    cases item with
    | group number =>
      rw [itemNode] at h
      cases h
    | _ => exact leaves_of_drawn (fun hgroup => hgroup) h
  | succ fuel ih =>
    cases item with
    | group number =>
      rw [itemNode] at h
      obtain ⟨attributes, -, h⟩ := bind_eq_ok_iff.1 h
      obtain ⟨nodes, hnodes, h⟩ := bind_eq_ok_iff.1 h
      cases h
      obtain ⟨dss, hdss, hprints⟩ := writes_items (fun _ _ => ih) hnodes
      refine ⟨dss.flatten, ?_, hprints⟩
      rw [leaves, hdss]
      rfl
    | _ => exact leaves_of_drawn (fun hgroup => hgroup) h

/-- A document is written with all that it draws, in order. -/
theorem drawables_of_node (h : d.node = .ok node) :
    ∃ ds, d.drawables = .ok ds ∧ List.Forall₂ Prints ds node.drawn := by
  rw [Document.node] at h
  obtain ⟨_, -, h⟩ := bind_eq_ok_iff.1 h
  obtain ⟨_, -, h⟩ := bind_eq_ok_iff.1 h
  obtain ⟨clips, -, h⟩ := bind_eq_ok_iff.1 h
  obtain ⟨nodes, hnodes, h⟩ := bind_eq_ok_iff.1 h
  cases h
  obtain ⟨dss, hdss, hprints⟩ := writes_items (fun _ _ => leaves_of_itemNode) hnodes
  refine ⟨dss.flatten, ?_, hprints⟩
  rw [Document.drawables, hdss]
  rfl

end Svg

end UmlDrawing
