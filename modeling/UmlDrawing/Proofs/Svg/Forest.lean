import Mathlib.Logic.Function.Basic
import UmlDrawing.Proofs.Svg.Listing

/-! The groups of all surfaces. A surface that was not placed has a spine of its own, which ends at
the group it is drawn to and holds the groups it can go back to; a surface that was placed draws to
no spine any more. -/
namespace UmlDrawing.Svg

/-- The groups of a surface: its first, the one that is drawn to, and those to go back to, the
latest first. -/
structure Footing where
  root : Nat
  container : Nat
  saved : List Nat

/-- Keeps the group that is drawn to. -/
def Footing.push (f : Footing) : Footing := { f with saved := f.container :: f.saved }

/-- Goes back to the group that was kept last, if there is one. -/
def Footing.pop (f : Footing) : Footing :=
  match f.saved with
  | [] => f
  | k :: saved => { f with container := k, saved := saved }

/-- A spine with what is drawn in it and the groups inside that are not on it. -/
structure Branch where
  spine : List Nat
  drawn : List Item
  closed : List Nat

/-- Some groups to go back to, one after the other along a spine. -/
def Nested : List Nat → List Nat → Prop
  | [], _ => True
  | k :: saved, spine => ∃ p, p ++ [k] <+: spine ∧ Nested saved (p ++ [k])

lemma Nested.extend {saved p q : List Nat} (h : Nested saved p) (hpq : p <+: q) :
    Nested saved q := by
  cases saved with
  | nil => trivial
  | cons k saved =>
    obtain ⟨r, hr, hnested⟩ := h
    exact ⟨r, hr.trans hpq, hnested⟩

lemma Nested.mem {saved spine : List Nat} (h : Nested saved spine) : ∀ k ∈ saved, k ∈ spine := by
  induction saved generalizing spine with
  | nil => simp
  | cons n saved ih =>
    obtain ⟨p, hp, hnested⟩ := h
    intro k hk
    obtain rfl | hk := List.mem_cons.1 hk
    · exact hp.subset (by simp)
    · exact hp.subset (ih hnested k hk)

namespace Branch

/-- All groups of a branch. -/
def numbers (b : Branch) : List Nat := b.spine ++ b.closed

/-- A branch with more drawn at its end, some of it inside of other groups. -/
def extend (b : Branch) (ds : List Item) (ms : List Nat) : Branch :=
  { b with drawn := b.drawn ++ ds, closed := b.closed ++ ms }

/-- The branch of a surface: its spine goes from the first group to the one that is drawn to. -/
structure Bears (c : Contents) (b : Branch) (f : Footing) : Prop where
  spine : Spine c b.spine b.drawn b.closed
  nodup : b.numbers.Nodup
  root : b.spine.head? = some f.root
  container : b.spine.getLast? = some f.container
  saved : Nested f.saved b.spine

variable {c c' : Contents} {b : Branch} {f : Footing}

lemma Bears.isSome (h : b.Bears c f) : ∀ n ∈ b.numbers, (c n).isSome := h.spine.isSome

lemma Bears.congr (h : b.Bears c f) (hsame : ∀ n ∈ b.numbers, c' n = c n) : b.Bears c' f :=
  { h with spine := h.spine.congr hsame }

lemma Bears.container_mem (h : b.Bears c f) : f.container ∈ b.spine :=
  List.mem_of_getLast? h.container

/-- The groups that a surface can draw to are on its spine. -/
lemma Bears.footing_mem (h : b.Bears c f) : ∀ k ∈ f.container :: f.saved, k ∈ b.spine :=
  List.forall_mem_cons.2 ⟨h.container_mem, h.saved.mem⟩

/-- What is added to the group that is drawn to comes last on its branch. -/
lemma Bears.extend (h : b.Bears c f) {item : Item} {es : List Item} {ms : List Nat}
    (hgrows : Grows c c' f.container item) (hitem : Lists c' [item] es ms) (hnodup : ms.Nodup)
    (hdisjoint : ∀ k ∈ b.numbers, k ∉ ms) : (b.extend es ms).Bears c' f where
  spine := h.spine.push hgrows h.container h.nodup hitem
  nodup := by
    rw [numbers, Branch.extend, ← List.append_assoc]
    refine List.nodup_append.2 ⟨h.nodup, hnodup, ?_⟩
    rintro k hk l hl rfl
    exact hdisjoint k hk hl
  root := h.root
  container := h.container
  saved := h.saved

end Branch

/-- The branches of all surfaces that were not placed have no group in common, and those that were
placed draw to no spine. -/
structure Forest (c : Contents) (footings : List Footing) (placed : List Nat)
    (branch : Nat → Branch) : Prop where
  bears {i : Nat} {f : Footing} (hf : footings[i]? = some f) (hi : i ∉ placed) :
    (branch i).Bears c f
  apart {i j : Nat} {f g : Footing} (hf : footings[i]? = some f) (hg : footings[j]? = some g)
    (hi : i ∉ placed) (hj : j ∉ placed) (hne : i ≠ j) {n : Nat} (hn : n ∈ (branch i).numbers) :
    n ∉ (branch j).numbers
  known {i : Nat} {f : Footing} (hf : footings[i]? = some f) (hi : i ∈ placed) {k : Nat}
    (hk : k ∈ f.container :: f.saved) : (c k).isSome
  sealed {i j : Nat} {f g : Footing} (hf : footings[i]? = some f) (hg : footings[j]? = some g)
    (hi : i ∈ placed) (hj : j ∉ placed) {k : Nat} (hk : k ∈ f.container :: f.saved) :
    k ∉ (branch j).spine

/-- Branches of other groups on which the same is drawn. -/
def Regroups (c : Contents) (footings : List Footing) (placed : List Nat)
    (branch : Nat → Branch) : Prop :=
  ∃ branch', Forest c footings placed branch' ∧ ∀ j, (branch' j).drawn = (branch j).drawn

variable {c c' : Contents} {footings : List Footing} {placed : List Nat} {branch : Nat → Branch}
  {i j m n : Nat} {f f' g : Footing} {b : Branch} {item : Item}

lemma not_isSome_of_none (h : c n = none) : ¬ (c n).isSome := by
  rw [h]
  exact Bool.false_ne_true

section Lists

variable {α : Type} {l : List α} {x y : α}

lemma getElem?_set_cases (h : (l.set i x)[j]? = some y) :
    (j = i ∧ y = x) ∨ (j ≠ i ∧ l[j]? = some y) := by
  by_cases hij : j = i
  · subst hij
    have hlt : j < (l.set j x).length := (List.getElem?_eq_some_iff.1 h).1
    rw [List.length_set] at hlt
    rw [List.getElem?_set_self hlt] at h
    exact .inl ⟨rfl, (Option.some.inj h).symm⟩
  · rw [List.getElem?_set_ne (Ne.symm hij)] at h
    exact .inr ⟨hij, h⟩

lemma getElem?_concat_cases (h : (l ++ [x])[j]? = some y) :
    (j = l.length ∧ y = x) ∨ (j ≠ l.length ∧ l[j]? = some y) := by
  by_cases hlt : j < l.length
  · rw [List.getElem?_append_left hlt] at h
    exact .inr ⟨Nat.ne_of_lt hlt, h⟩
  · have hbound : j < (l ++ [x]).length := (List.getElem?_eq_some_iff.1 h).1
    rw [List.length_append, List.length_singleton] at hbound
    obtain rfl : j = l.length := by omega
    rw [List.getElem?_concat_length] at h
    exact .inl ⟨rfl, (Option.some.inj h).symm⟩

lemma getElem?_singleton_eq_some (h : [x][j]? = some y) : j = 0 ∧ y = x := by
  obtain hlast | ⟨-, hnone⟩ := getElem?_concat_cases (l := []) h
  · exact hlast
  · cases hnone

lemma set_eq_self (h : l[i]? = some x) : l.set i x = l := by
  obtain ⟨hlt, rfl⟩ := List.getElem?_eq_some_iff.1 h
  exact List.set_getElem_self hlt

end Lists

namespace Forest

/-- A change of one branch, to groups of its own and to new ones. -/
lemma replace (h : Forest c footings placed branch) (hf : footings[i]? = some f) (hi : i ∉ placed)
    (hbears : b.Bears c' f') (hsome : ∀ n, (c n).isSome → (c' n).isSome)
    (hsame : ∀ n, (c n).isSome → n ∉ (branch i).numbers → c' n = c n)
    (hnumbers : ∀ n ∈ b.numbers, n ∈ (branch i).numbers ∨ c n = none)
    (hspine : ∀ n ∈ b.spine, n ∈ (branch i).spine ∨ c n = none) :
    Forest c' (footings.set i f') placed (Function.update branch i b) where
  bears {j g} hget hj := by
    obtain ⟨rfl, rfl⟩ | ⟨hne, hg⟩ := getElem?_set_cases hget
    · rw [Function.update_self]
      exact hbears
    · rw [Function.update_of_ne hne]
      have hbranch := h.bears hg hj
      exact hbranch.congr fun n hn => hsame n (hbranch.isSome n hn) (h.apart hg hf hj hi hne hn)
  apart {j k g g'} hget hget' hj hk hne n hn := by
    obtain ⟨rfl, rfl⟩ | ⟨hji, hg⟩ := getElem?_set_cases hget
    · obtain ⟨rfl, -⟩ | ⟨hki, hg'⟩ := getElem?_set_cases hget'
      · exact absurd rfl hne
      · rw [Function.update_self] at hn
        rw [Function.update_of_ne hki]
        obtain hold | hnew := hnumbers n hn
        · exact h.apart hf hg' hi hk hne hold
        · exact fun hmem => not_isSome_of_none hnew ((h.bears hg' hk).isSome n hmem)
    · rw [Function.update_of_ne hji] at hn
      obtain ⟨rfl, -⟩ | ⟨hki, hg'⟩ := getElem?_set_cases hget'
      · rw [Function.update_self]
        intro hmem
        obtain hold | hnew := hnumbers n hmem
        · exact h.apart hg hf hj hi hne hn hold
        · exact not_isSome_of_none hnew ((h.bears hg hj).isSome n hn)
      · rw [Function.update_of_ne hki]
        exact h.apart hg hg' hj hk hne hn
  known {j g} hget hj k hk := by
    obtain ⟨rfl, rfl⟩ | ⟨-, hg⟩ := getElem?_set_cases hget
    · exact absurd hj hi
    · exact hsome k (h.known hg hj hk)
  sealed {j l g g'} hget hget' hj hl k hk := by
    obtain ⟨rfl, rfl⟩ | ⟨-, hg⟩ := getElem?_set_cases hget
    · exact absurd hj hi
    · obtain ⟨rfl, -⟩ | ⟨hli, hg'⟩ := getElem?_set_cases hget'
      · rw [Function.update_self]
        intro hmem
        obtain hold | hnew := hspine k hmem
        · exact h.sealed hg hf hj hi hk hold
        · exact not_isSome_of_none hnew (h.known hg hj hk)
      · rw [Function.update_of_ne hli]
        exact h.sealed hg hg' hj hl hk

lemma container_isSome (h : Forest c footings placed branch) (hf : footings[i]? = some f) :
    (c f.container).isSome := by
  by_cases hi : i ∈ placed
  · exact h.known hf hi (List.mem_cons_self ..)
  · exact (h.bears hf hi).isSome _ (List.mem_append_left _ (h.bears hf hi).container_mem)

lemma isSome_of_grows (hgrows : Grows c c' m item) (hn : (c n).isSome) : (c' n).isSome := by
  by_cases hne : n = m
  · subst hne
    obtain ⟨inner, hinner⟩ := Option.isSome_iff_exists.1 hn
    rw [hgrows.at_end hinner, Option.isSome_some]
  · rw [hgrows.same hn hne]
    exact hn

/-- What is drawn to a surface comes last on its branch. -/
theorem draw (h : Forest c footings placed branch) (hf : footings[i]? = some f) (hi : i ∉ placed)
    (hgrows : Grows c c' f.container item) (hitem : ¬ item.IsGroup) :
    Forest c' (footings.set i f) placed (Function.update branch i
      { branch i with drawn := (branch i).drawn ++ [item] }) := by
  have hbranch := h.bears hf hi
  have hcontainer : f.container ∈ (branch i).numbers :=
    List.mem_append_left _ hbranch.container_mem
  refine h.replace hf hi ?_ (fun n hn => isSome_of_grows hgrows hn) ?_ (fun n hn => .inl hn)
    fun n hn => .inl hn
  · have hpushed := hbranch.extend hgrows (.drawn hitem .nil) List.nodup_nil
      fun _ _ => List.not_mem_nil
    rw [Branch.extend, List.append_nil] at hpushed
    exact hpushed
  · intro n hn hnotin
    exact hgrows.same hn fun heq => hnotin (heq ▸ hcontainer)

/-- A group that is opened on a surface becomes the end of its spine. -/
theorem clip (h : Forest c footings placed branch) (hf : footings[i]? = some f) (hi : i ∉ placed)
    (hgrows : Grows c c' f.container (.group m)) (hfresh : c m = none) (hm : c' m = some []) :
    Forest c' (footings.set i { f with container := m }) placed (Function.update branch i
      { branch i with spine := (branch i).spine ++ [m] }) := by
  have hbranch := h.bears hf hi
  have hcontainer : f.container ∈ (branch i).numbers :=
    List.mem_append_left _ hbranch.container_mem
  have hnotin : m ∉ (branch i).numbers := fun hmem =>
    not_isSome_of_none hfresh (hbranch.isSome m hmem)
  refine h.replace hf hi ?_ (fun n hn => isSome_of_grows hgrows hn) ?_ ?_ ?_
  · refine ⟨hbranch.spine.descend hgrows hbranch.container hbranch.nodup hm, ?_, ?_, ?_, ?_⟩
    · have hnodup : (m :: (branch i).numbers).Nodup := List.nodup_cons.2 ⟨hnotin, hbranch.nodup⟩
      refine (List.Perm.nodup_iff ?_).2 hnodup
      refine List.perm_iff_count.2 fun a => ?_
      simp only [Branch.numbers, List.count_append, List.count_cons, List.count_nil]
      omega
    · rw [List.head?_append, hbranch.root]
      rfl
    · rw [List.getLast?_concat]
    · exact hbranch.saved.extend (List.prefix_append _ _)
  · intro n hn hne
    exact hgrows.same hn fun heq => hne (heq ▸ hcontainer)
  · intro n hn
    simp only [Branch.numbers, List.mem_append, List.mem_singleton] at hn ⊢
    obtain (hn | rfl) | hn := hn
    · exact .inl (.inl hn)
    · exact .inr hfresh
    · exact .inl (.inr hn)
  · intro n hn
    obtain hn | hn := List.mem_append.1 hn
    · exact .inl hn
    · obtain rfl := List.mem_singleton.1 hn
      exact .inr hfresh

/-- A surface that was placed moves among the groups it could draw to. -/
lemma reseal (h : Forest c footings placed branch) (hf : footings[i]? = some f) (hi : i ∈ placed)
    (hsub : ∀ k ∈ f'.container :: f'.saved, k ∈ f.container :: f.saved) :
    Forest c (footings.set i f') placed branch where
  bears {j g} hget hj := by
    obtain ⟨rfl, rfl⟩ | ⟨-, hg⟩ := getElem?_set_cases hget
    · exact absurd hi hj
    · exact h.bears hg hj
  apart {j k g g'} hget hget' hj hk hne n hn := by
    obtain ⟨rfl, rfl⟩ | ⟨-, hg⟩ := getElem?_set_cases hget
    · exact absurd hi hj
    · obtain ⟨rfl, rfl⟩ | ⟨-, hg'⟩ := getElem?_set_cases hget'
      · exact absurd hi hk
      · exact h.apart hg hg' hj hk hne hn
  known {j g} hget hj k hk := by
    obtain ⟨rfl, rfl⟩ | ⟨-, hg⟩ := getElem?_set_cases hget
    · exact h.known hf hi (hsub k hk)
    · exact h.known hg hj hk
  sealed {j l g g'} hget hget' hj hl k hk := by
    obtain ⟨rfl, rfl⟩ | ⟨-, hg'⟩ := getElem?_set_cases hget'
    · exact absurd hi hl
    · obtain ⟨rfl, rfl⟩ | ⟨-, hg⟩ := getElem?_set_cases hget
      · exact h.sealed hf hg' hi hl (hsub k hk)
      · exact h.sealed hg hg' hj hl hk

lemma field_update {β : Type} (field : Branch → β) (h : field b = field (branch i)) (j : Nat) :
    field (Function.update branch i b j) = field (branch j) := by
  by_cases hj : j = i
  · subst hj
    rw [Function.update_self, h]
  · rw [Function.update_of_ne hj]

/-- The group that is drawn to can be gone back to later. -/
theorem push (h : Forest c footings placed branch) (hf : footings[i]? = some f) :
    Regroups c (footings.set i f.push) placed branch := by
  by_cases hi : i ∈ placed
  · refine ⟨branch, h.reseal hf hi fun k hk => ?_, fun _ => rfl⟩
    simpa [Footing.push] using hk
  · have hbranch := h.bears hf hi
    obtain ⟨p, hp⟩ := List.getLast?_eq_some_iff.1 hbranch.container
    have hsaved : Nested (f.container :: f.saved) (branch i).spine :=
      ⟨p, hp ▸ List.prefix_refl _, hp ▸ hbranch.saved⟩
    have hforest : Forest c (footings.set i f.push) placed (Function.update branch i (branch i)) :=
      h.replace hf hi { hbranch with saved := hsaved } (fun _ hn => hn) (fun _ _ _ => rfl)
        (fun _ hn => .inl hn) fun _ hn => .inl hn
    rw [Function.update_eq_self] at hforest
    exact ⟨branch, hforest, fun _ => rfl⟩

/-- Going back to a group closes those that were opened after it, and takes nothing back. -/
theorem pop (h : Forest c footings placed branch) (hf : footings[i]? = some f) :
    Regroups c (footings.set i f.pop) placed branch := by
  unfold Footing.pop
  split
  · rw [set_eq_self hf]
    exact ⟨branch, h, fun _ => rfl⟩
  next m saved hsaved =>
  by_cases hi : i ∈ placed
  · refine ⟨branch, h.reseal hf hi fun k hk => ?_, fun _ => rfl⟩
    rw [hsaved]
    exact List.mem_cons_of_mem _ hk
  · have hbranch := h.bears hf hi
    have hnested := hbranch.saved
    rw [hsaved] at hnested
    obtain ⟨p, ⟨q, hq⟩, hrest⟩ := hnested
    have hspine := hbranch.spine
    rw [← hq] at hspine
    obtain ⟨closed, hretreat, hperm⟩ := hspine.retreat (by simp)
    have hnumbers : ((p ++ [m]) ++ closed).Perm (branch i).numbers := by
      rw [Branch.numbers, ← hq]
      refine List.perm_iff_count.2 fun a => ?_
      have hcount := hperm.count_eq a
      simp only [List.count_append] at hcount ⊢
      omega
    have hroot : (p ++ [m]).head? = some f.root := by
      have hhead := hbranch.root
      rw [← hq, List.head?_append] at hhead
      cases p <;> exact hhead
    have hforest : Forest c (footings.set i { f with container := m, saved := saved }) placed
        (Function.update branch i
          { spine := p ++ [m], drawn := (branch i).drawn, closed := closed }) :=
      h.replace hf hi
        ⟨hretreat, hnumbers.nodup_iff.2 hbranch.nodup, hroot, by rw [List.getLast?_concat], hrest⟩
        (fun _ hn => hn) (fun _ _ _ => rfl) (fun _ hn => .inl (hnumbers.mem_iff.1 hn))
        fun n hn => .inl (hq ▸ List.mem_append_left q hn)
    exact ⟨_, hforest, field_update Branch.drawn rfl⟩

/-- A new surface has a new group and nothing drawn in it. -/
theorem create (h : Forest c footings placed branch)
    (hplaced : ∀ i ∈ placed, i < footings.length) (hsame : ∀ n, (c n).isSome → c' n = c n)
    (hfresh : c m = none) (hm : c' m = some []) :
    Forest c' (footings ++ [{ root := m, container := m, saved := [] }]) placed
      (Function.update branch footings.length { spine := [m], drawn := [], closed := [] }) where
  bears {j g} hget hj := by
    obtain ⟨rfl, rfl⟩ | ⟨hne, hg⟩ := getElem?_concat_cases hget
    · rw [Function.update_self]
      exact ⟨.tip hm .nil, List.nodup_singleton m, rfl, rfl, trivial⟩
    · rw [Function.update_of_ne hne]
      have hbranch := h.bears hg hj
      exact hbranch.congr fun n hn => hsame n (hbranch.isSome n hn)
  apart {j k g g'} hget hget' hj hk hne n hn := by
    obtain ⟨rfl, rfl⟩ | ⟨hjl, hg⟩ := getElem?_concat_cases hget
    · obtain ⟨rfl, -⟩ | ⟨hkl, hg'⟩ := getElem?_concat_cases hget'
      · exact absurd rfl hne
      · rw [Function.update_self] at hn
        rw [Function.update_of_ne hkl]
        obtain rfl := List.mem_singleton.1 hn
        exact fun hmem => not_isSome_of_none hfresh ((h.bears hg' hk).isSome n hmem)
    · rw [Function.update_of_ne hjl] at hn
      obtain ⟨rfl, -⟩ | ⟨hkl, hg'⟩ := getElem?_concat_cases hget'
      · rw [Function.update_self]
        intro hmem
        obtain rfl := List.mem_singleton.1 hmem
        exact not_isSome_of_none hfresh ((h.bears hg hj).isSome n hn)
      · rw [Function.update_of_ne hkl]
        exact h.apart hg hg' hj hk hne hn
  known {j g} hget hj k hk := by
    obtain ⟨rfl, -⟩ | ⟨-, hg⟩ := getElem?_concat_cases hget
    · exact absurd (hplaced _ hj) (Nat.lt_irrefl _)
    · have hsome := h.known hg hj hk
      rw [hsame k hsome]
      exact hsome
  sealed {j l g g'} hget hget' hj hl k hk := by
    obtain ⟨rfl, -⟩ | ⟨-, hg⟩ := getElem?_concat_cases hget
    · exact absurd (hplaced _ hj) (Nat.lt_irrefl _)
    · obtain ⟨rfl, -⟩ | ⟨hll, hg'⟩ := getElem?_concat_cases hget'
      · rw [Function.update_self]
        intro hmem
        obtain rfl := List.mem_singleton.1 hmem
        exact not_isSome_of_none hfresh (h.known hg hj hk)
      · rw [Function.update_of_ne hll]
        exact h.sealed hg hg' hj hl hk

/-- What is added to one branch is in no other. -/
lemma unchanged (h : Forest c footings placed branch) (hf : footings[i]? = some f) (hi : i ∉ placed)
    (hgrows : Grows c c' f.container item) (hg : footings[j]? = some g) (hj : j ∉ placed)
    (hne : i ≠ j) : ∀ k ∈ (branch j).numbers, c' k = c k := by
  have hcontainer : f.container ∈ (branch i).numbers :=
    List.mem_append_left _ (h.bears hf hi).container_mem
  intro k hk
  refine hgrows.same ((h.bears hg hj).isSome k hk) ?_
  rintro rfl
  exact h.apart hf hg hi hj hne hcontainer hk

/-- A surface that is placed comes last on the branch that it is placed on. -/
theorem place (h : Forest c footings placed branch) (hf : footings[i]? = some f) (hi : i ∉ placed)
    (hg : footings[n]? = some g) (hn : n ∉ placed) (hne : i ≠ n)
    (hgrows : Grows c c' f.container (.group g.root)) :
    ∃ ms, Forest c' footings (n :: placed)
      (Function.update branch i ((branch i).extend (branch n).drawn ms)) := by
  have hother := h.bears hg hn
  obtain ⟨ms, hlists, hperm⟩ := hother.spine.lists hother.root
  have hitem : Lists c' [.group g.root] (branch n).drawn ms := hlists.congr fun k hk =>
    h.unchanged hf hi hgrows hg hn hne k (hperm.mem_iff.1 hk)
  have hdisjoint : ∀ k ∈ (branch i).numbers, k ∉ ms := fun k hk hms =>
    h.apart hf hg hi hn hne hk (hperm.mem_iff.1 hms)
  have hnumbers {k : Nat} : k ∈ (branch i).spine ++ ((branch i).closed ++ ms) ↔
      k ∈ (branch i).numbers ∨ k ∈ (branch n).numbers := by
    have hms : k ∈ ms ↔ k ∈ (branch n).numbers := hperm.mem_iff
    rw [← List.append_assoc, List.mem_append, hms]
    rfl
  -- the groups of the surface that is placed are closed on its new branch
  refine ⟨ms, ?_, ?_, ?_, ?_⟩
  · intro j e he hj
    obtain ⟨hjn, hj⟩ := List.ne_and_not_mem_of_not_mem_cons hj
    by_cases hji : j = i
    · subst hji
      obtain rfl := Option.some.inj (hf.symm.trans he)
      rw [Function.update_self]
      exact (h.bears hf hi).extend hgrows hitem (hperm.nodup_iff.2 hother.nodup) hdisjoint
    · rw [Function.update_of_ne hji]
      exact (h.bears he hj).congr (h.unchanged hf hi hgrows he hj (Ne.symm hji))
  · intro j k e e' he he' hj hk hjk a ha
    obtain ⟨hjn, hj⟩ := List.ne_and_not_mem_of_not_mem_cons hj
    obtain ⟨hkn, hk⟩ := List.ne_and_not_mem_of_not_mem_cons hk
    by_cases hji : j = i
    · subst hji
      rw [Function.update_self] at ha
      rw [Function.update_of_ne (Ne.symm hjk)]
      obtain ha | ha := hnumbers.1 ha
      · exact h.apart he he' hj hk hjk ha
      · exact h.apart hg he' hn hk (Ne.symm hkn) ha
    · rw [Function.update_of_ne hji] at ha
      by_cases hki : k = i
      · subst hki
        rw [Function.update_self]
        intro hmem
        obtain hmem | hmem := hnumbers.1 hmem
        · exact h.apart he he' hj hk hjk ha hmem
        · exact h.apart he hg hj hn hjn ha hmem
      · rw [Function.update_of_ne hki]
        exact h.apart he he' hj hk hjk ha
  · intro j e he hj k hk
    refine isSome_of_grows hgrows ?_
    obtain rfl | hj := List.mem_cons.1 hj
    · obtain rfl := Option.some.inj (hg.symm.trans he)
      exact hother.isSome k (List.mem_append_left _ (hother.footing_mem k hk))
    · exact h.known he hj hk
  · intro j l e e' he he' hj hl k hk
    obtain ⟨hln, hunplaced⟩ := List.ne_and_not_mem_of_not_mem_cons hl
    rw [field_update (b := (branch i).extend (branch n).drawn ms) Branch.spine rfl]
    obtain rfl | hj := List.mem_cons.1 hj
    · obtain rfl := Option.some.inj (hg.symm.trans he)
      have hmem : k ∈ (branch j).numbers := List.mem_append_left _ (hother.footing_mem k hk)
      exact fun hk =>
        h.apart he he' hn hunplaced (Ne.symm hln) hmem (List.mem_append_left _ hk)
    · exact h.sealed he he' hj hunplaced hk

/-- A new empty group in a branch, off its spine, leaves what is drawn. -/
lemma insert (h : Forest c footings placed branch) (hf : footings[i]? = some f) (hi : i ∈ placed)
    (hgrows : Grows c c' f.container (.group m)) (hfresh : c m = none) (hm : c' m = some [])
    (hg : footings[j]? = some g) (hj : j ∉ placed) :
    ∃ closed, ({ branch j with closed := closed } : Branch).Bears c' g ∧
      ∀ n ∈ (branch j).spine ++ closed,
        n ∈ (branch j).numbers ∨ (n = m ∧ f.container ∈ (branch j).numbers) := by
  -- a surface that was placed draws to no spine, so the new group is in a closed one if anywhere
  have hbranch := h.bears hg hj
  have hoff : f.container ∉ (branch j).spine := h.sealed hf hg hi hj (List.mem_cons_self ..)
  by_cases hclosed : f.container ∈ (branch j).closed
  · obtain ⟨closed, hspine, hperm⟩ := hbranch.spine.insert hgrows hm hclosed hbranch.nodup
    have hnumbers : ((branch j).spine ++ closed).Perm (m :: (branch j).numbers) := by
      refine List.perm_iff_count.2 fun a => ?_
      have hcount := hperm.count_eq a
      simp only [Branch.numbers, List.count_cons, List.count_append] at hcount ⊢
      omega
    have hnotin : m ∉ (branch j).numbers := fun hmem =>
      not_isSome_of_none hfresh (hbranch.isSome m hmem)
    have hnodup := hnumbers.nodup_iff.2 (List.nodup_cons.2 ⟨hnotin, hbranch.nodup⟩)
    refine ⟨closed, { hbranch with spine := hspine, nodup := hnodup }, fun n hn => ?_⟩
    obtain rfl | hold := List.mem_cons.1 (hnumbers.mem_iff.1 hn)
    · exact .inr ⟨rfl, List.mem_append_right _ hclosed⟩
    · exact .inl hold
  · refine ⟨(branch j).closed, hbranch.congr fun n hn => ?_, fun n hn => .inl hn⟩
    refine hgrows.same (hbranch.isSome n hn) ?_
    rintro rfl
    exact (List.mem_append.1 hn).elim hoff hclosed

/-- A group that is opened on a surface that was placed is empty and stays so. -/
theorem clip_placed (h : Forest c footings placed branch) (hf : footings[i]? = some f)
    (hi : i ∈ placed) (hgrows : Grows c c' f.container (.group m)) (hfresh : c m = none)
    (hm : c' m = some []) :
    Regroups c' (footings.set i { f with container := m }) placed branch := by
  have hopened (j : Nat) : ∃ closed, ∀ g, footings[j]? = some g → j ∉ placed →
      ({ branch j with closed := closed } : Branch).Bears c' g ∧
      ∀ n ∈ (branch j).spine ++ closed,
        n ∈ (branch j).numbers ∨ (n = m ∧ f.container ∈ (branch j).numbers) := by
    by_cases hj : ∃ g, footings[j]? = some g ∧ j ∉ placed
    · obtain ⟨g, hg, hj⟩ := hj
      obtain ⟨closed, hclosed⟩ := h.insert hf hi hgrows hfresh hm hg hj
      refine ⟨closed, fun g' hg' _ => ?_⟩
      obtain rfl := Option.some.inj (hg.symm.trans hg')
      exact hclosed
    · exact ⟨[], fun g hg hunplaced => absurd ⟨g, hg, hunplaced⟩ hj⟩
  choose closed hclosed using hopened
  have hnotin {j : Nat} {g : Footing} (hg : footings[j]? = some g) (hj : j ∉ placed) :
      m ∉ (branch j).numbers := fun hmem =>
    not_isSome_of_none hfresh ((h.bears hg hj).isSome m hmem)
  refine ⟨fun j => { branch j with closed := closed j }, ⟨?_, ?_, ?_, ?_⟩, fun _ => rfl⟩
  · intro j g hget hj
    obtain ⟨rfl, -⟩ | ⟨-, hg⟩ := getElem?_set_cases hget
    · exact absurd hi hj
    · exact (hclosed j g hg hj).1
  · intro j k g g' hget hget' hj hk hne n hn hn'
    obtain ⟨rfl, -⟩ | ⟨-, hg⟩ := getElem?_set_cases hget
    · exact absurd hi hj
    · obtain ⟨rfl, -⟩ | ⟨-, hg'⟩ := getElem?_set_cases hget'
      · exact absurd hi hk
      · obtain hold | ⟨rfl, hcontainer⟩ := (hclosed j g hg hj).2 n hn
        · obtain hold' | ⟨rfl, -⟩ := (hclosed k g' hg' hk).2 n hn'
          · exact h.apart hg hg' hj hk hne hold hold'
          · exact hnotin hg hj hold
        · obtain hold' | ⟨-, hcontainer'⟩ := (hclosed k g' hg' hk).2 n hn'
          · exact hnotin hg' hk hold'
          · exact h.apart hg hg' hj hk hne hcontainer hcontainer'
  · intro j g hget hj k hk
    obtain ⟨rfl, rfl⟩ | ⟨-, hg⟩ := getElem?_set_cases hget
    · obtain rfl | hk := List.mem_cons.1 hk
      · rw [hm, Option.isSome_some]
      · exact isSome_of_grows hgrows (h.known hf hi (List.mem_cons_of_mem _ hk))
    · exact isSome_of_grows hgrows (h.known hg hj hk)
  · intro j l g g' hget hget' hj hl k hk
    obtain ⟨rfl, -⟩ | ⟨-, hg'⟩ := getElem?_set_cases hget'
    · exact absurd hi hl
    · obtain ⟨rfl, rfl⟩ | ⟨-, hg⟩ := getElem?_set_cases hget
      · obtain rfl | hk := List.mem_cons.1 hk
        · exact fun hmem => hnotin hg' hl (List.mem_append_left _ hmem)
        · exact h.sealed hf hg' hi hl (List.mem_cons_of_mem _ hk)
      · exact h.sealed hg hg' hj hl hk

/-- Opening a group draws nothing. -/
theorem open_group (h : Forest c footings placed branch) (hf : footings[i]? = some f)
    (hgrows : Grows c c' f.container (.group m)) (hfresh : c m = none) (hm : c' m = some []) :
    Regroups c' (footings.set i { f with container := m }) placed branch := by
  by_cases hi : i ∈ placed
  · exact h.clip_placed hf hi hgrows hfresh hm
  · exact ⟨_, h.clip hf hi hgrows hfresh hm, field_update Branch.drawn rfl⟩

end Forest

end UmlDrawing.Svg
