import Mathlib.Data.List.Nodup
import Mathlib.Tactic.Lemma
import UmlDrawing.Svg.Document

/-! Groups of items read in preorder. The groups that a surface is drawn to form a spine: each lies
at the end of the one before, so what is added to the last of them comes last in preorder. -/
namespace UmlDrawing.Svg

/-- Whether an item is a group of others. -/
def Item.IsGroup : Item → Prop
  | .group _ => True
  | _ => False

/-- The items of groups, by their numbers. -/
abbrev Contents := Nat → Option (List Item)

/-- Some items and, in preorder, what is drawn of them and the groups inside. -/
inductive Lists (c : Contents) : List Item → List Item → List Nat → Prop
  | nil : Lists c [] [] []
  | drawn {item : Item} {rest ds : List Item} {ns : List Nat} (hitem : ¬ item.IsGroup)
    (hrest : Lists c rest ds ns) : Lists c (item :: rest) (item :: ds) ns
  | group {n : Nat} {inner rest ds es : List Item} {ns ms : List Nat} (hn : c n = some inner)
    (hinner : Lists c inner ds ns) (hrest : Lists c rest es ms) :
    Lists c (.group n :: rest) (ds ++ es) (n :: (ns ++ ms))

/-- A chain of groups, each the last item of the one before, with what is drawn in the first of them
and the groups inside that are not on the chain. -/
inductive Spine (c : Contents) : List Nat → List Item → List Nat → Prop
  | tip {k : Nat} {items ds : List Item} {ns : List Nat} (hk : c k = some items)
    (hitems : Lists c items ds ns) : Spine c [k] ds ns
  | step {k next : Nat} {p ns ms : List Nat} {init ds es : List Item}
    (hk : c k = some (init ++ [.group next])) (hinit : Lists c init ds ns)
    (hnext : Spine c (next :: p) es ms) : Spine c (k :: next :: p) (ds ++ es) (ns ++ ms)

variable {c c' : Contents} {items items' ds es : List Item} {p q ns ms : List Nat} {k m : Nat}

namespace Lists

lemma congr (h : Lists c items ds ns) (hsame : ∀ n ∈ ns, c' n = c n) : Lists c' items ds ns := by
  induction h with
  | nil => exact .nil
  | drawn hitem _ ih => exact .drawn hitem (ih hsame)
  | @group n inner rest ds es ns ms hn _ _ ihinner ihrest =>
    refine .group ((hsame n (by simp)).trans hn) (ihinner ?_) (ihrest ?_)
    · exact fun n hmem => hsame n (by simp [hmem])
    · exact fun n hmem => hsame n (by simp [hmem])

lemma append (h : Lists c items ds ns) (h' : Lists c items' es ms) :
    Lists c (items ++ items') (ds ++ es) (ns ++ ms) := by
  induction h with
  | nil => exact h'
  | drawn hitem _ ih => exact .drawn hitem ih
  | group hn hinner _ _ ihrest =>
    rw [List.append_assoc, List.cons_append, List.cons_append, List.append_assoc]
    exact .group hn hinner ihrest

lemma single (hk : c k = some items) (h : Lists c items ds ns) :
    Lists c [.group k] ds (k :: ns) := by
  have hgroup := Lists.group hk h .nil
  rwa [List.append_nil, List.append_nil] at hgroup

lemma isSome (h : Lists c items ds ns) : ∀ n ∈ ns, (c n).isSome := by
  induction h with
  | nil => simp
  | drawn _ _ ih => exact ih
  | group hn _ _ ihinner ihrest =>
    intro n hmem
    obtain rfl | hmem := List.mem_cons.1 hmem
    · rw [hn, Option.isSome_some]
    · obtain hmem | hmem := List.mem_append.1 hmem
      · exact ihinner n hmem
      · exact ihrest n hmem

end Lists

/-- The contents after an item was added to the end of a group. -/
structure Grows (c c' : Contents) (k : Nat) (item : Item) : Prop where
  at_end {inner : List Item} (h : c k = some inner) : c' k = some (inner ++ [item])
  same {n : Nat} (h : (c n).isSome) (hne : n ≠ k) : c' n = c n

lemma Lists.keep (h : Lists c items ds ns) {item : Item} (hgrows : Grows c c' k item)
    (hk : k ∉ ns) : Lists c' items ds ns :=
  h.congr fun n hn => hgrows.same (h.isSome n hn) fun heq => hk (heq ▸ hn)

/-- A new empty group somewhere inside does not show. -/
lemma Lists.insert (h : Lists c items ds ns) (hgrows : Grows c c' k (.group m))
    (hm : c' m = some []) (hk : k ∈ ns) (hnodup : ns.Nodup) :
    ∃ ns', Lists c' items ds ns' ∧ ns'.Perm (m :: ns) := by
  induction h with
  | nil => cases hk
  | drawn hitem _ ih =>
    obtain ⟨ns', hlists, hperm⟩ := ih hk hnodup
    exact ⟨ns', .drawn hitem hlists, hperm⟩
  | @group n inner rest ds es ns ms hn hinner hrest ihinner ihrest =>
    rw [List.nodup_cons, List.nodup_append, List.mem_append, not_or] at hnodup
    obtain ⟨⟨hnns, hnms⟩, hns, hms, hdisjoint⟩ := hnodup
    -- the new group lies in this one, deeper inside, or in what comes after it
    obtain rfl | hk := List.mem_cons.1 hk
    · have hopened := (hinner.keep hgrows hnns).append (Lists.single hm .nil)
      rw [List.append_nil] at hopened
      refine ⟨_, .group (hgrows.at_end hn) hopened (hrest.keep hgrows hnms), ?_⟩
      refine List.perm_iff_count.2 fun a => ?_
      simp only [List.count_cons, List.count_append, List.count_nil]
      omega
    · obtain hk | hk := List.mem_append.1 hk
      · obtain ⟨ns', hlists, hperm⟩ := ihinner hk hns
        have hkms : k ∉ ms := fun h => hdisjoint k hk k h rfl
        have hkn : n ≠ k := fun heq => hnns (heq ▸ hk)
        have hsome : (c n).isSome := by rw [hn, Option.isSome_some]
        refine ⟨_, .group ((hgrows.same hsome hkn).trans hn) hlists (hrest.keep hgrows hkms), ?_⟩
        refine List.perm_iff_count.2 fun a => ?_
        have hcount := hperm.count_eq a
        simp only [List.count_cons, List.count_append] at hcount ⊢
        omega
      · obtain ⟨ms', hlists, hperm⟩ := ihrest hk hms
        have hkns : k ∉ ns := fun h => hdisjoint k h k hk rfl
        have hkn : n ≠ k := fun heq => hnms (heq ▸ hk)
        have hsome : (c n).isSome := by rw [hn, Option.isSome_some]
        refine ⟨_, .group ((hgrows.same hsome hkn).trans hn) (hinner.keep hgrows hkns) hlists, ?_⟩
        refine List.perm_iff_count.2 fun a => ?_
        have hcount := hperm.count_eq a
        simp only [List.count_cons, List.count_append] at hcount ⊢
        omega

namespace Spine

lemma isSome (h : Spine c p ds ns) : ∀ n ∈ p ++ ns, (c n).isSome := by
  induction h with
  | tip hk hitems =>
    intro n hmem
    obtain rfl | hmem := List.mem_cons.1 hmem
    · rw [hk, Option.isSome_some]
    · exact hitems.isSome n hmem
  | @step k next p ns ms init ds es hk hinit _ ih =>
    intro n hmem
    obtain rfl | hmem := List.mem_cons.1 hmem
    · rw [hk, Option.isSome_some]
    · obtain hmem | hmem := List.mem_append.1 hmem
      · exact ih n (List.mem_append_left _ hmem)
      · obtain hmem | hmem := List.mem_append.1 hmem
        · exact hinit.isSome n hmem
        · exact ih n (List.mem_append_right _ hmem)

lemma congr (h : Spine c p ds ns) (hsame : ∀ n ∈ p ++ ns, c' n = c n) : Spine c' p ds ns := by
  induction h with
  | tip hk hitems =>
    exact .tip ((hsame _ (by simp)).trans hk) (hitems.congr fun n hn => hsame n (by simp [hn]))
  | step hk hinit _ ih =>
    refine .step ((hsame _ (by simp)).trans hk) (hinit.congr fun n hn => hsame n (by simp [hn]))
      (ih fun n hn => hsame n ?_)
    simp only [List.mem_append, List.mem_cons] at hn ⊢
    tauto

lemma nodup_of_step {n next : Nat} (h : ((n :: next :: p) ++ (ns ++ ms)).Nodup) :
    ((next :: p) ++ ms).Nodup :=
  h.sublist (((List.sublist_append_right ns ms).append_left (next :: p)).cons n)

/-- A change at the end of a spine leaves all before it as it is. -/
lemma replace_tip (h : Spine c p ds ns) {item : Item} (hgrows : Grows c c' k item)
    (hlast : p.getLast? = some k) (hnodup : (p ++ ns).Nodup)
    (htip : ∀ {items ds : List Item} {ns : List Nat}, c k = some items → Lists c' items ds ns →
      Spine c' (k :: q) (ds ++ es) (ns ++ ms)) :
    Spine c' (p ++ q) (ds ++ es) (ns ++ ms) := by
  induction h with
  | tip hk hitems =>
    -- the end of the spine is the group that grows; all before it stays
    obtain rfl := Option.some.inj hlast
    exact htip hk (hitems.keep hgrows (List.nodup_cons.1 hnodup).1)
  | @step n next p ns ms' init ds es' hn hinit hnext ih =>
    rw [List.getLast?_cons_cons] at hlast
    have hmem : k ∈ next :: p := List.mem_of_getLast? hlast
    have hne : n ≠ k := by
      rintro rfl
      exact (List.nodup_cons.1 hnodup).1 (List.mem_append_left _ hmem)
    have hnotin : k ∉ ns := by
      intro hk
      have hdisjoint := (List.nodup_append.1 hnodup).2.2
      exact hdisjoint k (List.mem_cons_of_mem _ hmem) k (List.mem_append_left _ hk) rfl
    have hsome : (c n).isSome := by rw [hn, Option.isSome_some]
    rw [List.append_assoc, List.append_assoc]
    exact .step ((hgrows.same hsome hne).trans hn) (hinit.keep hgrows hnotin)
      (ih hlast (nodup_of_step hnodup))

/-- What is added to the last group of a spine comes last in preorder. -/
theorem push (h : Spine c p ds ns) {item : Item} (hgrows : Grows c c' k item)
    (hlast : p.getLast? = some k) (hnodup : (p ++ ns).Nodup) (hitem : Lists c' [item] es ms) :
    Spine c' p (ds ++ es) (ns ++ ms) := by
  have hpushed := h.replace_tip (q := []) hgrows hlast hnodup fun hk hitems =>
    .tip (hgrows.at_end hk) (hitems.append hitem)
  rwa [List.append_nil] at hpushed

/-- A group that is opened at the end of a spine makes it longer. -/
theorem descend (h : Spine c p ds ns) (hgrows : Grows c c' k (.group m))
    (hlast : p.getLast? = some k) (hnodup : (p ++ ns).Nodup) (hm : c' m = some []) :
    Spine c' (p ++ [m]) ds ns := by
  have hopened := h.replace_tip (q := [m]) hgrows hlast hnodup fun hk hitems =>
    .step (hgrows.at_end hk) hitems (.tip hm .nil)
  rwa [List.append_nil, List.append_nil] at hopened

/-- Read as a whole, a spine is a group like others. -/
theorem lists (h : Spine c p ds ns) (hfirst : p.head? = some k) :
    ∃ ms, Lists c [.group k] ds ms ∧ ms.Perm (p ++ ns) := by
  induction h generalizing k with
  | @tip n items ds ns hn hitems =>
    obtain rfl := Option.some.inj hfirst
    exact ⟨n :: ns, .single hn hitems, List.Perm.refl _⟩
  | @step n next p ns ms init ds es hn hinit hnext ih =>
    obtain rfl := Option.some.inj hfirst
    obtain ⟨ms', hlists, hperm⟩ := ih (k := next) rfl
    refine ⟨_, .single hn (hinit.append hlists), ?_⟩
    refine List.perm_iff_count.2 fun a => ?_
    have hcount := hperm.count_eq a
    simp only [List.count_cons, List.count_append] at hcount ⊢
    omega

/-- Going back to a group of the spine closes the groups after it. -/
theorem retreat (h : Spine c (p ++ q) ds ns) (hp : p ≠ []) :
    ∃ ns', Spine c p ds ns' ∧ ns'.Perm (q ++ ns) := by
  generalize hwhole : p ++ q = whole at h
  induction h generalizing p with
  | @tip n items ds ns hn hitems =>
    obtain ⟨rfl, rfl⟩ : p = [n] ∧ q = [] := by
      cases p with
      | nil => exact absurd rfl hp
      | cons k p =>
        simp only [List.cons_append, List.cons.injEq, List.append_eq_nil_iff] at hwhole
        obtain ⟨rfl, rfl, rfl⟩ := hwhole
        exact ⟨rfl, rfl⟩
    exact ⟨ns, .tip hn hitems, List.Perm.refl _⟩
  | @step n next rest ns ms init ds es hn hinit hnext ih =>
    cases p with
    | nil => exact absurd rfl hp
    | cons k p =>
      rw [List.cons_append, List.cons.injEq] at hwhole
      obtain ⟨rfl, hwhole⟩ := hwhole
      cases p with
      | nil =>
        -- the first group is the one to go back to, so all others are closed
        obtain rfl : q = next :: rest := hwhole
        obtain ⟨ms', hlists, hperm⟩ := hnext.lists rfl
        refine ⟨ns ++ ms', .tip hn (hinit.append hlists), ?_⟩
        refine List.perm_iff_count.2 fun a => ?_
        have hcount := hperm.count_eq a
        simp only [List.count_append] at hcount ⊢
        omega
      | cons k' p =>
        obtain ⟨ms', hspine, hperm⟩ := ih (p := k' :: p) (by simp) hwhole
        rw [List.cons_append, List.cons.injEq] at hwhole
        obtain ⟨rfl, -⟩ := hwhole
        refine ⟨ns ++ ms', .step hn hinit hspine, ?_⟩
        refine List.perm_iff_count.2 fun a => ?_
        have hcount := hperm.count_eq a
        simp only [List.count_append] at hcount ⊢
        omega

/-- A new empty group inside one that is not on the spine does not show. -/
theorem insert (h : Spine c p ds ns) (hgrows : Grows c c' k (.group m)) (hm : c' m = some [])
    (hk : k ∈ ns) (hnodup : (p ++ ns).Nodup) : ∃ ns', Spine c' p ds ns' ∧ ns'.Perm (m :: ns) := by
  induction h with
  | @tip n items ds ns hn hitems =>
    have hsome : (c n).isSome := by rw [hn, Option.isSome_some]
    obtain ⟨hnotin, hnodup⟩ := List.nodup_cons.1 hnodup
    obtain ⟨ns', hlists, hperm⟩ := hitems.insert hgrows hm hk hnodup
    have hne : n ≠ k := fun heq => hnotin (heq ▸ hk)
    exact ⟨ns', .tip ((hgrows.same hsome hne).trans hn) hlists, hperm⟩
  | @step n next p ns ms init ds es hn hinit hnext ih =>
    have hsome : (c n).isSome := by rw [hn, Option.isSome_some]
    have hne : n ≠ k := by
      rintro rfl
      exact (List.nodup_cons.1 hnodup).1 (List.mem_append_right (next :: p) hk)
    have hgroup := (hgrows.same hsome hne).trans hn
    have hclosed : (ns ++ ms).Nodup :=
      (List.nodup_append.1 hnodup).2.1
    obtain ⟨hns, -, hdisjoint⟩ := List.nodup_append.1 hclosed
    obtain hk | hk := List.mem_append.1 hk
    · have hkrest : k ∉ (next :: p) ++ ms := by
        intro h
        obtain h | h := List.mem_append.1 h
        · have hapart := (List.nodup_append.1 hnodup).2.2
          exact hapart k (List.mem_cons_of_mem _ h) k (List.mem_append_left _ hk) rfl
        · exact hdisjoint k hk k h rfl
      have hsame : ∀ n ∈ (next :: p) ++ ms, c' n = c n := fun n hmem =>
        hgrows.same (hnext.isSome n hmem) fun heq => hkrest (heq ▸ hmem)
      obtain ⟨ns', hlists, hperm⟩ := hinit.insert hgrows hm hk hns
      exact ⟨_, .step hgroup hlists (hnext.congr hsame), hperm.append_right ms⟩
    · have hkns : k ∉ ns := fun h => hdisjoint k h k hk rfl
      obtain ⟨ms', hspine, hperm⟩ := ih hk (nodup_of_step hnodup)
      refine ⟨_, .step hgroup (hinit.keep hgrows hkns) hspine, ?_⟩
      refine List.perm_iff_count.2 fun a => ?_
      have hcount := hperm.count_eq a
      simp only [List.count_cons, List.count_append] at hcount ⊢
      omega

end Spine

end UmlDrawing.Svg
