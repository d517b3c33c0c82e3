import UmlDrawing.Proofs.Svg.ClipNames

/-! The groups that clips open. The clips in force on a surface are those of the groups from the one
it draws to up to its own; a clip puts its path in front of those of the group it was made in and
changes those of no other group. -/
namespace UmlDrawing.Svg.Document

/-- The paths of the clips of all groups from one up to another, which is left out, the innermost
first. -/
inductive Clips (d : Document) (root : Nat) : Nat → List (List (Subpath Scalar)) → Prop
  | root : Clips d root root []
  | inside {k parent : Nat} {g above : Group} {name : ClipName} {path : List (Subpath Scalar)}
    {paths : List (List (Subpath Scalar))} (hk : k ≠ root) (hg : d.groups[k]? = some g)
    (hclip : g.clip = some name) (hname : ⟨name, some (.path path)⟩ ∈ d.clips)
    (habove : d.groups[parent]? = some above) (hitem : Item.group k ∈ above.items)
    (hparent : Clips d root parent paths) : Clips d root k (path :: paths)

variable {d : Document} {g : Group} {root k n : Nat} {path : List (Subpath Scalar)}
  {paths : List (List (Subpath Scalar))}

lemma clips_root_iff : d.Clips root root paths ↔ paths = [] := by
  constructor
  · intro h
    cases h with
    | root => rfl
    | inside hk => exact absurd rfl hk
  · rintro rfl
    exact .root

/-- A group in front of the new one, which holds the new one if the clip was made in it. -/
lemma getElem?_opened (k : Nat) (path : List (Subpath Scalar)) (hn : n < d.groups.length) :
    (d.opened k path).groups[n]? = (d.groups[n]?).map fun g =>
      if k = n then { g with items := g.items ++ [.group d.groups.length] } else g := by
  simp only [opened, append, modifyGroup, addGroup, addClip, takeNumber, List.getElem?_modify,
    List.getElem?_append_left hn]
  rfl

lemma getElem?_opened_new (hk : k < d.groups.length) :
    (d.opened k path).groups[d.groups.length]? = some { clip := some (.region d.next) } := by
  simp only [opened, append, modifyGroup, addGroup, addClip, takeNumber, List.getElem?_modify,
    List.getElem?_concat_length]
  simp [Nat.ne_of_lt hk]

lemma opened_cases (hk : k < d.groups.length) (h : (d.opened k path).groups[n]? = some g) :
    (n = d.groups.length ∧ g = { clip := some (.region d.next) }) ∨
      ∃ old, d.groups[n]? = some old ∧
        g = if k = n then { old with items := old.items ++ [.group d.groups.length] } else old := by
  obtain ⟨hlt, -⟩ := List.getElem?_eq_some_iff.1 h
  rw [length_opened d k path] at hlt
  obtain hn | rfl := Nat.lt_succ_iff_lt_or_eq.1 hlt
  · rw [getElem?_opened k path hn] at h
    obtain ⟨old, hold, rfl⟩ := Option.map_eq_some_iff.1 h
    exact .inr ⟨old, hold, rfl⟩
  · rw [getElem?_opened_new hk] at h
    exact .inl ⟨rfl, (Option.some.inj h).symm⟩

lemma Sound.name_ne (h : d.Sound) {c : ClipPath} (hc : c ∈ d.clips) : c.name ≠ .region d.next := by
  intro hname
  have hbelow := h.below c hc
  rw [hname] at hbelow
  exact Nat.lt_irrefl _ hbelow

/-- A clip changes the clips of no group that was there. -/
theorem clips_opened_iff (h : d.Sound) (hk : k < d.groups.length) (hn : n < d.groups.length) :
    (d.opened k path).Clips root n paths ↔ d.Clips root n paths := by
  constructor
  · intro hclips
    induction hclips with
    | root => exact .root
    | @inside n parent g above name inner paths hne hg hclip hname habove hitem _ ih =>
      obtain ⟨rfl, -⟩ | ⟨old, hold, rfl⟩ := opened_cases hk hg
      · exact absurd hn (Nat.lt_irrefl _)
      obtain ⟨rfl, rfl⟩ | ⟨around, haround, rfl⟩ := opened_cases hk habove
      · cases hitem
      have holdclip : old.clip = some name := by
        split at hclip <;> exact hclip
      -- the new clip path has a name that no group was clipped to
      have hin : ⟨name, some (.path inner)⟩ ∈ d.clips := by
        obtain hin | hin := List.mem_append.1 hname
        · exact hin
        · obtain ⟨c, hc, hcname⟩ := h.defined old (List.mem_of_getElem? hold) name holdclip
          cases List.mem_singleton.1 hin
          exact absurd hcname (h.name_ne hc)
      -- all that was added to a group is the new group
      have hheld : Item.group n ∈ around.items := by
        split at hitem
        · obtain hitem | hitem := List.mem_append.1 hitem
          · exact hitem
          · cases List.mem_singleton.1 hitem
            exact absurd hn (Nat.lt_irrefl _)
        · exact hitem
      exact .inside hne hold holdclip hin haround hheld
        (ih (List.getElem?_eq_some_iff.1 haround).1)
  · intro hclips
    induction hclips with
    | root => exact .root
    | @inside n parent g above name inner paths hne hg hclip hname habove hitem _ ih =>
      have hparent := (List.getElem?_eq_some_iff.1 habove).1
      have hg' := getElem?_opened k path hn
      have habove' := getElem?_opened k path hparent
      rw [hg, Option.map_some] at hg'
      rw [habove, Option.map_some] at habove'
      refine .inside hne hg' ?_ (List.mem_append_left _ hname) habove' ?_ (ih hparent)
      · split <;> exact hclip
      · split
        · exact List.mem_append_left _ hitem
        · exact hitem

/-- The clips of the new group are the new one and those of the group that it was made in. -/
theorem clips_opened_new_iff (h : d.Sound) (hk : k < d.groups.length)
    (hroot : root < d.groups.length) :
    (d.opened k path).Clips root d.groups.length paths ↔
      ∃ rest, paths = path :: rest ∧ d.Clips root k rest := by
  constructor
  · intro hclips
    generalize hn : d.groups.length = n at hclips
    cases hclips with
    | root => exact absurd hroot (hn ▸ Nat.lt_irrefl _)
    | @inside _ parent g above name inner rest hne hg hclip hname habove hitem hrest =>
      subst hn
      rw [getElem?_opened_new hk] at hg
      cases hg
      cases hclip
      obtain ⟨rfl, rfl⟩ | ⟨around, haround, rfl⟩ := opened_cases hk habove
      · cases hitem
      -- no other group could hold a group that was not there
      have hparent : k = parent := by
        by_contra hkp
        rw [if_neg hkp] at hitem
        have hlt := h.inside around (List.mem_of_getElem? haround) _ hitem
        exact Nat.lt_irrefl _ hlt
      subst hparent
      have hpath : inner = path := by
        obtain hin | hin := List.mem_append.1 hname
        · exact absurd rfl (h.name_ne hin)
        · cases List.mem_singleton.1 hin
          rfl
      subst hpath
      exact ⟨rest, rfl, (clips_opened_iff h hk hk).1 hrest⟩
  · rintro ⟨rest, rfl, hrest⟩
    have hparent := getElem?_opened k path hk
    rw [List.getElem?_eq_getElem hk, Option.map_some, if_pos rfl] at hparent
    refine .inside (Nat.ne_of_gt hroot) (getElem?_opened_new hk) rfl
      (List.mem_append_right _ (List.mem_singleton_self _)) hparent
      (List.mem_append_right _ (List.mem_singleton_self _)) ?_
    exact (clips_opened_iff h hk hk).2 hrest

/-- A clip path without a shape changes no clips. -/
theorem clips_shapeless_iff (name : ClipName) :
    (d.takeNumber.addClip ⟨name, none⟩).Clips root n paths ↔ d.Clips root n paths := by
  constructor
  · intro hclips
    induction hclips with
    | root => exact .root
    | inside hk hg hclip hname habove hitem _ ih =>
      obtain hname | hname := List.mem_append.1 hname
      · exact .inside hk hg hclip hname habove hitem ih
      · cases List.mem_singleton.1 hname
  · intro hclips
    induction hclips with
    | root => exact .root
    | inside hk hg hclip hname habove hitem _ ih =>
      exact .inside hk hg hclip (List.mem_append_left _ hname) habove hitem ih

end UmlDrawing.Svg.Document
