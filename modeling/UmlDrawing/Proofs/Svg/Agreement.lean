import UmlDrawing.Proofs.Surface.Program
import UmlDrawing.Proofs.Svg.Forest
import UmlDrawing.Proofs.Svg.Sheet
import UmlDrawing.Surface.Recording

/-! Vector graphics and recordings agree. A program draws the same to both: what stands on the
branch of a surface is what was recorded for it, surfaces that were placed included. -/
open UmlDrawing.Action

namespace UmlDrawing

mutual

/-- What a recorded call draws: nothing if it has no path or text, nothing for a clip, and all that
was recorded on a surface that is placed. -/
def Call.drawn : Call → List Call
  | .fill path color alpha => if path.isEmpty then [] else [.fill path color alpha]
  | .stroke path color dash => if path.isEmpty then [] else [.stroke path color dash]
  | .clip _ => []
  | .text t position font color => if t.isEmpty then [] else [.text t position font color]
  | .surface _ _ calls => Call.drawnAll calls

/-- What some calls draw, in order. -/
def Call.drawnAll : List Call → List Call
  | [] => []
  | c :: cs => c.drawn ++ Call.drawnAll cs

end

lemma Call.drawnAll_append (cs ds : List Call) :
    drawnAll (cs ++ ds) = drawnAll cs ++ drawnAll ds := by
  induction cs with
  | nil => rfl
  | cons c cs ih => rw [List.cons_append, drawnAll, drawnAll, ih, List.append_assoc]

lemma Call.drawnAll_concat (cs : List Call) (c : Call) :
    drawnAll (cs ++ [c]) = drawnAll cs ++ c.drawn := by
  rw [drawnAll_append, drawnAll, drawnAll, List.append_nil]

namespace Svg

/-- An item and a call that draw the same path or text in the same colour. The colour of the call
is written with six digits, and two more for its opacity if that is not full. -/
inductive Matches : Item → Call → Prop
  | fill (path : List (Subpath Scalar)) (written : Text) (opacity alpha : Scalar) :
    Matches (.path path (.fill (written.take 7) opacity))
      (.fill (Outline.ofPath path) written alpha)
  | stroke (path : List (Subpath Scalar)) (written : Text) (opacity : Option Scalar)
    (dash : List Scalar) :
    Matches (.path path (.stroke (written.take 7) opacity dash))
      (.stroke (Outline.ofPath path) written dash)
  | text (content : Text) (position : Vec Scalar) (font : FontStyle Scalar) (written : Text) :
    Matches (.text content position font (written.take 7))
      (.text content (position.map Scalar.thousandths) font written)

/-- The groups of a surface. -/
def footing (x : Surface Sheet Nat) : Footing :=
  ⟨x.content.root, x.content.container, x.stack.map Prod.snd⟩

/-- A surface of a document and a recorded one with the same size, path and offsets. -/
structure Twin (x : Surface Sheet Nat) (y : Surface Recording Unit) : Prop where
  size : x.size = y.size
  pen : x.pen = y.pen
  offsets : x.stack.map Prod.fst = y.stack.map Prod.fst
  writable : y.pen.Writable

lemma footing_popState (x : Surface Sheet Nat) :
    footing (Surface.popState x) = (footing x).pop := by
  obtain ⟨size, pen, stack, content⟩ := x
  cases stack <;> rfl

lemma Twin.pushState {x : Surface Sheet Nat} {y : Surface Recording Unit} (h : Twin x y) :
    Twin (Surface.pushState x) (Surface.pushState y) where
  size := h.size
  pen := h.pen
  offsets := by simp only [Surface.pushState, List.map_cons, h.pen, h.offsets]
  writable := h.writable

lemma Twin.popState {x : Surface Sheet Nat} {y : Surface Recording Unit} (h : Twin x y) :
    Twin (Surface.popState x) (Surface.popState y) := by
  obtain ⟨size, pen, stack, content⟩ := x
  obtain ⟨size', pen', stack', content'⟩ := y
  obtain ⟨hsize, hpen, hoffsets, hwritable⟩ := h
  dsimp only at hsize hpen hoffsets hwritable
  cases stack with
  | nil =>
    obtain rfl : stack' = [] := List.map_eq_nil_iff.1 hoffsets.symm
    exact ⟨hsize, hpen, rfl, hwritable⟩
  | cons entry rest =>
    obtain ⟨entry', rest', rfl, hentry, hrest⟩ := List.map_eq_cons_iff.1 hoffsets.symm
    refine ⟨hsize, ?_, hrest.symm, hwritable⟩
    simp only [Surface.popState, hpen, hentry]

/-- A document and a recording after the same commands. -/
structure Agree (r : Roster) (branch : Nat → Branch) (t : Studio Sheet Document Nat)
    (s : Studio Recording Unit Unit) : Prop where
  started : 0 < r.count
  count : s.surfaces.length = r.count
  length : t.surfaces.length = s.surfaces.length
  twin {i : Nat} {x : Surface Sheet Nat} {y : Surface Recording Unit}
    (hx : t.surfaces[i]? = some x) (hy : s.surfaces[i]? = some y) : Twin x y
  root {x : Surface Sheet Nat} (hx : t.surfaces[0]? = some x) : x.content.root = 0
  unplaced : 0 ∉ r.placed
  there : ∀ i ∈ r.placed, i < r.count
  forest : Forest t.shared.contents (t.surfaces.map footing) r.placed branch
  drawn {i : Nat} {y : Surface Recording Unit} (hy : s.surfaces[i]? = some y)
    (hi : i ∉ r.placed) : List.Forall₂ Matches (branch i).drawn (Call.drawnAll y.content.calls)

/-- Both sides carry out a command and agree afterwards. -/
def Proceed (r : Roster) (on : Nat) (c : Command Scalar) (t : Studio Sheet Document Nat)
    (s : Studio Recording Unit Unit) : Prop :=
  ∃ branch t' s', Studio.perform 0 on c t = .ok () t' ∧ Studio.perform 0 on c s = .ok () s' ∧
    Agree (r.after c) branch t' s'

/-- Both sides carry out an operation of their own on a surface and agree afterwards. -/
def Follow (r : Roster) (on : Nat) (action : Action (Canvas Sheet Document) Unit)
    (action' : Action (Canvas Recording Unit) Unit) (t : Studio Sheet Document Nat)
    (s : Studio Recording Unit Unit) : Prop :=
  ∃ branch t' s', Studio.onCanvas on action t = .ok () t' ∧
    Studio.onCanvas on action' s = .ok () s' ∧ Agree r branch t' s'

variable {r r' : Roster} {branch branch' : Nat → Branch} {t : Studio Sheet Document Nat}
  {s : Studio Recording Unit Unit} {i on : Nat} {x x' : Surface Sheet Nat}
  {y y' : Surface Recording Unit} {d : Document} {c : Command Scalar} {color : Color}
  {alpha : Scalar} {dash : List Scalar}

namespace Agree

lemma exists_twin (h : Agree r branch t s) (hi : i < r.count) :
    ∃ x y, t.surfaces[i]? = some x ∧ s.surfaces[i]? = some y ∧ Twin x y := by
  have hs : i < s.surfaces.length := h.count ▸ hi
  have ht : i < t.surfaces.length := h.length ▸ hs
  exact ⟨_, _, List.getElem?_eq_getElem ht, List.getElem?_eq_getElem hs,
    h.twin (List.getElem?_eq_getElem ht) (List.getElem?_eq_getElem hs)⟩

lemma footing_eq (hx : t.surfaces[i]? = some x) :
    (t.surfaces.map footing)[i]? = some (footing x) := by
  rw [List.getElem?_map, hx, Option.map_some]

/-- A change of one surface on both sides. -/
lemma update (h : Agree r branch t s) (hx : t.surfaces[i]? = some x)
    (hroot : x'.content.root = x.content.root)
    (htwin : Twin x' y') (hcount : r'.count = r.count) (hunplaced : 0 ∉ r'.placed)
    (hthere : ∀ i ∈ r'.placed, i < r.count) (hsub : ∀ i ∈ r.placed, i ∈ r'.placed)
    (hforest : Forest d.contents ((t.surfaces.map footing).set i (footing x')) r'.placed branch')
    (hother : ∀ j, j ≠ i → (branch' j).drawn = (branch j).drawn)
    (hdrawn : i ∉ r'.placed →
      List.Forall₂ Matches (branch' i).drawn (Call.drawnAll y'.content.calls)) :
    Agree r' branch' { t with shared := d, surfaces := t.surfaces.set i x' }
      { s with surfaces := s.surfaces.set i y' } where
  started := hcount ▸ h.started
  count := by rw [List.length_set, h.count, hcount]
  length := by rw [List.length_set, List.length_set, h.length]
  twin {j z w} hz hw := by
    obtain ⟨rfl, rfl⟩ | ⟨hne, hz⟩ := getElem?_set_cases hz
    · obtain ⟨-, rfl⟩ | ⟨hne, -⟩ := getElem?_set_cases hw
      · exact htwin
      · exact absurd rfl hne
    · obtain ⟨rfl, -⟩ | ⟨-, hw⟩ := getElem?_set_cases hw
      · exact absurd rfl hne
      · exact h.twin hz hw
  root {z} hz := by
    obtain ⟨rfl, rfl⟩ | ⟨-, hz⟩ := getElem?_set_cases hz
    · rw [hroot]
      exact h.root hx
    · exact h.root hz
  unplaced := hunplaced
  there := hcount ▸ hthere
  forest := by
    rw [List.map_set]
    exact hforest
  drawn {j w} hw hj := by
    obtain ⟨rfl, rfl⟩ | ⟨hne, hw⟩ := getElem?_set_cases hw
    · exact hdrawn hj
    · rw [hother j hne]
      exact h.drawn hw fun hmem => hj (hsub j hmem)

lemma regroups (h : Agree r branch t s) (hx : t.surfaces[i]? = some x) :
    Regroups t.shared.contents ((t.surfaces.map footing).set i (footing x)) r.placed branch := by
  rw [set_eq_self (footing_eq hx)]
  exact ⟨branch, h.forest, fun _ => rfl⟩

/-- A change of one surface on both sides that draws nothing. -/
lemma still (h : Agree r branch t s) (hx : t.surfaces[i]? = some x) (hy : s.surfaces[i]? = some y)
    (x' : Surface Sheet Nat) (y' : Surface Recording Unit)
    (hroot : x'.content.root = x.content.root) (htwin : Twin x' y')
    (hregroups : Regroups d.contents ((t.surfaces.map footing).set i (footing x')) r.placed branch)
    (hcalls : Call.drawnAll y'.content.calls = Call.drawnAll y.content.calls) :
    ∃ branch', Agree r branch' { t with shared := d, surfaces := t.surfaces.set i x' }
      { s with surfaces := s.surfaces.set i y' } := by
  obtain ⟨branch', hforest, hsame⟩ := hregroups
  refine ⟨branch', h.update hx hroot htwin rfl h.unplaced h.there (fun _ hi => hi) hforest
    (fun j _ => hsame j) fun hi => ?_⟩
  rw [hsame, hcalls]
  exact h.drawn hy hi

/-- Path building goes the same way on both sides. -/
lemma onPen (h : Agree r branch t s) (hx : t.surfaces[i]? = some x) (hy : s.surfaces[i]? = some y)
    {β : Type} {action : Action (Pen Scalar) β} {b : β} {q : Pen Scalar}
    (hq : action y.pen = .ok b q) (hwritable : q.Writable) :
    Studio.onSurface i (Surface.onPen action) t =
        .ok b { t with surfaces := t.surfaces.set i { x with pen := q } } ∧
      Studio.onSurface i (Surface.onPen action) s =
        .ok b { s with surfaces := s.surfaces.set i { y with pen := q } } ∧
      ∃ branch', Agree r branch' { t with surfaces := t.surfaces.set i { x with pen := q } }
        { s with surfaces := s.surfaces.set i { y with pen := q } } := by
  have htwin := h.twin hx hy
  refine ⟨?_, ?_, ?_⟩
  · rw [Studio.onSurface_apply, hx]
    simp only [Surface.onPen, htwin.pen, hq]
  · rw [Studio.onSurface_apply, hy]
    simp only [Surface.onPen, hq]
  · have hsame : footing { x with pen := q } = footing x := rfl
    refine h.still hx hy _ _ rfl ⟨htwin.size, rfl, htwin.offsets, hwritable⟩ ?_ rfl
    rw [hsame]
    exact h.regroups hx

/-- What is drawn on both sides. -/
lemma onCanvas_draw (h : Agree r branch t s) (hx : t.surfaces[i]? = some x)
    (hy : s.surfaces[i]? = some y) (hi : i ∉ r.placed)
    {action : Action (Canvas Sheet Document) Unit} {action' : Action (Canvas Recording Unit) Unit}
    {item : Item} {call : Call}
    (haction : action (t.shared, x.content) =
      .ok () (t.shared.append x.content.container item, x.content))
    (haction' : action' (s.shared, y.content) = .ok () (s.shared, ⟨y.content.calls ++ [call]⟩))
    (hitem : ¬ item.IsGroup) (hcall : call.drawn = [call]) (hmatches : Matches item call) :
    Follow r i action action' t s := by
  have htwin := h.twin hx hy
  rw [Follow, Studio.onCanvas_apply, Studio.onCanvas_apply, hx, hy]
  simp only [haction, haction']
  have hforest := h.forest.draw (footing_eq hx) hi (t.shared.grows_append x.content.container item)
    hitem
  refine ⟨_, _, _, rfl, rfl, h.update hx rfl ⟨htwin.size, htwin.pen, htwin.offsets, htwin.writable⟩
    rfl h.unplaced h.there (fun _ hi => hi) hforest (fun j hj => ?_) fun _ => ?_⟩
  · rw [Function.update_of_ne hj]
  · rw [Function.update_self, Call.drawnAll_concat, hcall]
    exact List.rel_append (h.drawn hy hi) (.cons hmatches .nil)

/-- What is recorded but not drawn. -/
lemma onCanvas_skip (h : Agree r branch t s) (hx : t.surfaces[i]? = some x)
    (hy : s.surfaces[i]? = some y) {action : Action (Canvas Sheet Document) Unit}
    {action' : Action (Canvas Recording Unit) Unit} {sheet : Sheet} {call : Call}
    (haction : action (t.shared, x.content) = .ok () (d, sheet))
    (haction' : action' (s.shared, y.content) = .ok () (s.shared, ⟨y.content.calls ++ [call]⟩))
    (hroot : sheet.root = x.content.root)
    (hregroups : Regroups d.contents
      ((t.surfaces.map footing).set i (footing { x with content := sheet })) r.placed branch)
    (hcall : call.drawn = []) : Follow r i action action' t s := by
  have htwin := h.twin hx hy
  rw [Follow, Studio.onCanvas_apply, Studio.onCanvas_apply, hx, hy]
  simp only [haction, haction']
  obtain ⟨branch', hagree⟩ := h.still hx hy { x with content := sheet }
    { y with content := ⟨y.content.calls ++ [call]⟩ } hroot
    ⟨htwin.size, htwin.pen, htwin.offsets, htwin.writable⟩ hregroups
    (by rw [Call.drawnAll_concat, hcall, List.append_nil])
  exact ⟨branch', _, _, rfl, rfl, hagree⟩

lemma perform_onPen (h : Agree r branch t s) (hon : on < r.count)
    {action : Action (Pen Scalar) Unit} (haction : c.onPen? = some action)
    (hwritable : ∀ y, s.surfaces[on]? = some y → c.WritableOn s y) : Proceed r on c t s := by
  obtain ⟨x, y, hx, hy, htwin⟩ := h.exists_twin hon
  obtain ⟨q, hq, hpen⟩ := htwin.writable.onPen (hwritable y hy) haction
  obtain ⟨ht, hs, branch', hagree⟩ := h.onPen hx hy hq hpen
  have hafter : r.after c = r := by
    cases c <;> first | rfl | cases haction
  refine ⟨branch', _, _, ?_, ?_, hafter ▸ hagree⟩
  · simp only [Studio.perform, haction, Nat.zero_add]
    exact ht
  · simp only [Studio.perform, haction, Nat.zero_add]
    exact hs

/-- A command that changes nothing but the groups of a surface that can be drawn to. -/
lemma perform_modify (h : Agree r branch t s) (hon : on < r.count) (hafter : r.after c = r)
    {f : Surface Sheet Nat → Surface Sheet Nat}
    {g : Surface Recording Unit → Surface Recording Unit}
    (ht : (Studio.perform 0 on c : Action (Studio Sheet Document Nat) Unit) =
      Studio.onSurface (0 + on) (modify f))
    (hs : (Studio.perform 0 on c : Action (Studio Recording Unit Unit) Unit) =
      Studio.onSurface (0 + on) (modify g))
    (hf : ∀ x, (f x).content.root = x.content.root) (hg : ∀ y, (g y).content = y.content)
    (htwin : ∀ {x y}, Twin x y → Twin (f x) (g y))
    (hregroups : ∀ x, (t.surfaces.map footing)[on]? = some (footing x) →
      Regroups t.shared.contents ((t.surfaces.map footing).set on (footing (f x))) r.placed
        branch) :
    Proceed r on c t s := by
  obtain ⟨x, y, hx, hy, hxy⟩ := h.exists_twin hon
  obtain ⟨branch', hagree⟩ := h.still hx hy (f x) (g y) (hf x) (htwin hxy)
    (hregroups x (footing_eq hx)) (by rw [hg])
  refine ⟨branch', _, _, ?_, ?_, hafter.symm ▸ hagree⟩
  · rw [ht, Nat.zero_add]
    exact Studio.onSurface_modify hx f
  · rw [hs, Nat.zero_add]
    exact Studio.onSurface_modify hy g

lemma perform_pushState (h : Agree r branch t s) (hon : on < r.count) :
    Proceed r on .pushState t s :=
  h.perform_modify hon rfl (Studio.perform_pushState 0 on) (Studio.perform_pushState 0 on)
    (fun _ => rfl) (fun _ => rfl) Twin.pushState fun _ hx => h.forest.push hx

lemma perform_popState (h : Agree r branch t s) (hon : on < r.count) :
    Proceed r on .popState t s := by
  refine h.perform_modify hon rfl (Studio.perform_popState 0 on) (Studio.perform_popState 0 on)
    (fun x => ?_) (fun y => ?_) Twin.popState fun x hx => ?_
  · unfold Surface.popState
    split <;> rfl
  · unfold Surface.popState
    split <;> rfl
  · rw [footing_popState]
    exact h.forest.pop hx

/-- A command that looks at the path first. -/
lemma perform_path (h : Agree r branch t s) (hon : on < r.count) (hafter : r.after c = r)
    {action : List (Subpath Scalar) → Action (Canvas Sheet Document) Unit}
    {action' : List (Subpath Scalar) → Action (Canvas Recording Unit) Unit}
    (ht : (Studio.perform 0 on c : Action (Studio Sheet Document Nat) Unit) =
      Studio.onSurface (0 + on) (Surface.onPen Pen.path) >>= fun path =>
        Studio.onCanvas (0 + on) (action path))
    (hs : (Studio.perform 0 on c : Action (Studio Recording Unit Unit) Unit) =
      Studio.onSurface (0 + on) (Surface.onPen Pen.path) >>= fun path =>
        Studio.onCanvas (0 + on) (action' path))
    (hnext : ∀ y, s.surfaces[on]? = some y → ∀ path, (Pen.flushed y.pen).finished = path →
      (∀ p ∈ path, p.Writable) → ∀ {branch t' s'}, Agree r branch t' s' →
      ∀ x' y', t'.surfaces[on]? = some x' → s'.surfaces[on]? = some y' →
        Follow r on (action path) (action' path) t' s') :
    Proceed r on c t s := by
  obtain ⟨x, y, hx, hy, htwin⟩ := h.exists_twin hon
  have hwritable := htwin.writable.flushed
  obtain ⟨htpath, hspath, branch, hagree⟩ := h.onPen hx hy (Pen.path_apply y.pen) hwritable
  obtain ⟨hxlt, -⟩ := List.getElem?_eq_some_iff.1 hx
  obtain ⟨hylt, -⟩ := List.getElem?_eq_some_iff.1 hy
  obtain ⟨branch', t', s', ht', hs', hagree'⟩ := hnext y hy _ rfl hwritable.1 hagree _ _
    (List.getElem?_set_self hxlt) (List.getElem?_set_self hylt)
  refine ⟨branch', t', s', ?_, ?_, hafter.symm ▸ hagree'⟩
  · rw [ht, Nat.zero_add]
    exact (bind_of_ok htpath).trans ht'
  · rw [hs, Nat.zero_add]
    exact (bind_of_ok hspath).trans hs'

lemma perform_fill (h : Agree r branch t s) (hpermits : r.Permits on (.fill color alpha))
    (hcolor : color.inRange = true)
    (hwritable : ∀ y, s.surfaces[on]? = some y → (Command.fill color alpha).WritableOn s y) :
    Proceed r on (.fill color alpha) t s := by
  obtain ⟨written, htext, hink⟩ := Color.fullText_of_inRange hcolor
  refine h.perform_path hpermits.there rfl (Studio.perform_fill 0 on color alpha)
    (Studio.perform_fill 0 on color alpha) ?_
  intro y hy path hfinished hpath branch t' s' hagree x' y' hx' hy'
  have hrecord : (Medium.fill path color alpha : Action (Canvas Recording Unit) Unit)
      (s'.shared, y'.content) =
      .ok () (s'.shared, ⟨y'.content.calls ++ [.fill (Outline.ofPath path) written alpha]⟩) := by
    change (Action.ofExcept color.text >>= _) _ = _
    rw [htext, ofExcept_ok_bind]
    rfl
  by_cases hne : path = []
  · subst hne
    exact hagree.onCanvas_skip hx' hy' (Sheet.fill_nil color alpha _) hrecord rfl
      (hagree.regroups hx') rfl
  · obtain ⟨opacity, hopacity, hdouble⟩ :=
      Color.mul_hasDouble hcolor (hwritable y hy fun hnil => hne (hfinished.symm.trans hnil))
    refine hagree.onCanvas_draw hx' hy' (hpermits.unplaced rfl)
      (Sheet.fill_apply hpath hne hink hopacity hdouble) hrecord (fun h => h) ?_
      (.fill path written opacity alpha)
    cases path with
    | nil => exact absurd rfl hne
    | cons p path => rfl

lemma perform_stroke (h : Agree r branch t s) (hpermits : r.Permits on (.stroke color dash))
    (hcolor : color.inRange = true)
    (hwritable : ∀ y, s.surfaces[on]? = some y → (Command.stroke color dash).WritableOn s y) :
    Proceed r on (.stroke color dash) t s := by
  obtain ⟨written, htext, hink⟩ := Color.fullText_of_inRange hcolor
  refine h.perform_path hpermits.there rfl (Studio.perform_stroke 0 on color dash)
    (Studio.perform_stroke 0 on color dash) ?_
  intro y hy path hfinished hpath branch t' s' hagree x' y' hx' hy'
  have hrecord : (Medium.stroke path color dash : Action (Canvas Recording Unit) Unit)
      (s'.shared, y'.content) =
      .ok () (s'.shared, ⟨y'.content.calls ++ [.stroke (Outline.ofPath path) written dash]⟩) := by
    change (Action.ofExcept color.text >>= _) _ = _
    rw [htext, ofExcept_ok_bind]
    rfl
  by_cases hne : path = []
  · subst hne
    exact hagree.onCanvas_skip hx' hy' (Sheet.stroke_nil color dash _) hrecord rfl
      (hagree.regroups hx') rfl
  · have hdash := hwritable y hy fun hnil => hne (hfinished.symm.trans hnil)
    refine hagree.onCanvas_draw hx' hy' (hpermits.unplaced rfl)
      (Sheet.stroke_apply hpath hne hink (Color.hasDouble_of_inRange hcolor) hdash) hrecord
      (fun h => h) ?_ (.stroke path written (Sheet.lineOpacity color) dash)
    cases path with
    | nil => exact absurd rfl hne
    | cons p path => rfl

lemma perform_clip (h : Agree r branch t s) (hon : on < r.count) : Proceed r on .clip t s := by
  refine h.perform_path hon rfl (Studio.perform_clip 0 on) (Studio.perform_clip 0 on) ?_
  intro y hy path hfinished hpath branch t' s' hagree x' y' hx' hy'
  have hfooting := footing_eq hx'
  have hsome := hagree.forest.container_isSome hfooting
  have hne := Nat.ne_of_lt (Document.lt_of_contents_isSome hsome)
  have hclip := Sheet.clip_apply (d := t'.shared) (s := x'.content) hpath
  refine hagree.onCanvas_skip hx' hy' hclip rfl rfl ?_ rfl
  -- the clip path is written beside the groups, so the new group is all that counts
  exact hagree.forest.open_group hfooting
    (Document.grows_addGroup (t'.shared.takeNumber.addClip _) _ _) t'.shared.contents_length
    (Document.contents_addGroup_append (t'.shared.takeNumber.addClip _) _ _ hne)

lemma perform_text (h : Agree r branch t s) {content : Text} {position : Vec Scalar}
    {font : FontStyle Scalar} (hpermits : r.Permits on (.text content position font color))
    (hcolor : color.inRange = true)
    (hwritable : ∀ y, s.surfaces[on]? = some y →
      (Command.text content position font color).WritableOn s y) :
    Proceed r on (.text content position font color) t s := by
  obtain ⟨x, y, hx, hy, htwin⟩ := h.exists_twin hpermits.there
  obtain ⟨written, htext, hink⟩ := Color.fullText_of_inRange hcolor
  obtain ⟨corner, hcorner, hmeasurable⟩ := hwritable y hy
  have hrecord (looked : Except Fault Font) :
      (Medium.text content font color : Lettering Recording Unit).draw (.ok corner) looked
        (s.shared, y.content) = .ok () (s.shared,
          ⟨y.content.calls ++ [.text content (corner.map Scalar.thousandths) font written]⟩) := by
    change (Action.ofExcept (.ok corner) >>= _) _ = _
    rw [ofExcept_ok_bind, htext, ofExcept_ok_bind]
    rfl
  have hfollow : Follow r on
      ((Medium.text content font color).draw (.ok corner) (t.metrics.font font).1)
      ((Medium.text content font color).draw (.ok corner) (s.metrics.font font).1) t s := by
    by_cases hne : content = []
    · subst hne
      exact h.onCanvas_skip hx hy rfl (hrecord _) rfl (h.regroups hx) rfl
    · obtain ⟨hcorner, hsize, hfamily⟩ := hmeasurable hne
      refine h.onCanvas_draw hx hy (hpermits.unplaced rfl)
        (Sheet.text_apply hne hcorner hsize hfamily hink) (hrecord _) (fun h => h) ?_
        (.text content corner font written)
      cases content with
      | nil => exact absurd rfl hne
      | cons a content => rfl
  obtain ⟨branch', t', s', ht, hs, hagree⟩ := hfollow
  refine ⟨branch', t', s', ?_, ?_, hagree⟩
  · rw [Studio.perform_text_apply, Nat.zero_add, hx]
    dsimp only
    rw [htwin.pen, hcorner]
    exact ht
  · rw [Studio.perform_text_apply, Nat.zero_add, hy]
    dsimp only
    rw [hcorner]
    exact hs

/-- A new surface on both sides. -/
lemma added (h : Agree r branch t s) (size : Vec Scalar) :
    Agree { r with count := r.count + 1 }
      (Function.update branch t.surfaces.length
        { spine := [t.shared.groups.length], drawn := [], closed := [] })
      { t with
        shared := t.shared.addGroup {}
        surfaces := t.surfaces ++ [{
          size := size, content := ⟨t.shared.groups.length, t.shared.groups.length⟩ }] }
      { s with surfaces := s.surfaces ++ [{ size := size, content := ⟨[]⟩ }] } where
  started := Nat.succ_pos _
  count := by simp only [List.length_append, List.length_singleton, h.count]
  length := by simp only [List.length_append, List.length_singleton, h.length]
  twin {i z w} hz hw := by
    obtain ⟨hi, rfl⟩ | ⟨hne, hz⟩ := getElem?_concat_cases hz
    · obtain ⟨-, rfl⟩ | ⟨hne, -⟩ := getElem?_concat_cases hw
      · exact ⟨rfl, rfl, rfl, Pen.writable_initial⟩
      · exact absurd (hi.trans h.length) hne
    · obtain ⟨hi, -⟩ | ⟨-, hw⟩ := getElem?_concat_cases hw
      · exact absurd (hi.trans h.length.symm) hne
      · exact h.twin hz hw
  root {z} hz := by
    obtain ⟨hi, -⟩ | ⟨-, hz⟩ := getElem?_concat_cases hz
    · rw [h.length, h.count] at hi
      exact absurd h.started (hi ▸ Nat.lt_irrefl 0)
    · exact h.root hz
  unplaced := h.unplaced
  there i hi := Nat.lt_succ_of_lt (h.there i hi)
  forest := by
    have hthere : ∀ i ∈ r.placed, i < (t.surfaces.map footing).length := by
      rw [List.length_map, h.length, h.count]
      exact h.there
    have hold : ∀ n, (t.shared.contents n).isSome →
        (t.shared.addGroup {}).contents n = t.shared.contents n := by
      intro n hn
      rw [Document.contents_addGroup, if_neg (Nat.ne_of_lt (Document.lt_of_contents_isSome hn))]
    have hnew : (t.shared.addGroup {}).contents t.shared.groups.length = some [] := by
      rw [Document.contents_addGroup, if_pos rfl]
    have hforest := h.forest.create hthere hold t.shared.contents_length hnew
    rw [List.length_map] at hforest
    rw [List.map_append]
    exact hforest
  drawn {i w} hw hi := by
    obtain ⟨rfl, rfl⟩ | ⟨hne, hw⟩ := getElem?_concat_cases hw
    · rw [← h.length, Function.update_self]
      exact .nil
    · rw [Function.update_of_ne fun heq => hne (heq.trans h.length)]
      exact h.drawn hw hi

lemma perform_create (h : Agree r branch t s) (hon : on < r.count) (w l : Scalar) :
    Proceed r on (.create w l) t s := by
  obtain ⟨x, y, hx, hy, -⟩ := h.exists_twin hon
  refine ⟨_, _, _, ?_, ?_, h.added ⟨w, l⟩⟩
  · rw [Studio.perform_create_apply, Nat.zero_add, hx]
    exact Studio.create_apply _ t
  · rw [Studio.perform_create_apply, Nat.zero_add, hy]
    exact Studio.create_apply _ s

/-- A surface other than the first is not the document itself. -/
lemma root_ne_zero (h : Agree r branch t s) (hx : t.surfaces[i]? = some x) (hi : i ∉ r.placed)
    (hne : i ≠ 0) : x.content.root ≠ 0 := by
  intro hroot
  obtain ⟨hlt, -⟩ := List.getElem?_eq_some_iff.1 hx
  have hfirst := List.getElem?_eq_getElem (Nat.zero_lt_of_lt hlt)
  have hhead {j : Nat} {z : Surface Sheet Nat} (hz : t.surfaces[j]? = some z) (hj : j ∉ r.placed)
      (hzero : z.content.root = 0) : 0 ∈ (branch j).numbers := by
    have hmem := List.mem_of_head? (h.forest.bears (footing_eq hz) hj).root
    rw [footing, hzero] at hmem
    exact List.mem_append_left _ hmem
  exact h.forest.apart (footing_eq hx) (footing_eq hfirst) hi h.unplaced hne
    (hhead hx hi hroot) (hhead hfirst h.unplaced (h.root hfirst))

lemma perform_place (h : Agree r branch t s) {number : Nat} {position : Vec Scalar}
    (hpermits : r.Permits on (.place number position))
    (hwritable : ∀ y, s.surfaces[on]? = some y → (Command.place number position).WritableOn s y) :
    Proceed r on (.place number position) t s := by
  obtain ⟨x, y, hx, hy, htwin⟩ := h.exists_twin hpermits.there
  obtain ⟨hfirst, hnumber, hself, hunplaced⟩ := hpermits.places number rfl
  obtain ⟨z, w, hz, hw, hother⟩ := h.exists_twin hnumber
  obtain ⟨⟨corner, hcorner, hmeasurable⟩, hsize⟩ := hwritable y hy
  obtain ⟨hwidth, hheight⟩ := hsize w hw
  have hon := hpermits.unplaced rfl
  -- the shift and the clip path of the placed group do not change what is in any group
  obtain ⟨d, hplace, hcontents⟩ := Sheet.place_apply (d := t.shared) (s := x.content)
    (hother.size ▸ hwidth) (hother.size ▸ hheight) (h.root_ne_zero hz hunplaced hfirst) hmeasurable
  have hgrows := t.shared.grows_append x.content.container (.group z.content.root)
  rw [← hcontents] at hgrows
  obtain ⟨ms, hforest⟩ := h.forest.place (footing_eq hx) hon (footing_eq hz) hunplaced
    (Ne.symm hself) hgrows
  have hplaced : 0 ∉ number :: r.placed :=
    List.not_mem_cons_of_ne_of_not_mem (Ne.symm hfirst) h.unplaced
  have hthere : ∀ i ∈ number :: r.placed, i < r.count :=
    List.forall_mem_cons.2 ⟨hnumber, h.there⟩
  have hagree : Agree (r.after (.place number position))
      (Function.update branch on ((branch on).extend (branch number).drawn ms))
      { t with shared := d, surfaces := t.surfaces.set on x }
      { s with surfaces := s.surfaces.set on { y with
        content := ⟨y.content.calls ++ [.surface corner w.size w.content.calls]⟩ } } := by
    refine h.update hx rfl ⟨htwin.size, htwin.pen, htwin.offsets, htwin.writable⟩ rfl hplaced hthere
      (fun i hi => List.mem_cons_of_mem _ hi) ?_ (fun j hj => ?_) fun _ => ?_
    · rw [set_eq_self (footing_eq hx)]
      exact hforest
    · rw [Function.update_of_ne hj]
    · rw [Function.update_self, Call.drawnAll_concat]
      exact List.rel_append (h.drawn hy hon) (h.drawn hw hunplaced)
  refine ⟨_, _, _, ?_, ?_, hagree⟩
  · rw [Studio.perform_place_apply, Nat.zero_add, Nat.zero_add, hx, hz]
    dsimp only
    rw [htwin.pen, hcorner]
    dsimp only
    rw [Studio.onCanvas_apply, hx]
    have hcanvas : (Medium.place z.size z.content corner : Action (Canvas Sheet Document) Unit)
        (t.shared, x.content) = .ok () (d, x.content) := hplace
    simp only [hcanvas]
  · rw [Studio.perform_place_apply, Nat.zero_add, Nat.zero_add, hy, hw]
    dsimp only
    rw [hcorner]
    dsimp only
    rw [Studio.onCanvas_apply, hy]
    rfl

/-- A command that is permitted, with a colour in range and numbers that can be written, is carried
out on both sides. -/
theorem perform (h : Agree r branch t s) (hpermits : r.Permits on c)
    (hcolor : ∀ color ∈ c.color?, color.inRange = true)
    (hwritable : ∀ y, s.surfaces[on]? = some y → c.WritableOn s y) : Proceed r on c t s := by
  cases c with
  | pushState => exact h.perform_pushState hpermits.there
  | popState => exact h.perform_popState hpermits.there
  | fill color alpha => exact h.perform_fill hpermits (hcolor color rfl) hwritable
  | stroke color dash => exact h.perform_stroke hpermits (hcolor color rfl) hwritable
  | clip => exact h.perform_clip hpermits.there
  | text content position font color => exact h.perform_text hpermits (hcolor color rfl) hwritable
  | create w l => exact h.perform_create hpermits.there w l
  | place number position => exact h.perform_place hpermits hwritable
  | _ => exact h.perform_onPen hpermits.there rfl hwritable

/-- A disciplined program is carried out on both sides. -/
theorem carryOut_afterAll {p : Program} (h : Agree r branch t s) (hdisciplined : p.Disciplined r)
    (hcolors : p.ColorsInRange) (hwritable : p.Writable s) :
    ∃ branch' t' s', Studio.carryOut p t = .ok () t' ∧ Studio.carryOut p s = .ok () s' ∧
      Agree (r.afterAll p) branch' t' s' := by
  -- the numbers that have to be written are those of the recording, which never looks at groups
  induction p generalizing r branch t s with
  | nil => exact ⟨branch, t, s, rfl, rfl, h⟩
  | cons step rest ih =>
    obtain ⟨on, c⟩ := step
    obtain ⟨hpermits, hrest⟩ := hdisciplined
    obtain ⟨hcolor, hcolors⟩ := List.forall_mem_cons.1 hcolors
    obtain ⟨hnow, hlater⟩ := hwritable
    obtain ⟨branch', t', s', ht, hs, hagree⟩ := h.perform hpermits hcolor hnow
    obtain ⟨branch'', t'', s'', ht', hs', hagree⟩ := ih hagree hrest hcolors (hlater s' hs)
    exact ⟨branch'', t'', s'', (bind_of_ok ht).trans ht', (bind_of_ok hs).trans hs', hagree⟩

theorem carryOut {p : Program} (h : Agree r branch t s) (hdisciplined : p.Disciplined r)
    (hcolors : p.ColorsInRange) (hwritable : p.Writable s) :
    ∃ r' branch' t' s', Studio.carryOut p t = .ok () t' ∧ Studio.carryOut p s = .ok () s' ∧
      Agree r' branch' t' s' :=
  ⟨_, h.carryOut_afterAll hdisciplined hcolors hwritable⟩

end Agree

end Svg

end UmlDrawing
