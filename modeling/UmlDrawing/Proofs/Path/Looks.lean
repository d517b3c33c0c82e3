import UmlDrawing.Font.Block
import UmlDrawing.Proofs.Path.Trace
import UmlDrawing.Proofs.Surface.CarryOn
import UmlDrawing.Surface.Recording

/-! What looking at a path does to it. A look (reading the path, filling it, drawing its outline or
clipping to it) ends the piece being drawn and takes the pen up. The path does not show this unless
something is drawn on from where the pen was: then the edge that starts there is missing, and nothing
that is built later makes up for it but a path begun anew. -/
open UmlDrawing.Action

namespace UmlDrawing

open Dashes (segments)

namespace Command

variable {α : Type}

/-- Whether a command looks at the path. -/
def looks : Command α → Bool
  | readPath | fill .. | stroke .. | clip => true
  | _ => false

/-- The commands that are no looks. -/
def unseen (cs : List (Command α)) : List (Command α) := cs.filter fun c => !c.looks

lemma unseen_cons_of_looks {c : Command α} (h : c.looks = true) (cs : List (Command α)) :
    unseen (c :: cs) = unseen cs :=
  List.filter_cons_of_neg (by simp [h])

variable [Arithmetic α]

/-- Whether a command builds a path. -/
def builds (c : Command α) : Bool := c.onTrace?.isSome

/-- Whether a command, under an offset, draws an edge from where the pen is if that is down. -/
def Joins (offset : Vec α) : Command α → Prop
  | closePath => True
  | lineTo v => ∃ u, offset.add v = .ok u
  | _ => False

lemma not_joins_of_looks {c : Command α} (h : c.looks = true) {offset : Vec α} :
    ¬ c.Joins offset := by
  cases c <;> cases h <;> exact id

lemma looks_of_builds {c : Command α} (h : c.builds = true) : c.looks = false := by
  cases c <;> cases h <;> rfl

lemma unseen_cons_of_builds {c : Command α} (h : c.builds = true) (cs : List (Command α)) :
    unseen (c :: cs) = c :: unseen cs :=
  List.filter_cons_of_pos (by simp [looks_of_builds h])

end Command

open Command (unseen unseen_cons_of_looks unseen_cons_of_builds)

namespace Pen

section Drawn

variable {α : Type} {p q : Pen α}

/-- How many edges have been drawn. -/
def drawn (p : Pen α) : ℕ :=
  (p.finished.flatMap Subpath.edges).length + (segments p.current).length

@[simp] lemma flushed_offset (p : Pen α) : p.flushed.offset = p.offset := rfl

@[simp] lemma flushed_current (p : Pen α) : p.flushed.current = [] := rfl

@[simp] lemma flushed_flushed (p : Pen α) : p.flushed.flushed = p.flushed := rfl

lemma flushed_of_current (h : p.current = []) : p.flushed = p := by
  obtain ⟨finished, current, offset⟩ := p
  subst h
  rfl

/-- Ending the piece being drawn adds no edge and loses none. -/
lemma drawn_flushed (p : Pen α) : p.flushed.drawn = p.drawn := by
  by_cases hlength : 1 < p.current.length
  · simp [flushed, drawn, hlength, Subpath.edges]
  · simp [flushed, drawn, hlength, segments_eq_nil (not_lt.1 hlength)]

lemma length_ends? (points : List (Vec α)) :
    (ends? points).toList.length = if points = [] then 0 else 1 := by
  cases points with
  | nil => rfl
  | cons first rest => simp [ends?, List.getLast?_cons]

lemma drawn_concat (p : Pen α) (u : Vec α) :
    drawn { p with current := p.current ++ [u] } =
      p.drawn + if p.current = [] then 0 else 1 := by
  simp only [drawn, segments_concat, List.length_append, List.length_map, length_ends?]
  omega

/-- The pen after the piece being drawn is closed. -/
def closed (p : Pen α) : Pen α :=
  match p.current with
  | [] => p
  | first :: _ =>
    { p with
      finished := p.finished ++ [{ points := p.current, closed := true }]
      current := [first] }

lemma closePath_eq (p : Pen α) : closePath p = .ok () p.closed := rfl

lemma closed_of_current (h : p.current = []) : p.closed = p := by
  rw [closed, h]

@[simp] lemma closed_offset (p : Pen α) : p.closed.offset = p.offset := by
  rw [closed]
  split <;> rfl

lemma closed_current_eq_nil_iff : p.closed.current = [] ↔ p.current = [] := by
  rw [closed]
  split
  · rfl
  · next h => simp [h]

lemma segments_closed_current (p : Pen α) : segments p.closed.current = [] := by
  rw [closed]
  split
  · next h => rw [h, segments_nil]
  · rfl

lemma drawn_closed (p : Pen α) : p.closed.drawn = p.drawn + if p.current = [] then 0 else 1 := by
  cases h : p.current with
  | nil => rw [closed_of_current h, if_pos rfl, Nat.add_zero]
  | cons first rest =>
    have hclosing : (closing p.current).length = 1 := by
      rw [closing, List.length_map, length_ends?, if_neg (by simp [h])]
    simp only [closed, h, drawn, List.flatMap_append, List.flatMap_singleton, List.length_append,
      Subpath.edges, if_true, segments_singleton, List.length_nil, Nat.add_zero, reduceCtorEq,
      if_false]
    rw [← h, hclosing]
    omega

/-- Taking the pen up from a lone point loses no edge. -/
lemma drawn_lift (h : segments p.current = []) : drawn { p with current := [] } = p.drawn := by
  simp [drawn, h]

/-- A pen that has drawn fewer edges than another one, and is not down unless that is. -/
structure Behind (p q : Pen α) : Prop where
  offset : p.offset = q.offset
  up : q.current = [] → p.current = []
  fewer : p.drawn < q.drawn

namespace Behind

lemma flushed (h : Behind p q) : Behind p.flushed q.flushed :=
  ⟨h.offset, fun _ => rfl, by rw [drawn_flushed, drawn_flushed]; exact h.fewer⟩

/-- A pen that draws an edge is down before, and so is the one ahead of it. -/
lemma step_le (h : Behind p q) :
    p.drawn + (if p.current = [] then 0 else 1) < q.drawn + if q.current = [] then 0 else 1 := by
  have hfewer := h.fewer
  by_cases hq : q.current = []
  · simpa [hq, h.up hq] using hfewer
  · rw [if_neg hq]
    split <;> omega

lemma drawTo (h : Behind p q) (u : Vec α) :
    Behind { p with current := p.current ++ [u] } { q with current := q.current ++ [u] } :=
  ⟨h.offset, by simp, by rw [drawn_concat, drawn_concat]; exact h.step_le⟩

lemma closed (h : Behind p q) : Behind p.closed q.closed where
  offset := by rw [closed_offset, closed_offset, h.offset]
  up := by rw [closed_current_eq_nil_iff, closed_current_eq_nil_iff]; exact h.up
  fewer := by rw [drawn_closed, drawn_closed]; exact h.step_le

/-- A computation without state goes the same way for both pens. -/
lemma ofExcept_bind {β : Type} (h : Behind p q) (x : Except Fault β) {f g : β → Action (Pen α) Unit}
    (hnext : ∀ b, Alike Behind (f b p) (g b q)) :
    Alike Behind ((Action.ofExcept x >>= f) p) ((Action.ofExcept x >>= g) q) := by
  cases x with
  | error fault => exact .error fault h
  | ok b =>
    rw [ofExcept_ok_bind, ofExcept_ok_bind]
    exact hnext b

/-- The same piece after the pen was taken up. -/
lemma add (h : Behind p q) (s : Subpath α) :
    Behind { p.flushed with finished := p.flushed.finished ++ [s] }
      { q.flushed with finished := q.flushed.finished ++ [s] } := by
  have hfewer := h.flushed.fewer
  refine ⟨h.offset, fun _ => rfl, ?_⟩
  simp only [drawn, List.flatMap_append, List.length_append] at hfewer ⊢
  omega

variable [Arithmetic α]

lemma lineTo (h : Behind p q) (v : Vec α) : Alike Behind (Pen.lineTo v p) (Pen.lineTo v q) := by
  have hoffset : p.offset.add v = q.offset.add v := by rw [h.offset]
  rw [lineTo_apply, lineTo_apply, hoffset]
  cases q.offset.add v with
  | error fault => exact .error fault h
  | ok u => exact .ok () (h.drawTo u)

lemma moveTo (h : Behind p q) (v : Vec α) : Alike Behind (Pen.moveTo v p) (Pen.moveTo v q) := by
  rw [moveTo_apply, moveTo_apply, h.offset]
  cases q.offset.add v with
  | error fault => exact .error fault h.flushed
  | ok u => exact .ok () (h.flushed.drawTo u)

lemma linesTo (h : Behind p q) (vs : List (Vec α)) :
    Alike Behind (Pen.linesTo vs p) (Pen.linesTo vs q) := by
  induction vs generalizing p q with
  | nil => exact .ok () h
  | cons v vs ih => exact (h.lineTo v).bind (fun _ _ _ h => ih h) fun _ _ h => h

lemma polyline (h : Behind p q) (points : List (Vec α)) (closed : Bool) :
    Alike Behind (Pen.polyline points closed p) (Pen.polyline points closed q) := by
  cases points with
  | nil => exact .ok () h
  | cons first rest =>
    refine (h.moveTo first).bind (fun _ _ _ h => ?_) fun _ _ h => h
    refine (h.linesTo rest).bind (fun _ _ _ h => ?_) fun _ _ h => h
    cases closed with
    | false => exact .ok () h
    | true => exact .ok () h.closed

lemma rect (h : Behind p q) (x y w l : α) :
    Alike Behind (Pen.rect x y w l p) (Pen.rect x y w l q) := by
  refine h.ofExcept_bind _ fun right => h.ofExcept_bind _ fun bottom => ?_
  refine (h.polyline _ false).bind (fun _ p q h => ?_) fun _ _ h => h
  rw [bind_of_ok (closePath_eq p), bind_of_ok (closePath_eq q)]
  refine .ok () ⟨h.closed.offset, fun _ => rfl, ?_⟩
  rw [drawn_lift (segments_closed_current p), drawn_lift (segments_closed_current q)]
  exact h.closed.fewer

lemma ellipse (h : Behind p q) (x y w l : α) :
    Alike Behind (Pen.ellipse x y w l p) (Pen.ellipse x y w l q) := by
  have hflush (p : Pen α) : (flush : Action (Pen α) Unit) p = .ok () p.flushed := rfl
  rw [Pen.ellipse, bind_of_ok (hflush p), bind_of_ok (hflush q), bind_of_ok (get_apply _),
    bind_of_ok (get_apply _), flushed_offset, flushed_offset, h.offset]
  refine h.flushed.ofExcept_bind _ fun axes => h.flushed.ofExcept_bind _ fun corners => ?_
  exact .ok () (h.add _)

lemma translate (h : Behind p q) (d : Vec α) :
    Alike Behind (Pen.translate d p) (Pen.translate d q) := by
  rw [Pen.translate, bind_apply, bind_apply, located_apply, located_apply, h.offset]
  cases q.offset.add d with
  | error fault => exact .error fault h
  | ok offset => exact .ok () ⟨rfl, h.up, h.fewer⟩

end Behind

end Drawn

section After

variable {α : Type}

lemma path_outcome (p : Pen α) : outcome (path p) = .ok p.flushed.finished := rfl

/-- A pen that is behind has another path. -/
lemma Behind.path_ne {p q : Pen α} (h : Behind p q) : outcome (path p) ≠ outcome (path q) := by
  rw [path_outcome, path_outcome]
  intro hpath
  have hfewer := h.flushed.fewer
  rw [drawn, drawn, Except.ok.inj hpath] at hfewer
  exact lt_irrefl _ hfewer

variable [Arithmetic α] {p q : Pen α} {c : Command α} {cs : List (Command α)}

/-- The pen after a command, however that ends. Whatever looks at the path ends the piece being
drawn. -/
def after (p : Pen α) (c : Command α) : Pen α :=
  if c.looks then p.flushed
  else match c.onPen? with
    | some build => final (build p)
    | none => p

/-- The pen after some commands. -/
def afterAll (p : Pen α) (cs : List (Command α)) : Pen α := cs.foldl after p

/-- Looks cost an edge: a command that draws on from where the pen is finds it taken up, though it
would be down without them, and the path is not begun anew afterwards. One pen is looked at and one is
not. -/
def Severed (p q : Pen α) (cs : List (Command α)) : Prop :=
  ∃ before c rest, cs = before ++ c :: rest ∧ c.Joins (q.afterAll (unseen before)).offset ∧
    (p.afterAll before).current = [] ∧ (q.afterAll (unseen before)).current ≠ [] ∧
    .beginPath ∉ rest

@[simp] lemma afterAll_cons (p : Pen α) (c : Command α) (cs : List (Command α)) :
    p.afterAll (c :: cs) = (p.after c).afterAll cs := rfl

lemma after_of_looks (p : Pen α) (h : c.looks = true) : p.after c = p.flushed := if_pos h

/-- A pen stays behind another one unless the path is begun anew. -/
lemma Behind.after (h : Behind p q) (hc : c.builds = true) (hbegin : c ≠ .beginPath) :
    Behind (p.after c) (q.after c) := by
  cases c with
  | beginPath => exact absurd rfl hbegin
  | moveTo v => exact (h.moveTo v).final
  | lineTo v => exact (h.lineTo v).final
  | closePath => exact h.closed
  | polyline points closed => exact (h.polyline points closed).final
  | rect x y w l => exact (h.rect x y w l).final
  | ellipse x y w l => exact (h.ellipse x y w l).final
  | translate d => exact (h.translate d).final
  | _ => cases hc

/-- A pen that is where another one is, but may have been taken up since. -/
def Lifted (p q : Pen α) : Prop := p = q ∨ p = q.flushed

lemma moveTo_flushed (v : Vec α) (q : Pen α) : moveTo v q.flushed = moveTo v q := by
  rw [moveTo_apply, moveTo_apply, flushed_flushed, flushed_offset]

lemma polyline_flushed (first : Vec α) (rest : List (Vec α)) (closed : Bool) (q : Pen α) :
    polyline (first :: rest) closed q.flushed = polyline (first :: rest) closed q := by
  rw [polyline, bind_apply, moveTo_flushed, ← bind_apply]

lemma lifted_rect (x y w l : α) (q : Pen α) :
    Lifted (final (rect x y w l q.flushed)) (final (rect x y w l q)) := by
  rw [rect]
  cases Arithmetic.add x w with
  | error fault => exact .inr rfl
  | ok right =>
    rw [ofExcept_ok_bind]
    cases Arithmetic.add y l with
    | error fault => exact .inr rfl
    | ok bottom =>
      left
      rw [ofExcept_ok_bind, bind_apply, polyline_flushed, ← bind_apply]

/-- A command that does not draw on from where a pen is does not show that the pen was taken up. -/
lemma Lifted.after (h : Lifted p q) (hc : c.builds = true)
    (hjoins : c.Joins q.offset → p.current = [] → q.current = []) :
    Lifted (p.after c) (q.after c) := by
  obtain rfl | rfl := h
  · exact .inl rfl
  by_cases hq : q.current = []
  · exact .inl (by rw [flushed_of_current hq])
  replace hjoins : ¬ c.Joins q.offset := fun h => hq (hjoins h rfl)
  cases c with
  | beginPath => exact .inl rfl
  | moveTo v => exact .inl (congrArg final (moveTo_flushed v q))
  | lineTo v =>
    right
    cases hadd : q.offset.add v with
    | ok u => exact absurd ⟨u, hadd⟩ hjoins
    | error fault =>
      change final (Pen.lineTo v q.flushed) = (final (Pen.lineTo v q)).flushed
      rw [lineTo_apply, lineTo_apply, flushed_offset, hadd]
      rfl
  | closePath => exact absurd trivial hjoins
  | polyline points closed =>
    cases points with
    | nil => exact .inr rfl
    | cons first rest => exact .inl (congrArg final (polyline_flushed first rest closed q))
  | rect x y w l => exact lifted_rect x y w l q
  | ellipse x y w l => exact .inl rfl
  | translate d =>
    right
    change final (Pen.translate d q.flushed) = (final (Pen.translate d q)).flushed
    rw [Pen.translate, bind_apply, bind_apply, located_apply, located_apply, flushed_offset]
    cases q.offset.add d <;> rfl
  | _ => cases hc

/-- What would draw on from where a pen is falls behind if the pen was taken up. -/
lemma behind_of_joins (hjoins : c.Joins q.offset) (hq : q.current ≠ []) :
    Behind (q.flushed.after c) (q.after c) := by
  cases c with
  | lineTo v =>
    obtain ⟨u, hu⟩ := hjoins
    have hup : q.flushed.after (.lineTo v) = { q.flushed with current := [] ++ [u] } := by
      change final (Pen.lineTo v q.flushed) = _
      rw [lineTo_apply, flushed_offset, hu]
      rfl
    have hdown : q.after (.lineTo v) = { q with current := q.current ++ [u] } := by
      change final (Pen.lineTo v q) = _
      rw [lineTo_apply, hu]
      rfl
    rw [hup, hdown]
    refine ⟨rfl, by simp, ?_⟩
    rw [drawn_concat q, if_neg hq, ← drawn_flushed q]
    exact Nat.lt_succ_of_le (drawn_concat q.flushed u).le
  | closePath =>
    have hup : q.flushed.after .closePath = q.flushed := closed_of_current (flushed_current q)
    have hdown : q.after .closePath = q.closed := rfl
    rw [hup, hdown]
    refine ⟨(closed_offset q).symm, fun _ => rfl, ?_⟩
    rw [drawn_closed, if_neg hq, drawn_flushed]
    exact Nat.lt_succ_self _
  | _ => exact hjoins.elim

lemma severed_cons_of_looks (hc : c.looks = true) :
    Severed p q (c :: cs) ↔ Severed p.flushed q cs := by
  constructor
  · rintro ⟨before, d, rest, hcs, hjoins, hp, hq, hrest⟩
    obtain _ | ⟨b, before⟩ := before
    · obtain ⟨rfl, rfl⟩ := List.cons.inj hcs
      exact absurd hjoins (Command.not_joins_of_looks hc)
    · obtain ⟨rfl, rfl⟩ := List.cons.inj hcs
      rw [unseen_cons_of_looks hc] at hjoins hq
      rw [afterAll_cons, after_of_looks p hc] at hp
      exact ⟨before, d, rest, rfl, hjoins, hp, hq, hrest⟩
  · rintro ⟨before, d, rest, rfl, hjoins, hp, hq, hrest⟩
    refine ⟨c :: before, d, rest, rfl, ?_, ?_, ?_, hrest⟩
    · rwa [unseen_cons_of_looks hc]
    · rwa [afterAll_cons, after_of_looks p hc]
    · rwa [unseen_cons_of_looks hc]

lemma severed_cons_of_builds (hc : c.builds = true) :
    Severed p q (c :: cs) ↔
      (c.Joins q.offset ∧ p.current = [] ∧ q.current ≠ [] ∧ .beginPath ∉ cs) ∨
        Severed (p.after c) (q.after c) cs := by
  constructor
  · rintro ⟨before, d, rest, hcs, hjoins, hp, hq, hrest⟩
    obtain _ | ⟨b, before⟩ := before
    · obtain ⟨rfl, rfl⟩ := List.cons.inj hcs
      exact .inl ⟨hjoins, hp, hq, hrest⟩
    · obtain ⟨rfl, rfl⟩ := List.cons.inj hcs
      rw [unseen_cons_of_builds hc] at hjoins hq
      exact .inr ⟨before, d, rest, rfl, hjoins, hp, hq, hrest⟩
  · rintro (⟨hjoins, hp, hq, hrest⟩ | ⟨before, d, rest, rfl, hjoins, hp, hq, hrest⟩)
    · exact ⟨[], c, cs, rfl, hjoins, hp, hq, hrest⟩
    · refine ⟨c :: before, d, rest, rfl, ?_, hp, ?_, hrest⟩
      · rwa [unseen_cons_of_builds hc]
      · rwa [unseen_cons_of_builds hc]

lemma not_severed_nil : ¬ Severed p q [] := by
  rintro ⟨before, c, rest, hnil, -⟩
  simp at hnil

/-- The path is the same with and without looks, or it is not: the first as long as no edge is lost, the
second from then on until the path is begun anew. -/
lemma path_afterAll (hcs : ∀ c ∈ cs, c.looks = true ∨ c.builds = true) :
    (Lifted p q →
      (outcome (path (p.afterAll cs)) = outcome (path (q.afterAll (unseen cs))) ↔
        ¬ Severed p q cs)) ∧
    (Behind p q →
      (outcome (path (p.afterAll cs)) = outcome (path (q.afterAll (unseen cs))) ↔
        .beginPath ∈ cs ∧ ¬ Severed p q cs)) := by
  induction cs generalizing p q with
  | nil =>
    refine ⟨fun h => iff_of_true ?_ not_severed_nil, fun h => iff_of_false h.path_ne (by simp)⟩
    obtain rfl | rfl := h <;> rfl
  | cons c cs ih =>
    obtain ⟨hc | hc, hcs⟩ := List.forall_mem_cons.1 hcs
    · obtain ⟨hlifted, hbehind⟩ := @ih p.flushed q hcs
      have hbegin : (.beginPath : Command α) ≠ c := by
        rintro rfl
        cases hc
      rw [afterAll_cons, after_of_looks p hc, unseen_cons_of_looks hc, severed_cons_of_looks hc,
        List.mem_cons, or_iff_right hbegin]
      refine ⟨fun h => hlifted ?_, fun h => hbehind ?_⟩
      · obtain rfl | rfl := h <;> exact .inr rfl
      · exact ⟨h.offset, fun _ => rfl, drawn_flushed p ▸ h.fewer⟩
    · obtain ⟨hlifted, hbehind⟩ := @ih (p.after c) (q.after c) hcs
      rw [afterAll_cons, unseen_cons_of_builds hc, afterAll_cons, severed_cons_of_builds hc,
        List.mem_cons]
      refine ⟨fun h => ?_, fun h => ?_⟩
      · by_cases hlost : c.Joins q.offset ∧ p.current = [] ∧ q.current ≠ []
        · obtain ⟨hjoins, hp, hq⟩ := hlost
          have hpq : p = q.flushed := h.resolve_left fun hpq => hq (hpq ▸ hp)
          rw [hbehind (hpq ▸ behind_of_joins hjoins hq)]
          tauto
        · rw [hlifted (h.after hc fun hjoins hp => by_contra fun hq => hlost ⟨hjoins, hp, hq⟩)]
          tauto
      · by_cases hbegin : c = .beginPath
        · subst hbegin
          have hsame : p.after .beginPath = q.after .beginPath := by
            change ({ p with finished := [], current := [] } : Pen α) =
              { q with finished := [], current := [] }
            rw [h.offset]
          rw [hlifted (.inl hsame)]
          simp [Command.Joins]
        · rw [hbehind (h.after hc hbegin), or_iff_right (Ne.symm hbegin)]
          tauto

end After

end Pen

namespace Studio

variable {Content Shared Saved : Type} [Medium Content Shared Saved]
  {s : Studio Content Shared Saved} {i : Nat} {x : Surface Content Saved}

/-- Whatever a look does to a surface, its pen is taken up and no more, also if the look fails. -/
lemma exists_after {base on : Nat} (hx : s.surfaces[base + on]? = some x) {c : Command Scalar}
    (hc : c.looks = true ∨ c.builds = true) :
    ∃ y, (final (perform base on c s)).surfaces[base + on]? = some y ∧ y.pen = x.pen.after c := by
  have hpen {build : Action (Pen Scalar) Unit} (h : c.onPen? = some build)
      (hafter : final (build x.pen) = x.pen.after c) :
      ∃ y, (final (perform base on c s)).surfaces[base + on]? = some y ∧ y.pen = x.pen.after c := by
    rw [final_onPen h hx]
    exact ⟨_, getElem?_put hx _, hafter⟩
  have hpath (paint : List (Subpath Scalar) → Action (Canvas Content Shared) Unit)
      (h : perform base on c = (onSurface (base + on) (Surface.onPen Pen.path) >>= fun path =>
        onCanvas (base + on) (paint path)))
      (hafter : x.pen.flushed = x.pen.after c) :
      ∃ y, (final (perform base on c s)).surfaces[base + on]? = some y ∧ y.pen = x.pen.after c := by
    rw [h, final_onPath hx]
    exact ⟨_, getElem?_putCanvas hx _ _, hafter⟩
  cases c with
  | fill color alpha => exact hpath (fun path => Medium.fill path color alpha) rfl rfl
  | stroke color dash => exact hpath (fun path => Medium.stroke path color dash) rfl rfl
  | clip => exact hpath Medium.clip rfl rfl
  | text | create | place | pushState | popState => obtain hc | hc := hc <;> cases hc
  | _ => exact hpen rfl rfl

/-- Commands that build a path or look at it leave the pen of their surface as they leave a pen of its
own. -/
lemma exists_afterAll (hx : s.surfaces[i]? = some x) {cs : List (Command Scalar)}
    (hcs : ∀ c ∈ cs, c.looks = true ∨ c.builds = true) :
    ∃ y, (carryOn (cs.map (Prod.mk i)) s).surfaces[i]? = some y ∧ y.pen = x.pen.afterAll cs := by
  induction cs generalizing s x with
  | nil => exact ⟨x, hx, rfl⟩
  | cons c cs ih =>
    obtain ⟨hc, hcs⟩ := List.forall_mem_cons.1 hcs
    rw [← Nat.zero_add i] at hx
    obtain ⟨y, hy, hpen⟩ := exists_after hx hc
    rw [Nat.zero_add] at hy
    obtain ⟨z, hz, hlast⟩ := ih hy hcs
    exact ⟨z, hz, by rw [hlast, hpen, Pen.afterAll_cons]⟩

/-- Of commands that build a path on a surface and look at it in between, those that look can be left
out without a change of the path at the end if and only if no edge is lost to them. -/
theorem path_unseen_iff (hx : s.surfaces[i]? = some x) (cs : List (Command Scalar))
    (hcs : ∀ c ∈ cs, c.looks = true ∨ c.builds = true) :
    ∃ y z, (carryOn (cs.map (Prod.mk i)) s).surfaces[i]? = some y ∧
      (carryOn ((unseen cs).map (Prod.mk i)) s).surfaces[i]? = some z ∧
      (outcome (Pen.path y.pen) = outcome (Pen.path z.pen) ↔ ¬ x.pen.Severed x.pen cs) := by
  have hunseen : ∀ c ∈ unseen cs, c.looks = true ∨ c.builds = true :=
    fun c hc => hcs c (List.mem_of_mem_filter hc)
  obtain ⟨y, hy, hpen⟩ := exists_afterAll hx hcs
  obtain ⟨z, hz, hplain⟩ := exists_afterAll hx hunseen
  refine ⟨y, z, hy, hz, ?_⟩
  rw [hpen, hplain]
  exact (Pen.path_afterAll hcs).1 (.inl rfl)

end Studio

namespace Pen

/-- A drawing with one empty surface. -/
def sheet : Studio Recording Unit Unit where
  shared := ()
  surfaces := [{ size := ⟨.whole 9, .whole 9⟩, content := ⟨[]⟩ }]
  metrics := { installed := .blocks [] }

/-- A box that is filled, and a line that is begun, looked at and begun anew. -/
def boxed : List (Command Scalar) :=
  [.rect (.whole 0) (.whole 0) (.whole 4) (.whole 4), .fill Color.black (.whole 1),
    .moveTo (corner 1 1), .readPath, .moveTo (corner 2 2), .lineTo (corner 3 3),
    .stroke Color.black [], .clip]

theorem path_unseen_boxed :
    sheet.surfaces[0]? = some { size := ⟨.whole 9, .whole 9⟩, content := ⟨[]⟩ } ∧
      (∀ c ∈ boxed, c.looks = true ∨ c.builds = true) ∧ ¬ initial.Severed initial boxed := by
  have hboxed : ∀ c ∈ boxed, c.looks = true ∨ c.builds = true := by
    simp [boxed, Command.looks, Command.builds, Command.onTrace?]
  obtain ⟨y, z, hy, hz, hiff⟩ := Studio.path_unseen_iff (s := sheet) (i := 0) rfl boxed hboxed
  cases hy
  cases hz
  exact ⟨rfl, hboxed, hiff.1 rfl⟩

/-- A line with a corner that is looked at before it is drawn to the end. -/
def bent : List (Command Scalar) :=
  [.moveTo (corner 0 0), .lineTo (corner 4 0), .readPath, .lineTo (corner 4 4)]

/-- The look at the corner costs the second edge. -/
theorem path_seen_bent :
    ∃ y z, (Studio.carryOn (bent.map (Prod.mk 0)) sheet).surfaces[0]? = some y ∧
      (Studio.carryOn ((unseen bent).map (Prod.mk 0)) sheet).surfaces[0]? = some z ∧
      outcome (path y.pen) = .ok [{ points := [corner 0 0, corner 4 0] }] ∧
      outcome (path z.pen) = .ok [{ points := [corner 0 0, corner 4 0, corner 4 4] }] ∧
      outcome (path y.pen) ≠ outcome (path z.pen) := by
  refine ⟨_, _, rfl, rfl, rfl, rfl, fun h => ?_⟩
  have hpoints := congrArg (List.map Subpath.points) (Except.ok.inj h)
  exact absurd (congrArg (List.map List.length) hpoints) (by decide)

end Pen

end UmlDrawing
