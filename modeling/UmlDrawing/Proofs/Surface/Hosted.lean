import UmlDrawing.Proofs.Surface.Sketch
import UmlDrawing.Proofs.Surface.Studio

/-! A drawing inside a larger one. A studio hosts another if its last surfaces are those of the
other, up to states that were pushed below all others on the first of them, and both have the same
metrics. Commands that are counted from the first hosted surface then do the same in both, and leave
the surfaces before it alone. -/
open UmlDrawing.Action

namespace UmlDrawing

variable {Content Shared Saved β : Type}

namespace Surface

/-- The first hosted surface with some states below those of its own. -/
def raise (extra : List (Vec Scalar × Saved)) (number : Nat) (x : Surface Content Saved) :
    Surface Content Saved :=
  if number = 0 then { x with stack := x.stack ++ extra } else x

section Raise

variable (extra : List (Vec Scalar × Saved)) (number : Nat) (x : Surface Content Saved)

@[simp] lemma raise_size : (raise extra number x).size = x.size := by
  unfold raise
  split <;> rfl

@[simp] lemma raise_pen : (raise extra number x).pen = x.pen := by
  unfold raise
  split <;> rfl

@[simp] lemma raise_content : (raise extra number x).content = x.content := by
  unfold raise
  split <;> rfl

lemma raise_setPen (pen : Pen Scalar) :
    { raise extra number x with pen := pen } = raise extra number { x with pen := pen } := by
  unfold raise
  split <;> rfl

lemma raise_setContent (content : Content) :
    { raise extra number x with content := content } =
      raise extra number { x with content := content } := by
  unfold raise
  split <;> rfl

lemma raise_nil : raise [] number x = x := by
  unfold raise
  split
  · rw [List.append_nil]
  · rfl

end Raise

variable [Medium Content Shared Saved]

lemma pushState_raise (extra : List (Vec Scalar × Saved)) (number : Nat)
    (x : Surface Content Saved) :
    pushState (raise extra number x) = raise extra number (pushState x) := by
  unfold raise
  split <;> rfl

lemma length_popState_ge (x : Surface Content Saved) :
    x.stack.length - 1 ≤ (popState x).stack.length := by
  unfold popState
  split
  · next h => rw [h]; exact Nat.zero_le _
  · next h => rw [h]; exact Nat.le_refl _

/-- States of its own are popped before those below. -/
lemma popState_raise {extra : List (Vec Scalar × Saved)} {number : Nat}
    {x : Surface Content Saved} (h : extra = [] ∨ number ≠ 0 ∨ 0 < x.stack.length) :
    popState (raise extra number x) = raise extra number (popState x) := by
  obtain rfl | hnumber | hstack := h
  · rw [raise_nil, raise_nil]
  · simp only [raise, if_neg hnumber]
  · by_cases hnumber : number = 0
    · obtain ⟨size, pen, stack, content⟩ := x
      cases stack with
      | nil => cases hstack
      | cons entry rest =>
        simp only [raise, if_pos hnumber, popState, List.cons_append]
    · simp only [raise, if_neg hnumber]

end Surface

namespace Studio

/-- The surfaces of `t` are the last ones of `s`, after some others. At least `depth` states were
pushed on the first of them in `t`, if there are more below them in `s`. -/
structure Hosts (before : List (Surface Content Saved)) (extra : List (Vec Scalar × Saved))
    (depth : Nat) (s t : Studio Content Shared Saved) : Prop where
  shared : s.shared = t.shared
  surfaces : s.surfaces = before ++ t.surfaces.mapIdx (Surface.raise extra)
  metrics : s.metrics = t.metrics
  first : ∃ x, t.surfaces[0]? = some x ∧ (extra = [] ∨ depth ≤ x.stack.length)

variable {before : List (Surface Content Saved)} {extra : List (Vec Scalar × Saved)}
  {depth depth' : Nat} {s t : Studio Content Shared Saved}

namespace Hosts

lemma getElem? (h : Hosts before extra depth s t) (i : Nat) :
    s.surfaces[before.length + i]? = t.surfaces[i]?.map (Surface.raise extra i) := by
  rw [h.surfaces, List.getElem?_append_right (Nat.le_add_right _ _), Nat.add_sub_cancel_left,
    List.getElem?_mapIdx]

/-- Fewer states of its own are pushed at least. -/
lemma weaken (h : Hosts before extra depth s t) (hle : depth' ≤ depth) :
    Hosts before extra depth' s t := by
  obtain ⟨x, hx, hdepth⟩ := h.first
  exact ⟨h.shared, h.surfaces, h.metrics, x, hx, hdepth.imp_right fun h => Nat.le_trans hle h⟩

/-- A change of one surface in both studios. -/
lemma update {i : Nat} {x y : Surface Content Saved} {shared shared' : Shared}
    (h : Hosts before extra depth s t) (hshared : shared = shared')
    (hx : t.surfaces[i]? = some x)
    (hfirst : i = 0 → depth ≤ x.stack.length → depth' ≤ y.stack.length)
    (hother : i ≠ 0 → depth' ≤ depth) :
    Hosts before extra depth'
      { s with
        shared := shared
        surfaces := s.surfaces.set (before.length + i) (Surface.raise extra i y) }
      { t with shared := shared', surfaces := t.surfaces.set i y } where
  shared := hshared
  surfaces := by
    simp only [h.surfaces]
    rw [List.set_append_right _ _ (Nat.le_add_right _ _), Nat.add_sub_cancel_left, List.mapIdx_set]
  metrics := h.metrics
  first := by
    obtain ⟨z, hz, hdepth⟩ := h.first
    by_cases hi : i = 0
    · subst hi
      rw [hx] at hz
      cases hz
      obtain ⟨hlt, -⟩ := List.getElem?_eq_some_iff.1 hx
      exact ⟨y, List.getElem?_set_self hlt, hdepth.imp_right (hfirst rfl)⟩
    · refine ⟨z, ?_, hdepth.imp_right fun hle => Nat.le_trans (hother hi) hle⟩
      rw [List.getElem?_set_ne hi]
      exact hz

end Hosts

section Steps

variable {i : Nat}

/-- An action on a hosted surface that does not see the states below its own. -/
lemma onSurface_alike {action : Action (Surface Content Saved) β}
    (h : Hosts before extra depth s t)
    (haction : ∀ x, t.surfaces[i]? = some x →
      Alike (fun a b => a = Surface.raise extra i b ∧
        (i = 0 → depth ≤ x.stack.length → depth' ≤ b.stack.length))
        (action (Surface.raise extra i x)) (action x))
    (hother : i ≠ 0 → depth' ≤ depth) :
    Alike (Hosts before extra depth') (onSurface (before.length + i) action s)
      (onSurface i action t) := by
  rw [onSurface_apply, onSurface_apply, h.getElem?]
  cases hx : t.surfaces[i]? with
  | none =>
    obtain ⟨z, hz, hdepth⟩ := h.first
    have hi : i ≠ 0 := by
      rintro rfl
      rw [hx] at hz
      cases hz
    refine .error _ ⟨h.shared, h.surfaces, h.metrics, z, hz, ?_⟩
    exact hdepth.imp_right fun hle => Nat.le_trans (hother hi) hle
  | some x =>
    have hresult := haction x hx
    simp only [Option.map_some]
    generalize action (Surface.raise extra i x) = u at hresult
    generalize action x = v at hresult
    cases hresult with
    | ok b hy =>
      obtain ⟨rfl, hfirst⟩ := hy
      exact .ok b (h.update h.shared hx hfirst hother)
    | error fault hy =>
      obtain ⟨rfl, hfirst⟩ := hy
      exact .error fault (h.update h.shared hx hfirst hother)

/-- The medium does not see the stack of states. -/
lemma onCanvas_alike (action : Action (Canvas Content Shared) Unit)
    (h : Hosts before extra depth s t) :
    Alike (Hosts before extra depth) (onCanvas (before.length + i) action s)
      (onCanvas i action t) := by
  rw [onCanvas_apply, onCanvas_apply, h.getElem?]
  cases hx : t.surfaces[i]? with
  | none => exact .error _ h
  | some x =>
    simp only [Option.map_some, Surface.raise_content, h.shared, Surface.raise_setContent]
    cases action (t.shared, x.content) with
    | ok b canvas => exact .ok () (h.update rfl hx (fun _ hle => hle) fun _ => Nat.le_refl _)
    | error fault canvas =>
      exact .error fault (h.update rfl hx (fun _ hle => hle) fun _ => Nat.le_refl _)

/-- Path building does not see the stack of states. -/
lemma onPen_alike (action : Action (Pen Scalar) β) (h : Hosts before extra depth s t) :
    Alike (Hosts before extra depth) (onSurface (before.length + i) (Surface.onPen action) s)
      (onSurface i (Surface.onPen action) t) := by
  refine onSurface_alike h ?_ fun _ => Nat.le_refl _
  intro x _
  simp only [Surface.onPen, Surface.raise_pen]
  cases action x.pen with
  | ok b pen => exact .ok b ⟨Surface.raise_setPen extra i x pen, fun _ hle => hle⟩
  | error fault pen => exact .error fault ⟨Surface.raise_setPen extra i x pen, fun _ hle => hle⟩

/-- A path command followed by one of the medium. -/
lemma pathThen_alike (action : List (Subpath Scalar) → Action (Canvas Content Shared) Unit)
    (h : Hosts before extra depth s t) :
    Alike (Hosts before extra depth)
      ((do
        let path ← onSurface (before.length + i) (Surface.onPen Pen.path)
        onCanvas (before.length + i) (action path)) s)
      ((do
        let path ← onSurface i (Surface.onPen Pen.path)
        onCanvas i (action path)) t) :=
  (onPen_alike Pen.path h).bind (fun _ _ _ h => onCanvas_alike _ h) fun _ _ h => h

lemma ask_alike (question : Metrics → Except Fault β × Metrics)
    (h : Hosts before extra depth s t) :
    Alike (Hosts before extra depth) (ask question s) (ask question t) := by
  simp only [ask, h.metrics]
  cases (question t.metrics).1 with
  | ok b => exact .ok b ⟨h.shared, h.surfaces, rfl, h.first⟩
  | error fault => exact .error fault ⟨h.shared, h.surfaces, rfl, h.first⟩

variable [Medium Content Shared Saved]

lemma create_alike (size : Vec Scalar) (h : Hosts before extra depth s t) :
    Alike (Hosts before extra depth) (create size s) (create size t) := by
  rw [create_apply, create_apply, h.shared]
  cases (Medium.create size t.shared : Except Fault (Canvas Content Shared)) with
  | error fault => exact .error fault h
  | ok canvas =>
    obtain ⟨z, hz, hdepth⟩ := h.first
    obtain ⟨hlt, -⟩ := List.getElem?_eq_some_iff.1 hz
    refine .ok () ⟨rfl, ?_, h.metrics, z, ?_, hdepth⟩
    · have hfresh : Surface.raise extra t.surfaces.length
          ({ size := size, content := canvas.2 } : Surface Content Saved) =
          { size := size, content := canvas.2 } := by
        rw [Surface.raise, if_neg (Nat.pos_iff_ne_zero.1 hlt)]
      simp only [h.surfaces, List.append_assoc, List.mapIdx_concat, hfresh]
    · simp only [List.getElem?_append_left hlt, hz]

/-- A command does the same to the surfaces of a studio and to those of one that hosts it. -/
theorem perform_alike (on : Nat) (c : Command Scalar) (h : Hosts before extra depth s t)
    (hpops : extra = [] ∨ c.PopsOwn on depth) :
    Alike (Hosts before extra (c.depthAfter on depth)) (perform before.length on c s)
      (perform 0 on c t) := by
  cases c
  case pushState =>
    simp only [perform, Command.onPen?, Nat.zero_add]
    refine onSurface_alike h ?_ ?_
    · intro x _
      refine .ok () ⟨Surface.pushState_raise extra on x, ?_⟩
      intro hon hle
      simp only [Command.depthAfter, if_pos hon, Surface.pushState, List.length_cons]
      omega
    · intro hon
      simp only [Command.depthAfter, if_neg hon, Nat.le_refl]
  case popState =>
    simp only [perform, Command.onPen?, Nat.zero_add]
    refine onSurface_alike h ?_ ?_
    · intro x hx
      -- a state is popped that was pushed on this surface itself, not one below
      have hown : extra = [] ∨ on ≠ 0 ∨ 0 < x.stack.length := by
        obtain hnil | hpops := hpops
        · exact .inl hnil
        · by_cases hon : on = 0
          · subst hon
            obtain ⟨z, hz, hnil | hle⟩ := h.first
            · exact .inl hnil
            · rw [hx] at hz
              cases hz
              exact .inr (.inr (Nat.lt_of_lt_of_le (hpops rfl) hle))
          · exact .inr (.inl hon)
      refine .ok () ⟨Surface.popState_raise hown, ?_⟩
      intro hon hle
      simp only [Command.depthAfter, if_pos hon]
      exact Nat.le_trans (Nat.sub_le_sub_right hle 1) (Surface.length_popState_ge x)
    · intro hon
      simp only [Command.depthAfter, if_neg hon, Nat.le_refl]
  case fill color alpha =>
    simp only [perform, Command.onPen?, Nat.zero_add]
    exact pathThen_alike _ h
  case stroke color dash =>
    simp only [perform, Command.onPen?, Nat.zero_add]
    exact pathThen_alike _ h
  case clip =>
    simp only [perform, Command.onPen?, Nat.zero_add]
    exact pathThen_alike _ h
  case text text position font color =>
    rw [perform_text_apply, perform_text_apply, Nat.zero_add, h.getElem?, h.metrics]
    cases t.surfaces[on]? with
    | none => exact .error _ h
    | some x =>
      simp only [Option.map_some, Surface.raise_pen]
      exact onCanvas_alike _ ⟨h.shared, h.surfaces, rfl, h.first⟩
  case create w height =>
    rw [perform_create_apply, perform_create_apply, Nat.zero_add, h.getElem?]
    cases t.surfaces[on]? with
    | none => exact .error _ h
    | some x => exact create_alike _ h
  case place number position =>
    rw [perform_place_apply, perform_place_apply, Nat.zero_add, Nat.zero_add, h.getElem?,
      h.getElem?]
    cases t.surfaces[on]? with
    | none => exact .error _ h
    | some x =>
      cases t.surfaces[number]? with
      | none => exact .error _ h
      | some y =>
        simp only [Option.map_some, Surface.raise_pen, Surface.raise_size, Surface.raise_content]
        cases x.pen.offset.add position with
        | error fault => exact .error _ h
        | ok corner => exact onCanvas_alike _ h
  all_goals
    simp only [perform, Command.onPen?, Nat.zero_add]
    exact onPen_alike _ h

/-- A sketch does the same to the surfaces of a studio and to those of one that hosts it, if it
leaves the states below alone. -/
theorem play_alike (sketch : Sketch Scalar β) (h : Hosts before extra depth s t)
    (hpops : extra = [] ∨ sketch.PopsOwn depth) :
    Alike (Hosts before extra 0) (sketch.play before.length s) (sketch.play 0 t) := by
  induction sketch generalizing s t depth with
  | done b => exact .ok b (h.weaken (Nat.zero_le _))
  | fail fault => exact .error fault (h.weaken (Nat.zero_le _))
  | note n next ih =>
    rw [Sketch.play, Sketch.play]
    exact ih ⟨h.shared, h.surfaces, h.metrics, h.first⟩ hpops
  | command on c next ih =>
    have hstep := perform_alike on c h (hpops.imp_right And.left)
    rw [play_command, play_command, hstep.outcome]
    exact ih _ hstep.final (hpops.imp_right fun h => h.2 _)
  | askWidth text font next ih =>
    have hstep : Alike (Hosts before extra depth) (width text font s) (width text font t) :=
      ask_alike (fun m => m.width text font) h
    rw [play_askWidth, play_askWidth, hstep.outcome]
    exact ih _ hstep.final (hpops.imp_right fun h => h _)
  | askHeight font next ih =>
    have hstep : Alike (Hosts before extra depth) (height font s) (height font t) :=
      ask_alike (fun m => m.height font) h
    rw [play_askHeight, play_askHeight, hstep.outcome]
    exact ih _ hstep.final (hpops.imp_right fun h => h _)

/-- An action between pushing and popping the state of the first surface. -/
lemma saved_alike {action : Action (Studio Content Shared Saved) β}
    {action' : Action (Studio Content Shared Saved) β} (h : Hosts before [] 0 s t)
    (haction : ∀ s t, Hosts before [] 0 s t →
      Alike (Hosts before [] 0) (action s) (action' t)) :
    Alike (Hosts before [] 0) (saved before.length action s) (saved 0 action' t) := by
  refine saved_alike_of h (fun s t h => ?_) (fun s t h => ?_) haction
  · refine onSurface_alike (i := 0) h (fun x _ => ?_) fun _ => Nat.le_refl _
    exact .ok () ⟨Surface.pushState_raise [] 0 x, fun _ _ => Nat.zero_le _⟩
  · refine onSurface_alike (i := 0) h (fun x _ => ?_) fun _ => Nat.le_refl _
    exact .ok () ⟨Surface.popState_raise (.inl rfl), fun _ _ => Nat.zero_le _⟩

end Steps

end Studio

end UmlDrawing
