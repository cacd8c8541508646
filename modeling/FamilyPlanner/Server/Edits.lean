import FamilyPlanner.Foundation.Run
import FamilyPlanner.Server.Stream

/-!
# Playlist edits under a running stream

The loop served alone, one wake-up after the other.  A refresh tick replaces
the items under the cursor and does not announce the current view again; the
next auto-advance increments the cursor first and announces afterwards.  The
cursor is a position: it follows no view, and only an announcement that jumps to
a clock face moves it in between.
-/

namespace FamilyPlanner.Server

open FamilyPlanner.Foundation FamilyPlanner.Rotation

namespace Stream

variable (suspends : Int → Bool)

/-- One case of the `select` with no other caller in between. -/
def serve (w : Wake) (d : Device) : Device :=
  ((onWake suspends w).alone Device.exec d).2

def served : System Device Wake := ⟨fun d w => some (serve suspends w d)⟩

def sent (d : Device) : List Event := d.wire.map Prod.fst

def navigated : Event → Option Int
  | .navigate v => some v
  | _ => none

def lastNavigate (d : Device) : Option Int :=
  ((sent d).filterMap navigated).getLast?

def currentEvents (it : Item) (paused : Bool) : List Event :=
  [.navigate it.viewID,
    .dwell (if paused then 0 else
      seconds (if 0 < it.dwell then it.dwell else 30 * second))]

def Announced (d : Device) : Prop :=
  lastNavigate d = d.state.shown.map Item.viewID

instance (d : Device) : Decidable (Announced d) :=
  inferInstanceAs (Decidable (_ = _))

/-- Neither a user command nor another edit nor an advance. -/
def Quiet (l : List Item) : Wake → Prop
  | .refresh items => items = l
  | .cmd _ => True
  | .chime _ _ => True
  | _ => False

/-- An announcement goes to its clock face, unless frozen or already there. -/
def jump (s : State) : Wake → State
  | .chime true (some v) =>
      if s.paused ∨ s.shown.map Item.viewID = some v then s else s.goto v
  | _ => s

def jumps (s : State) (ws : List Wake) : State := ws.foldl jump s

variable {suspends}

/-! ## The undisturbed programs -/

theorem sends_alone (es : List Event) (rest : Program Unit) (d : Device) :
    (sends es rest).alone Device.exec d =
      rest.alone Device.exec
        { d with wire := d.wire ++ es.map (·, d.read.2) } := by
  induction es generalizing d with
  | nil => simp [sends]
  | cons e es ih =>
      simp only [sends, Prog.alone_call, Device.exec, ih, List.map_cons,
        List.append_assoc, List.singleton_append]

theorem displayDwell_alone {d : Device} (hd : d.state.InRange) :
    (displayDwell.alone Device.exec d).2 =
      { d with read := (d.state.shown, d.moves) } := by
  simp only [displayDwell, Prog.alone_call, Device.exec, hd.current_state,
    State.current_fst]
  cases d.state.shown <;> simp

theorem resetAdvance_alone {d : Device} (hd : d.state.InRange) :
    ∃ t, ((resetAdvance suspends).alone Device.exec d).2 =
      { d with read := (d.state.shown, d.moves), advance := t } := by
  simp only [resetAdvance, Prog.alone_bind, dwell, Prog.alone_call, Device.exec,
    hd.current_state, State.current_fst]
  cases hshown : d.state.shown with
  | none => exact ⟨_, rfl⟩
  | some it =>
      simp only
      split
      · exact ⟨_, rfl⟩
      · rw [displayDwell_alone (by exact hd)]
        simp only [hshown]
        exact ⟨_, rfl⟩

theorem sendCurrent_alone {d : Device} (hd : d.state.InRange) {it : Item}
    (hit : d.state.shown = some it) :
    (sendCurrent.alone Device.exec d).2 =
      { d with
        read := (some it, d.moves)
        wire := d.wire ++
          (currentEvents it d.state.paused).map (·, d.moves) } := by
  simp only [sendCurrent, Prog.alone_call, Device.exec, hd.current_state,
    State.current_fst, hit]
  by_cases hpaused : d.state.paused = true
  · simp [sends_alone, currentEvents, hpaused]
  · simp [sends_alone, displayDwell, Device.exec,
      hd.current_state, hit, currentEvents, hpaused]

theorem showCurrent_alone {d : Device} (hd : d.state.InRange) {it : Item}
    (hit : d.state.shown = some it) :
    let d' := ((showCurrent suspends).alone Device.exec d).2
    d'.state = d.state ∧
      sent d' = sent d ++ currentEvents it d.state.paused := by
  simp only [showCurrent, Prog.alone_bind, sendCurrent_alone hd hit]
  obtain ⟨t, ht⟩ := @resetAdvance_alone suspends
    { d with
      read := (some it, d.moves)
      wire := d.wire ++ (currentEvents it d.state.paused).map (·, d.moves) } hd
  rw [ht]
  refine ⟨rfl, ?_⟩
  simp [sent, Function.comp_def]

theorem lastNavigate_of_sent {d : Device} {es : List Event} {it : Item}
    {paused : Bool} (h : sent d = es ++ currentEvents it paused) :
    lastNavigate d = some it.viewID := by
  simp [lastNavigate, h, currentEvents, List.filterMap_cons, navigated]

/-! ## One wake-up -/

theorem serve_notify {d : Device} (hd : d.state.InRange) {it : Item}
    (hit : d.state.shown = some it) :
    (serve suspends .notify d).state = d.state ∧
      sent (serve suspends .notify d) =
        sent d ++ currentEvents it d.state.paused :=
  showCurrent_alone hd hit

theorem serve_advance {d : Device} (hgoing : d.state.paused = false) {it : Item}
    (hit : d.state.next.shown = some it) :
    (serve suspends .advance d).state = d.state.next ∧
      sent (serve suspends .advance d) = sent d ++ currentEvents it false := by
  have hserve : serve suspends .advance d =
      serve suspends .notify (d.move d.state.next) := by
    simp only [serve, onWake, Prog.alone_call, Device.exec, hgoing]
    rfl
  rw [hserve, ← hgoing]
  exact serve_notify (State.inRange_next _) hit

theorem serve_refresh (l : List Item) (d : Device) :
    (serve suspends (.refresh l) d).state = d.state.setItems l := by
  simp only [serve, onWake, Prog.alone_call, Device.exec, sends_alone]
  rfl

theorem showCurrent_state {d : Device} (hd : d.state.InRange) :
    ((showCurrent suspends).alone Device.exec d).2.state = d.state := by
  cases hshown : d.state.shown with
  | none =>
      obtain ⟨t, ht⟩ := @resetAdvance_alone suspends
        (sendCurrent.alone Device.exec d).2 (by
          simpa [sendCurrent, Device.exec, hd.current_state, hshown, sends_alone])
      rw [showCurrent, Prog.alone_bind, ht]
      simp [sendCurrent, Device.exec, hd.current_state, hshown, sends_alone]
  | some it => exact (showCurrent_alone hd hshown).1

theorem inRange_jump {s : State} (hs : s.InRange) (w : Wake) : (jump s w).InRange := by
  unfold jump
  split
  · split
    · exact hs
    · exact hs.goto _
  · exact hs

theorem jump_items (s : State) (w : Wake) : (jump s w).items = s.items := by
  unfold jump State.goto
  split
  · split
    · rfl
    · split <;> rfl
  · rfl

theorem jump_paused (s : State) (w : Wake) : (jump s w).paused = s.paused := by
  unfold jump
  split
  · split
    · rfl
    · exact State.goto_paused _ _
  · rfl

theorem serve_quiet {l : List Item} {d : Device} {w : Wake}
    (hd : d.state.InRange) (hl : l ≠ []) (hitems : d.state.items = l)
    (hw : Quiet l w) : (serve suspends w d).state = jump d.state w := by
  cases w with
  | notify => exact hw.elim
  | advance => exact hw.elim
  | cmd name => simp [serve, onWake, sends_alone, jump]
  | refresh items =>
      have hitems' : items = d.state.items := Eq.trans hw hitems.symm
      subst hitems'
      rw [serve_refresh]
      exact State.setItems_self (hd (hitems ▸ hl))
  | chime decided clock =>
      cases decided with
      | false => rfl
      | true =>
          simp only [serve, onWake, if_true, Prog.alone_call, Device.exec]
          by_cases hpaused : d.state.paused = true
          · cases clock <;> simp [hpaused, jump]
          · cases clock with
            | none => simp [hpaused, jump]
            | some vid =>
                simp only [hpaused, Bool.false_eq_true, if_false, Prog.alone_call,
                  Device.exec, hd.current_state, State.current_fst, jump, false_or]
                by_cases hshown : d.state.shown.map Item.viewID = some vid
                · simp only [hshown, if_true, Prog.alone_ret]
                · simp only [hshown, if_false, Prog.alone_call, Device.exec]
                  exact showCurrent_state (hd.goto vid)

theorem run_quiet {l : List Item} {d d' : Device} {ws : List Wake}
    (hd : d.state.InRange) (hl : l ≠ []) (hitems : d.state.items = l)
    (hquiet : ∀ w ∈ ws, Quiet l w)
    (hrun : (served suspends).run d ws = some d') : d'.state = jumps d.state ws := by
  induction ws generalizing d with
  | nil =>
      cases hrun
      rfl
  | cons w ws ih =>
      obtain ⟨e, hstep, hrest⟩ := System.run_cons_eq_some.mp hrun
      cases hstep
      have hw := @serve_quiet suspends _ _ _ hd hl hitems (hquiet w List.mem_cons_self)
      have hrestQuiet : ∀ w ∈ ws, Quiet l w :=
        fun w' hw' => hquiet w' (List.mem_cons_of_mem w hw')
      rw [ih (by rw [hw]; exact inRange_jump hd w)
        (by rw [hw, jump_items, hitems]) hrestQuiet hrest, hw, jumps, jumps,
        List.foldl_cons]

/-! ## The advance after an edit -/

def kept (k n : Nat) : Nat := if k < n then k else 0

theorem kept_setItems (s : State) {l : List Item} (hl : l ≠ []) :
    (s.setItems l).index = kept s.index l.length := by
  have hpos : 0 < l.length := List.length_pos_of_ne_nil hl
  by_cases hk : s.index < l.length
  · simp [State.setItems, kept, hk, Nat.not_le.mpr hk]
  · simp [State.setItems, kept, hk, Nat.not_lt.mp hk]

theorem jumps_invariant {I : State → Prop} (hjump : ∀ s w, I s → I (jump s w))
    {s : State} (hs : I s) (ws : List Wake) : I (jumps s ws) := by
  induction ws generalizing s with
  | nil => exact hs
  | cons w ws ih => exact ih (hjump s w hs)

theorem jumps_eq_self {s : State} {ws : List Wake}
    (h : ∀ v, .chime true (some v) ∈ ws → s.shown.map Item.viewID = some v) :
    jumps s ws = s := by
  induction ws with
  | nil => rfl
  | cons w ws ih =>
      have hrest : jumps s ws = s := ih fun v hv => h v (List.mem_cons_of_mem w hv)
      have hw : jump s w = s := by
        unfold jump
        split
        case h_1 v => rw [if_pos (Or.inr (h v List.mem_cons_self))]
        case h_2 => rfl
      rw [jumps, List.foldl_cons, hw]
      exact hrest

theorem shown_next {s : State} {l : List Item} (hitems : s.items = l) (hl : l ≠ []) :
    s.next.shown = l[(s.index + 1) % l.length]? := by
  have hpos : 0 < l.length := List.length_pos_of_ne_nil hl
  rw [State.InRange.shown_eq (State.inRange_next _) rfl]
  simp [State.next, hitems, hpos]

/--
The announced view is the one at the cursor, a refresh tick applies a
non-empty edited list, and quiet wake-ups follow.  The next auto-advance then
goes to the item of the edited list after the cursor: after its old position,
or after the one that announcements have jumped to since.
-/
theorem advance_after_edit {d d' : Device} {l : List Item} {ws : List Wake}
    (hd : d.state.InRange) (hannounced : Announced d)
    (hfree : d.state.override = 0) (hgoing : d.state.paused = false)
    (hitems : d.state.items ≠ []) (hl : l ≠ []) (hquiet : ∀ w ∈ ws, Quiet l w)
    (hrun : (served suspends).run (serve suspends (.refresh l) d) ws = some d') :
    ∃ shown next,
      d.state.items[d.state.index]? = some shown ∧
      lastNavigate d = some shown.viewID ∧
      l[((jumps (d.state.setItems l) ws).index + 1) % l.length]? = some next ∧
      sent (serve suspends .advance d') = sent d' ++ currentEvents next false ∧
      ((∀ v, .chime true (some v) ∈ ws →
          (d.state.setItems l).shown.map Item.viewID = some v) →
        (jumps (d.state.setItems l) ws).index = kept d.state.index l.length) := by
  have hpos : 0 < l.length := List.length_pos_of_ne_nil hl
  have hstate : d'.state = jumps (d.state.setItems l) ws := by
    rw [← @serve_refresh suspends]
    exact run_quiet (by rw [serve_refresh]; exact State.inRange_setItems _ _)
      hl (by rw [serve_refresh]; rfl) hquiet hrun
  have hedited : d'.state.items = l ∧ d'.state.paused = false := by
    rw [hstate]
    have hstart : (d.state.setItems l).items = l ∧ (d.state.setItems l).paused = false :=
      ⟨rfl, hgoing⟩
    refine jumps_invariant (I := fun s => s.items = l ∧ s.paused = false) ?_ hstart ws
    rintro s w ⟨hsitems, hspaused⟩
    exact ⟨(jump_items s w).trans hsitems, (jump_paused s w).trans hspaused⟩
  obtain ⟨shown, hshown⟩ : ∃ shown, d.state.items[d.state.index]? = some shown :=
    ⟨_, List.getElem?_eq_getElem (hd hitems)⟩
  obtain ⟨next, hnext⟩ :
      ∃ next, l[((jumps (d.state.setItems l) ws).index + 1) % l.length]? = some next :=
    ⟨_, List.getElem?_eq_getElem (Nat.mod_lt _ hpos)⟩
  refine ⟨shown, next, hshown, ?_, hnext, ?_, ?_⟩
  · rw [hannounced, hd.shown_eq hfree, hshown]
    rfl
  · have hit : d'.state.next.shown = some next := by
      rw [shown_next hedited.1 hl, hstate, hnext]
    exact (serve_advance hedited.2 hit).2
  · intro hstays
    rw [jumps_eq_self hstays, kept_setItems _ hl]

private def minutes (views : List Int) : List Item :=
  views.map fun v => ⟨v, 60 * second⟩

/-- At the quarter the announcement jumps to the clock at the front. -/
theorem advance_after_append :
    let d : Device :=
      { state := ⟨minutes [1, 2, 3], 1, false, 0⟩, wire := [(.navigate 2, 0)] }
    let l := minutes [1, 2, 3, 4]
    let d' := serve (fun _ => false) (.chime true (some 1))
      (serve (fun _ => false) (.refresh l) d)
    ∃ shown next,
      d.state.items[d.state.index]? = some shown ∧
      lastNavigate d = some shown.viewID ∧
      l[((jumps (d.state.setItems l) [.chime true (some 1)]).index + 1) % l.length]? =
        some next ∧
      sent (serve (fun _ => false) .advance d') = sent d' ++ currentEvents next false ∧
      ((∀ v, .chime true (some v) ∈ [Wake.chime true (some 1)] →
          (d.state.setItems l).shown.map Item.viewID = some v) →
        (jumps (d.state.setItems l) [.chime true (some 1)]).index =
          kept d.state.index l.length) :=
  advance_after_edit (by decide) (by decide) rfl rfl (by decide) (by decide)
    (by simp [Quiet]) rfl

/-- A view inserted before the shown one makes the advance show it again. -/
theorem insertion_repeats_the_shown_view :
    ∃ (d : Device) (l : List Item) (v : Int) (p : Nat),
      d.state.InRange ∧ Announced d ∧ d.state.override = 0 ∧
      d.state.paused = false ∧ lastNavigate d = some v ∧
      (∀ i it, l[i]? = some it → (it.viewID = v ↔ i = p)) ∧
      lastNavigate (serve (fun _ => false) .advance
          (serve (fun _ => false) (.refresh l) d)) ≠
        l[(p + 1) % l.length]?.map Item.viewID := by
  refine ⟨{ state := ⟨minutes [1, 2, 3], 1, false, 0⟩,
            wire := [(.navigate 2, 0)] },
    minutes [9, 1, 2, 3], 2, 2, by decide, by decide, rfl, rfl, by decide, ?_, by decide⟩
  intro i it hit
  match i, hit with
  | 0, hit => cases hit; decide
  | 1, hit => cases hit; decide
  | 2, hit => cases hit; decide
  | 3, hit => cases hit; decide

end Stream

end FamilyPlanner.Server
