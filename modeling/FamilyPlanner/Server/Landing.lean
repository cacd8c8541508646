import FamilyPlanner.Server.Callers

/-!
# Where a goto lands

`Manager.Goto` moves the cursor and pauses in two critical sections.  The loop
tests the pause flag in a third one and moves in a fourth, so a goto is undone
by an advance or a chime that is under way when the device is paused.
-/

namespace FamilyPlanner.Server

open FamilyPlanner.Foundation FamilyPlanner.Rotation

namespace Callers

def shownView (s : Callers) : Option Int := s.device.state.shown.map Item.viewID

/-- No further request is made, and a refresh tick keeps the shown item. -/
def Undisturbed (s : Callers) : Act → Prop
  | .press _ => False
  | .loop => ∀ l next, s.loop = .call (.setItems l) next →
      (s.device.state.setItems l).shown = s.device.state.shown
  | _ => True

def Pausing (i : Nat) (s : Callers) : Prop :=
  ∃ next, s.calls[i]? = some (.call (.setPaused true) next)

/--
While the request is about to pause, the loop does not leave the view, and when
it pauses, the loop is not between a test of the flag and the move it guards.
-/
def Unhurried (i : Nat) (s : Callers) : Act → Prop
  | .loop => s.Pausing i → ∀ o next, s.loop = .call o next →
      (Device.exec o s.device).2.state.shown.map Item.viewID = s.shownView
  | .call _ => s.Pausing i → s.loop.Only Stream.Steady Stream.PausedRead
  | _ => True

inductive Phase (v : Int) (s : Callers) : Program Bool → Prop
  | moving : Phase v s (Manager.command (.goto v))
  | pausing (hshown : s.shownView = some v) :
      Phase v s (.call (.setPaused true) fun _ => .call .signal fun _ => .ret true)
  | landed {p : Program Bool} (hshown : s.shownView = some v)
      (hpaused : s.device.state.paused = true)
      (hsteady : s.loop.Only Stream.Steady Stream.PausedRead)
      (hrest : p = .call .signal (fun _ => .ret true) ∨ p = .ret true) :
      Phase v s p

structure Landing (i : Nat) (v : Int) (s : Callers) : Prop where
  inRange : s.device.state.InRange
  others : ∀ j p, j ≠ i → s.calls[j]? = some p → ∃ b, p = .ret b
  phase : ∃ p, s.calls[i]? = some p ∧ Phase v s p

variable {suspends : Int → Bool} {s s' : Callers} {i : Nat} {v : Int}

theorem shown_goto (st : State) (hv : v ≠ 0) :
    (st.goto v).shown.map Item.viewID = some v := by
  unfold State.goto
  split
  · rename_i k hk
    obtain ⟨hlt, hfound, -⟩ := List.findIdx?_eq_some_iff_getElem.mp hk
    have hrange : State.InRange { st with index := k, override := 0 } := fun _ => hlt
    rw [hrange.shown_eq rfl]
    simpa [hlt] using hfound
  · simp [State.shown, State.current, hv]

theorem Phase.of_state {p : Program Bool} (h : Phase v s p)
    (hstate : s'.device.state = s.device.state)
    (hsteady : s'.loop.Only Stream.Steady Stream.PausedRead) : Phase v s' p := by
  have hview : s'.shownView = s.shownView := by rw [shownView, hstate, shownView]
  cases h with
  | moving => exact .moving
  | pausing hshown => exact .pausing (hview.trans hshown)
  | landed hshown hpaused _ hrest =>
      exact .landed (hview.trans hshown) (hstate ▸ hpaused) hsteady hrest

theorem Landing.wake {w : Wake} (hs : s.Landing i v)
    (h : (acts suspends).step s (.wake w) = some s') : s'.Landing i v := by
  obtain ⟨p, hp, hphase⟩ := hs.phase
  obtain ⟨-, ⟨-, rfl⟩ | ⟨-, rfl⟩⟩ := wake_cases h
  · exact ⟨hs.inRange, hs.others, p, hp,
      hphase.of_state rfl (Stream.onWake_steady w)⟩
  · exact ⟨hs.inRange, hs.others, p, hp,
      hphase.of_state rfl (Stream.onWake_steady w)⟩

theorem Landing.loop (hs : s.Landing i v) (hloop : s.Undisturbed .loop)
    (hclear : s.Unhurried i .loop)
    (h : (acts suspends).step s .loop = some s') : s'.Landing i v := by
  obtain ⟨p, hp, hphase⟩ := hs.phase
  obtain ⟨o, next, hcall, rfl⟩ := loop_cases h
  refine ⟨Device.exec_inRange o hs.inRange, hs.others, p, hp, ?_⟩
  cases hphase with
  | moving => exact .moving
  | pausing hshown =>
      apply Phase.pausing
      exact (hclear ⟨_, hp⟩ o next hcall).trans hshown
  | landed hshown hpaused hsteady hrest =>
      rw [hcall] at hsteady
      obtain ⟨hpaused', hsteady', hshown'⟩ :=
        Stream.steady_exec hs.inRange hpaused hsteady
          (by rintro l rfl; exact hloop l next hcall)
      refine .landed ?_ hpaused' hsteady' hrest
      rw [shownView, hshown']
      exact hshown

theorem Landing.call {j : Nat} (hv : v ≠ 0) (hs : s.Landing i v)
    (hclear : s.Unhurried i (.call j))
    (h : (acts suspends).step s (.call j) = some s') : s'.Landing i v := by
  obtain ⟨p, hp, hphase⟩ := hs.phase
  obtain ⟨o, next, hcall, rfl⟩ := call_cases h
  have hj : j = i := by
    by_contra hne
    obtain ⟨b, hb⟩ := hs.others j _ hne hcall
    cases hb
  subst hj
  cases hcall.symm.trans hp
  have hlt : j < s.calls.length := (List.getElem?_eq_some_iff.mp hp).1
  refine ⟨Device.exec_inRange o hs.inRange, ?_, ?_⟩
  · intro k q hk hq
    rw [List.getElem?_set_ne hk.symm] at hq
    exact hs.others k q hk hq
  · refine ⟨_, List.getElem?_set_self hlt, ?_⟩
    cases hphase with
    | moving => exact .pausing (shown_goto s.device.state hv)
    | pausing hshown =>
        refine .landed ?_ rfl (hclear ⟨_, hp⟩) (.inl rfl)
        exact (congrArg _ (State.shown_setPaused _ _)).trans hshown
    | landed hshown hpaused hsteady hrest =>
        rcases hrest with hrest | hrest
        · cases hrest
          exact .landed hshown hpaused hsteady (.inr rfl)
        · cases hrest

theorem Landing.step {a : Act} (hv : v ≠ 0) (hs : s.Landing i v)
    (ha : s.Undisturbed a ∧ s.Unhurried i a)
    (h : (acts suspends).step s a = some s') : s'.Landing i v := by
  cases a with
  | wake w => exact hs.wake h
  | loop => exact hs.loop ha.1 ha.2 h
  | press c => exact ha.1.elim
  | call j => exact hs.call hv ha.2 h

/--
A goto made when all earlier requests have returned lands on its view and stays
there, unless an advance or a chime is under way while it pauses.
-/
theorem goto_lands {items : List Item} {before after : List Act} {t : Callers}
    (hv : v ≠ 0)
    (hreach : (acts suspends).run (start suspends items) before = some s)
    (hreturned : ∀ p ∈ s.calls, ∃ b, p = .ret b)
    (hpress : (acts suspends).step s (.press (.goto v)) = some s')
    (hafter : (acts suspends).Along
      (fun u a => u.Undisturbed a ∧ u.Unhurried s.calls.length a) s' after)
    (hrun : (acts suspends).run s' after = some t)
    (hdone : t.calls[s.calls.length]? = some (.ret true)) :
    t.shownView = some v ∧ t.device.state.paused = true := by
  have hrange : s.device.state.InRange :=
    System.run_invariant (I := fun u : Callers => u.device.state.InRange)
      (fun _ _ _ hu hstep => inRange_step hu hstep) (State.inRange_new items) hreach
  have hstart : s'.Landing s.calls.length v := by
    cases hpress
    refine ⟨hrange, ?_, Manager.command (.goto v), by simp, .moving⟩
    intro j p hj hp
    rw [List.getElem?_append] at hp
    split at hp
    · exact hreturned p (List.mem_of_getElem? hp)
    · rw [List.getElem?_singleton, if_neg (by omega)] at hp
      contradiction
  have ht := System.run_invariant_along
    (fun _ _ _ hu ha hstep => Landing.step hv hu ha hstep) hstart hafter hrun
  obtain ⟨p, hp, hphase⟩ := ht.phase
  cases hp.symm.trans hdone
  cases hphase with
  | landed hshown hpaused _ _ => exact ⟨hshown, hpaused⟩

private def idle : List Act := List.replicate 12 .loop

private def both : List Item := [⟨1, 60 * second⟩, ⟨2, 60 * second⟩]

theorem goto_lands_on_parked_view :
    ∃ s s' t, (acts fun _ => false).run (start (fun _ => false) both) idle = some s ∧
      (acts fun _ => false).step s (.press (.goto 9)) = some s' ∧
      (acts fun _ => false).run s' [.call 0, .call 0, .call 0, .wake .advance] =
        some t ∧
      t.shownView = some 9 ∧ t.device.state.paused = true := by
  obtain ⟨s, hreach⟩ : ∃ s,
      (acts fun _ => false).run (start (fun _ => false) both) idle = some s := ⟨_, rfl⟩
  obtain ⟨s', hpress⟩ : ∃ s',
      (acts fun _ => false).step s (.press (.goto 9)) = some s' := ⟨_, rfl⟩
  obtain ⟨t, hrun⟩ : ∃ t,
      (acts fun _ => false).run s' [.call 0, .call 0, .call 0, .wake .advance] =
        some t := by
    cases hreach
    cases hpress
    exact ⟨_, rfl⟩
  refine ⟨s, s', t, hreach, hpress, hrun,
    goto_lands (by decide) hreach ?_ hpress ?_ hrun ?_⟩
  · cases hreach
    intro p hp
    cases hp
  · cases hreach
    cases hpress
    refine ⟨⟨trivial, fun _ => trivial⟩, ?_⟩
    rintro _ ⟨⟩
    refine ⟨⟨trivial, fun _ => trivial⟩, ?_⟩
    rintro _ ⟨⟩
    refine ⟨⟨trivial, fun _ => trivial⟩, ?_⟩
    rintro _ ⟨⟩
    exact ⟨⟨trivial, trivial⟩, fun _ _ => System.along_nil _ _⟩
  · cases hreach
    cases hpress
    cases hrun
    rfl

/-- An advance that has tested the flag before the pause leaves the view. -/
theorem advance_undoes_goto :
    ∃ s t, (acts fun _ => false).run (start (fun _ => false) both)
        (idle ++ [.wake .advance, .loop]) = some s ∧
      (acts fun _ => false).run s
        [.press (.goto 1), .call 0, .call 0, .loop, .call 0] = some t ∧
      t.calls[0]? = some (.ret true) ∧ t.shownView ≠ some 1 :=
  ⟨_, _, rfl, rfl, rfl, by decide⟩

end Callers

end FamilyPlanner.Server
