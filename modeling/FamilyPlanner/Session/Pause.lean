import FamilyPlanner.Session.Session

/-!
# A paused device

The pause flag is only tested by the loop, and the cursor is moved later, in
another critical section; an end report moves the cursor without any test.
Between these, a paused device stays where it is.
-/

namespace FamilyPlanner

open FamilyPlanner.Foundation FamilyPlanner.Rotation FamilyPlanner.Server
open FamilyPlanner.Kiosk

namespace Session

/--
No request, of a user or an end report, moves the cursor or resumes, and a
refresh tick keeps the shown item.
-/
def Undisturbed (s : Session) : Act → Prop
  | .call i => ∀ o, s.callOp i = some o → ¬ o.Moves ∧ o ≠ .setPaused false
  | .loop => ∀ l, nextOp s.loop = some (.setItems l) →
      (s.device.state.setItems l).shown = s.device.state.shown
  | _ => True

instance (s : Session) (a : Act) : Decidable (s.Undisturbed a) :=
  match a with
  | .call i =>
      match hop : s.callOp i with
      | none => .isTrue (by simp [Undisturbed, hop])
      | some o =>
          decidable_of_iff (¬ o.Moves ∧ o ≠ .setPaused false)
            (by simp [Undisturbed, hop])
  | .loop =>
      match hop : nextOp s.loop with
      | some (.setItems l) =>
          decidable_of_iff ((s.device.state.setItems l).shown = s.device.state.shown)
            (by simp [Undisturbed, hop])
      | none | some .current | some .isPaused | some .next | some .prev
      | some (.goto _) | some (.setPaused _) | some .signal | some (.send _)
      | some (.reset _) => .isTrue (by simp [Undisturbed, hop])
  | .wake _ | .press _ | .deliver | .input _ => .isTrue trivial

/-- The loop is not between a test that found the device unpaused and the move
that the test guards. -/
def LoopSteady (s : Session) : Prop :=
  s.loop.Only Stream.Steady Stream.PausedRead

structure Held (shown : Option Item) (s : Session) : Prop where
  inRange : s.device.state.InRange
  paused : s.device.state.paused = true
  steady : s.LoopSteady
  shows : s.device.state.shown = shown

variable {suspends : Int → Bool} {s s' : Session} {shown : Option Item}

theorem Held.loop {o : Op} {next : o.Res → Program Unit}
    (hs : s.Held shown) (hloop : s.loop = .call o next)
    (hitems : ∀ l, o = .setItems l →
      (s.device.state.setItems l).shown = s.device.state.shown) :
    ({ s with
        device := (Device.exec o s.device).2
        loop := next (Device.exec o s.device).1 } : Session).Held shown := by
  have hsteady := hs.steady
  rw [LoopSteady, hloop] at hsteady
  obtain ⟨hpaused, hrest, hshown⟩ :=
    Stream.steady_exec hs.inRange hs.paused hsteady hitems
  exact ⟨Device.exec_inRange o hs.inRange, hpaused, hrest, hshown.trans hs.shows⟩

theorem Held.step {a : Act} (hs : s.Held shown) (ha : s.Undisturbed a)
    (h : s.step suspends a = some s') : s'.Held shown := by
  cases a with
  | wake w =>
      obtain ⟨notify, rfl⟩ := wake_cases h
      exact ⟨hs.inRange, hs.paused, Stream.onWake_steady w, hs.shows⟩
  | loop =>
      obtain ⟨o, next, hloop, rfl⟩ := loop_cases h
      exact hs.loop hloop fun l hl => ha l (by rw [hloop, ← hl]; rfl)
  | press c =>
      cases h
      exact ⟨hs.inRange, hs.paused, hs.steady, hs.shows⟩
  | call i =>
      obtain ⟨report, o, next, hcall, rfl⟩ := call_cases h
      obtain ⟨hmoves, hresume⟩ := ha o (by rw [callOp, hcall]; rfl)
      refine ⟨Device.exec_inRange o hs.inRange, ?_, hs.steady, ?_⟩
      · show (Device.exec o s.device).2.state.paused = true
        cases o with
        | setPaused p =>
            cases p with
            | true => rfl
            | false => exact absurd rfl hresume
        | _ =>
            rw [Device.exec_paused _ (by simp)]
            exact hs.paused
      · show (Device.exec o s.device).2.state.shown = shown
        rw [Device.exec_shown_of_not hs.inRange hmoves]
        exact hs.shows
  | deliver =>
      obtain ⟨e, stamp, wire, -, rfl⟩ := deliver_cases h
      refine ⟨?_, ?_, ?_, ?_⟩
      · rw [handle_device]
        exact hs.inRange
      · rw [handle_device]
        exact hs.paused
      · rw [LoopSteady, handle_loop]
        exact hs.steady
      · rw [handle_device]
        exact hs.shows
  | input e =>
      obtain ⟨page, -, -, rfl⟩ := input_cases h
      exact ⟨hs.inRange, hs.paused, hs.steady, hs.shows⟩

/--
A pause or goto has just set the flag, while the loop is not about to move.
As long as no request moves the cursor or resumes and no refresh tick replaces
the shown item, the device stays paused and shows the same item.
-/
theorem paused_holds {items : List Item} {page : Page} {before after : List Act}
    {i : Nat} {t : Session}
    (hreach : (session suspends).run (start suspends items page) before = some s)
    (hpause : s.callOp i = some (.setPaused true))
    (hset : s.step suspends (.call i) = some s') (hsteady : s'.LoopSteady)
    (hafter : (session suspends).Along Undisturbed s' after)
    (hrun : (session suspends).run s' after = some t) :
    t.device.state.paused = true ∧ t.device.state.shown = s'.device.state.shown := by
  have hpaused : s'.device.state.paused = true := by
    obtain ⟨report, o, next, hcall, rfl⟩ := call_cases hset
    rw [callOp, hcall] at hpause
    cases hpause
    rfl
  have hheld := System.run_invariant_along
    (I := fun u : Session => u.Held s'.device.state.shown)
    (fun _ _ _ hs hc hstep => hs.step hc hstep)
    ⟨inRange_step (inRange_of_run hreach) hset, hpaused, hsteady, rfl⟩ hafter hrun
  exact ⟨hheld.paused, hheld.shows⟩

private def fresh : Session :=
  start (fun _ => false) [⟨1, 60 * second⟩, ⟨2, 60 * second⟩]
    (Page.opened (some 1) ⟨true, 1, []⟩)

private def connected : List Act := List.replicate 12 .loop

private def elapsed : List Act :=
  [.call 0, .wake .advance] ++ List.replicate 8 .loop ++
    [.wake .notify] ++ List.replicate 7 .loop

theorem paused_holds_over_advance :
    ∃ s s' t, (session fun _ => false).run fresh (connected ++ [.press .pause]) =
        some s ∧ s.step (fun _ => false) (.call 0) = some s' ∧
      (session fun _ => false).run s' elapsed = some t ∧
      t.device.state.paused = true ∧
      t.device.state.shown = s'.device.state.shown := by
  have hreach : (session fun _ => false).run fresh
      (connected ++ [.press .pause]) = some _ := rfl
  exact ⟨_, _, _, hreach, rfl, rfl,
    @paused_holds (fun _ => false) _ _ _ _ _ elapsed 0 _ hreach rfl rfl trivial
      (by decide) rfl⟩

/-- A pause that has returned does not hold the device: the loop, which had
tested the flag before, advances, and so does the end of a video. -/
theorem paused_device_moves :
    (∃ s t, (session fun _ => false).run fresh
          (connected ++ [.wake .advance, .loop, .press .pause, .call 0, .call 0]) =
            some s ∧ s.calls[0]? = some ⟨none, .ret true⟩ ∧
        (session fun _ => false).run s [.loop] = some t ∧
        t.device.state.shown ≠ s.device.state.shown) ∧
    ∃ s t, (session fun _ => false).run fresh
          (connected ++ [.press .pause, .call 0, .call 0]) = some s ∧
        s.calls[0]? = some ⟨none, .ret true⟩ ∧
        (session fun _ => false).run s [.input .ended, .call 1] = some t ∧
        t.device.state.shown ≠ s.device.state.shown := by
  constructor
  · exact ⟨_, _, rfl, rfl, rfl, by decide⟩
  · exact ⟨_, _, rfl, rfl, rfl, by decide⟩

end Session

end FamilyPlanner
