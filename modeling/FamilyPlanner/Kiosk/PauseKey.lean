import FamilyPlanner.Rotation.Registry

/-!
# The pause key

The keyboard of a kiosk drives the rotation of its device.  The page does not
know whether the device is paused and keeps a copy of the flag, `kbPaused`,
that only its own key moves; the footer buttons, the remotes, a page load and
a new stream move one of the two alone.
-/

namespace FamilyPlanner.Kiosk

open FamilyPlanner.Foundation FamilyPlanner.Rotation

inductive Key where
  | i
  | o
  | arrowUp
  | arrowDown
  | arrowLeft
  | arrowRight
  | enter
  | escape
  | other
  deriving DecidableEq, Repr

structure KeyEvent where
  key : Key
  ctrlKey : Bool := false
  shiftKey : Bool := false
  deriving DecidableEq, Repr

inductive OvState where
  | none
  | info
  | screens
  deriving DecidableEq, Repr

structure Keyboard where
  ovState : OvState := .none
  kbPaused : Bool := false
  deriving DecidableEq, Repr

namespace Keyboard

variable {kb : Keyboard} {e : KeyEvent}

/-- The case `ArrowUp` of the last switch of the handler. -/
def pauseKey (kb : Keyboard) : Command × Keyboard :=
  let kbPaused := !kb.kbPaused
  (if kbPaused then .pause else .resume, { kb with kbPaused })

/-- The command sent by the handler.  What keys do to the picker's selection,
the widgets, the corner and the chime is left out. -/
def keydown (kb : Keyboard) (e : KeyEvent) : Option Command × Keyboard :=
  if e.key = .i then
    (none, { kb with ovState := if kb.ovState = .info then .none else .info })
  else if e.key = .o then
    (none, { kb with ovState := if kb.ovState = .info then .screens else .none })
  else if kb.ovState = .screens then
    (none, if e.key = .enter ∨ e.key = .escape then { kb with ovState := .none } else kb)
  else if kb.ovState = .info ∧ e.key = .escape then (none, { kb with ovState := .none })
  else if e.key = .escape then (none, kb)
  else if e.ctrlKey then (none, kb)
  else if e.shiftKey then (none, kb)
  else
    match e.key with
    | .arrowLeft => (some .prev, kb)
    | .arrowRight => (some .next, kb)
    | .arrowUp => (some kb.pauseKey.1, kb.pauseKey.2)
    | _ => (none, kb)

/-- With a modifier, or in the picker, the arrow does something else. -/
def IsPauseKey (kb : Keyboard) (e : KeyEvent) : Prop :=
  e.key = .arrowUp ∧ e.ctrlKey = false ∧ e.shiftKey = false ∧ kb.ovState ≠ .screens

instance (kb : Keyboard) (e : KeyEvent) : Decidable (kb.IsPauseKey e) :=
  inferInstanceAs (Decidable (_ ∧ _))

theorem keydown_pauseKey (h : kb.IsPauseKey e) :
    kb.keydown e = (some kb.pauseKey.1, kb.pauseKey.2) := by
  obtain ⟨hkey, hctrl, hshift, hov⟩ := h
  simp [keydown, hkey, hctrl, hshift, hov]

theorem keydown_other (h : ¬ kb.IsPauseKey e) :
    (kb.keydown e).2.kbPaused = kb.kbPaused ∧
      ∀ cmd ∈ (kb.keydown e).1, cmd.sets = none := by
  unfold keydown
  split
  · simp
  split
  · simp
  split
  · split <;> simp
  rename_i hov
  split
  · simp
  split
  · simp
  split
  · simp
  rename_i hctrl
  split
  · simp
  rename_i hshift
  split
  · simp [Command.sets]
  · simp [Command.sets]
  · rename_i hkey
    exact absurd ⟨hkey, by simpa using hctrl, by simpa using hshift, hov⟩ h
  · simp

theorem pauseKey_sets (kb : Keyboard) : kb.pauseKey.1.sets = some !kb.kbPaused := by
  cases h : kb.kbPaused <;> simp [pauseKey, h, Command.sets]

theorem pauseKey_eq_pause (kb : Keyboard) :
    kb.pauseKey.1 = .pause ↔ kb.kbPaused = false := by
  cases h : kb.kbPaused <;> simp [pauseKey, h]

end Keyboard

structure Controls where
  server : Registry
  keyboard : Keyboard

/--
Commands reach the server in the order in which they are sent.  `call` holds
those of the footer buttons and the remotes, and the streams that connect and
end; `load` is a new page.
-/
inductive ControlEvent where
  | keydown (e : KeyEvent)
  | call (c : Registry.Call)
  | load
  deriving DecidableEq, Repr

namespace Controls

variable {dev : Int} {s s' t : Controls} {e : ControlEvent}

def start : Controls := ⟨Registry.new, {}⟩

def fpCtl (server : Registry) (dev : Int) : Option Command → Registry
  | none => server
  | some cmd => (server.command dev cmd).2

def sent (s : Controls) : ControlEvent → Option Command
  | .keydown e => (s.keyboard.keydown e).1
  | _ => none

def step (dev : Int) (s : Controls) : ControlEvent → Option Controls
  | .keydown e => some {
      server := fpCtl s.server dev (s.keyboard.keydown e).1
      keyboard := (s.keyboard.keydown e).2 }
  | .call c => (s.server.step c).map fun server => { s with server }
  | .load => some { s with keyboard := {} }

def controls (dev : Int) : System Controls ControlEvent := ⟨step dev⟩

/-! ## The key and the flag -/

def Presses (s : Controls) : ControlEvent → Prop
  | .keydown e => s.keyboard.IsPauseKey e
  | _ => False

/-- A press sends `pause` exactly to a device that is not paused, and so
changes the flag.  Without a stream there is no flag. -/
def PressToggles (dev : Int) (s : Controls) (e : ControlEvent) : Prop :=
  s.Presses e → ∀ p, s.server.paused dev = some p →
    (s.sent e = some .pause ↔ p = false) ∧
      ∀ s', s.step dev e = some s' → s'.server.paused dev = some !p

def InStep (dev : Int) (s : Controls) : Prop :=
  ∀ p, s.server.paused dev = some p → s.keyboard.kbPaused = p

def PressInStep (dev : Int) (s : Controls) (e : ControlEvent) : Prop :=
  s.Presses e → s.InStep dev

/--
Only the key moves the flag or the copy: a pause or goto comes while the device
is paused, a resume while it is not, a page is loaded while it is not, and a
stream connects while the copy says that it is not.
-/
def Keeps (dev : Int) (s : Controls) : ControlEvent → Prop
  | .keydown _ => True
  | .call (.connect d _) => d = dev → s.keyboard.kbPaused = false
  | .call (.release _) => True
  | .call (.command d cmd) =>
      d = dev → ∀ p, s.server.paused dev = some p → cmd.sets.getD p = p
  | .load => s.server.paused dev ≠ some true

theorem slots_step (hs : s.server.Slots) (h : s.step dev e = some s') :
    s'.server.Slots := by
  cases e with
  | keydown ev =>
      cases h
      show (fpCtl s.server dev _).Slots
      cases (s.keyboard.keydown ev).1 with
      | none => exact hs
      | some cmd => exact hs.command dev cmd
  | call c =>
      obtain ⟨server, hserver, rfl⟩ := Option.map_eq_some_iff.mp h
      exact hs.step hserver
  | load =>
      cases h
      exact hs

theorem pressToggles_iff (hs : s.server.Slots) :
    s.PressToggles dev e ↔ s.PressInStep dev e := by
  cases e with
  | call c => simp [PressToggles, PressInStep, Presses]
  | load => simp [PressToggles, PressInStep, Presses]
  | keydown ev =>
      unfold PressToggles PressInStep InStep
      apply imp_congr_right
      intro hpress
      have hkey := Keyboard.keydown_pauseKey hpress
      have hsent : s.sent (.keydown ev) = some s.keyboard.pauseKey.1 := by
        rw [sent, hkey]
      apply forall_congr'
      intro p
      apply imp_congr_right
      intro hp
      rw [hsent, Option.some.injEq, Keyboard.pauseKey_eq_pause]
      constructor
      · rintro ⟨hpause, -⟩
        cases p <;> simpa using hpause
      · rintro rfl
        refine ⟨Iff.rfl, ?_⟩
        intro s' h
        cases h
        show (fpCtl s.server dev (s.keyboard.keydown ev).1).paused dev = _
        rw [hkey, fpCtl, hs.paused_command, if_pos rfl, hp, Keyboard.pauseKey_sets]
        rfl

theorem inStep_keydown (hs : s.InStep dev) (hslots : s.server.Slots) (ev : KeyEvent)
    (h : s.step dev (.keydown ev) = some s') : s'.InStep dev := by
  cases h
  intro p hp
  change (fpCtl s.server dev (s.keyboard.keydown ev).1).paused dev = some p at hp
  show (s.keyboard.keydown ev).2.kbPaused = p
  by_cases hpress : s.keyboard.IsPauseKey ev
  · rw [Keyboard.keydown_pauseKey hpress] at hp ⊢
    rw [fpCtl, hslots.paused_command, if_pos rfl, Keyboard.pauseKey_sets] at hp
    obtain ⟨q, -, rfl⟩ := Option.map_eq_some_iff.mp hp
    rfl
  · obtain ⟨hcopy, hsets⟩ := Keyboard.keydown_other hpress
    rw [hcopy]
    apply hs p
    rw [← hp]
    cases hcmd : (s.keyboard.keydown ev).1 with
    | none => rfl
    | some cmd =>
        rw [fpCtl, hslots.paused_command, if_pos rfl, hsets cmd hcmd]
        cases s.server.paused dev <;> rfl

theorem inStep_step (hs : s.InStep dev) (hslots : s.server.Slots)
    (h : s.step dev e = some s') : s'.InStep dev ↔ s.Keeps dev e := by
  cases e with
  | keydown ev => simpa [Keeps] using inStep_keydown hs hslots ev h
  | load =>
      cases h
      unfold InStep Keeps
      cases hp : s.server.paused dev with
      | none => simp
      | some p => cases p <;> simp
  | call c =>
      obtain ⟨server, hserver, rfl⟩ := Option.map_eq_some_iff.mp h
      cases c with
      | release k =>
          simp only [Keeps, iff_true]
          intro p hp
          rcases @Registry.paused_release _ _ dev _ hserver with hsame | hnone
          · exact hs p (hsame.symm.trans hp)
          · rw [show server.paused dev = none from hnone] at hp
            cases hp
      | connect d items =>
          cases hserver
          simp only [InStep, Keeps, hslots.paused_connect]
          by_cases hd : d = dev
          · simp [hd]
          · simp only [hd, if_false, false_implies, iff_true]
            exact hs
      | command d cmd =>
          cases hserver
          simp only [InStep, Keeps, hslots.paused_command]
          by_cases hd : d = dev
          · cases hp : s.server.paused dev with
            | none => simp [hd]
            | some p => simp [hd, hs p hp, eq_comm]
          · simp only [hd, if_false, false_implies, iff_true]
            exact hs

theorem slots_along (es : List ControlEvent) (hs : s.server.Slots) :
    (controls dev).Along (fun s _ => s.server.Slots) s es := by
  apply System.Along.of_invariant (C := fun _ _ => True) (I := fun s => s.server.Slots)
  · intro _ _ _ hslots _ hstep
    exact slots_step hslots hstep
  · intro _ _ hslots _
    exact hslots
  · exact hs
  · exact System.Along.of_forall (fun _ _ => trivial) s es

/--
Every press of the key toggles exactly as long as the page's copy is right at
every press.  It is right all along exactly if no one else moves the flag or
the copy.
-/
theorem pauseKey_toggles_iff {es : List ControlEvent}
    (hrun : (controls dev).run start es = some t) :
    ((controls dev).Along (PressToggles dev) start es ↔
      (controls dev).Along (PressInStep dev) start es) ∧
    ((controls dev).Always (InStep dev) start es ↔
      (controls dev).Along (Keeps dev) start es) := by
  have hslots : (controls dev).Along (fun s _ => s.server.Slots) start es :=
    slots_along es Registry.slots_new
  have hstart : start.InStep dev := by
    intro p hp
    cases hp
  constructor
  · exact System.along_congr hslots fun _ _ hs => pressToggles_iff hs
  · exact System.always_iff_along
      (fun _ _ _ hs hd hstep => inStep_step hs hd hstep) hstart hslots hrun

private def familyRoom : List Item := [⟨1, 60 * second⟩, ⟨2, 60 * second⟩]

private def up : ControlEvent := .keydown ⟨.arrowUp, false, false⟩

/-- A goto finds the device paused by the key, and the next press resumes. -/
theorem pauseKey_toggles_around_goto :
    ∃ t, (controls 7).run start
        [.call (.connect 7 familyRoom), up, .call (.command 7 (.goto 2)), up] = some t ∧
      (controls 7).Always (InStep 7) start
        [.call (.connect 7 familyRoom), up, .call (.command 7 (.goto 2)), up] := by
  have hrun : (controls 7).run start
      [.call (.connect 7 familyRoom), up, .call (.command 7 (.goto 2)), up] = some _ := rfl
  refine ⟨_, hrun, (pauseKey_toggles_iff hrun).2.mpr ?_⟩
  refine ⟨fun _ => rfl, ?_⟩
  rintro _ ⟨⟩
  refine ⟨trivial, ?_⟩
  rintro _ ⟨⟩
  refine ⟨?_, ?_⟩
  · rintro - p ⟨⟩
    rfl
  · rintro _ ⟨⟩
    exact ⟨trivial, fun _ _ => trivial⟩

/-- A remote has paused the device; the key sends `pause` to the paused device. -/
theorem press_after_remote_pause :
    ∃ es t, (controls 7).run start es = some t ∧
      ¬ (controls 7).Along (PressToggles 7) start es := by
  refine ⟨[.call (.connect 7 familyRoom), .call (.command 7 .pause), up], _, rfl, ?_⟩
  rintro ⟨-, h⟩
  obtain ⟨-, h⟩ := h _ rfl
  obtain ⟨h, -⟩ := h _ rfl
  exact absurd ((h ⟨rfl, rfl, rfl, by decide⟩ true rfl).1.mp rfl) (by decide)

end Controls

end FamilyPlanner.Kiosk
