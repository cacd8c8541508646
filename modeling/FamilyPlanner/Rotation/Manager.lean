import FamilyPlanner.Foundation.Interleaving
import FamilyPlanner.Rotation.State

/-!
# The shared state of a connected device

One connection of a device shares its playback `State` and the `notify`
channel between the SSE loop and every caller of `Manager.Command` and
`Manager.Goto`.  `Op` lists the atomic operations on them, together with the
stream's writes to its response and its dwell timer; `exec` is their effect.
Callers and the loop are programs of these operations.
-/

namespace FamilyPlanner.Rotation

open FamilyPlanner.Foundation

/--
The events of `/kiosk/stream`.  The payloads of `config`, `names`, `pip`,
`version` and `chime` do not reach the stage and are left out.
-/
inductive Event where
  | navigate (viewID : Int)
  | dwell (secs : Int)
  | refresh (data : String)
  | config
  | names
  | pip
  | version
  | cmd (name : String)
  | chime
  deriving DecidableEq, Repr

inductive Op where
  | current
  | isPaused
  | next
  | prev
  | goto (viewID : Int)
  | setPaused (p : Bool)
  | setItems (items : List Item)
  | signal
  | send (e : Event)
  | reset (d : Duration)
  deriving DecidableEq, Repr

@[reducible] def Op.Res : Op → Type
  | .current => Option Item
  | .isPaused => Bool
  | _ => Unit

/-- The `State` methods that can change what `Current` returns. -/
def Op.Moves : Op → Prop
  | .next | .prev | .goto _ | .setItems _ => True
  | _ => False

instance : DecidablePred Op.Moves
  | .next | .prev | .goto _ | .setItems _ => .isTrue trivial
  | .current | .isPaused | .setPaused _ | .signal | .send _ | .reset _ =>
      .isFalse id

/--
`advance` is the duration the dwell timer was last reset to, `wire` holds the
events sent and not yet handled by the page.

`moves`, `read` and the number on each event are history: a clock that `Next`,
`Prev`, `Goto` and each change of the shown item by `SetItems` advance, what the
latest `Current` returned with its moment on that clock, and the moment of the
latest read before the event was sent.
-/
structure Device where
  state : State
  notify : Bool := false
  wire : List (Event × Nat) := []
  advance : Duration := 0
  moves : Nat := 1
  read : Option Item × Nat := (none, 0)
  deriving DecidableEq, Repr

namespace Device

def move (d : Device) (s : State) : Device :=
  { d with state := s, moves := d.moves + 1 }

def replace (d : Device) (s : State) : Device :=
  { d with state := s, moves := if s.shown = d.state.shown then d.moves else d.moves + 1 }

def exec : (o : Op) → Device → o.Res × Device
  | .current, d =>
      (d.state.current.1,
        { d with state := d.state.current.2, read := (d.state.current.1, d.moves) })
  | .isPaused, d => (d.state.paused, d)
  | .next, d => ((), d.move d.state.next)
  | .prev, d => ((), d.move d.state.prev)
  | .goto v, d => ((), d.move (d.state.goto v))
  | .setPaused p, d => ((), { d with state := d.state.setPaused p })
  | .setItems l, d => ((), d.replace (d.state.setItems l))
  -- the channel holds one signal; a second one is dropped
  | .signal, d => ((), { d with notify := true })
  | .send e, d => ((), { d with wire := d.wire ++ [(e, d.read.2)] })
  | .reset t, d => ((), { d with advance := t })

end Device

abbrev Program := Prog Op Op.Res

/-- The commands of `/kiosk/control` and of the phone remote. -/
inductive Command where
  | next
  | prev
  | pause
  | resume
  | goto (viewID : Int)
  deriving DecidableEq, Repr

namespace Manager

def command : Command → Program Bool
  | .next => .call .next fun _ => .call .signal fun _ => .ret true
  | .prev => .call .prev fun _ => .call .signal fun _ => .ret true
  | .pause => .call (.setPaused true) fun _ => .call .signal fun _ => .ret true
  | .resume => .call (.setPaused false) fun _ => .call .signal fun _ => .ret true
  -- the cursor moves and the pause flag is set in two critical sections
  | .goto v =>
      .call (.goto v) fun _ => .call (.setPaused true) fun _ =>
        .call .signal fun _ => .ret true

end Manager

/-- The flag that a command leaves, if it touches the flag at all. -/
def Command.sets : Command → Option Bool
  | .next | .prev => none
  | .pause | .goto _ => some true
  | .resume => some false

/-! ## Frames of the operations -/

namespace Device

theorem exec_paused {o : Op} (d : Device) (ho : ∀ p, o ≠ .setPaused p) :
    (exec o d).2.state.paused = d.state.paused := by
  cases o with
  | setPaused p => exact absurd rfl (ho p)
  | current => exact State.current_paused d.state
  | goto v => exact State.goto_paused d.state v
  | _ => rfl

theorem exec_read {o : Op} (d : Device) (ho : o ≠ .current) :
    (exec o d).2.read = d.read := by
  cases o <;> first | rfl | exact absurd rfl ho

theorem exec_wire {o : Op} (d : Device) (ho : ∀ e, o ≠ .send e) :
    (exec o d).2.wire = d.wire := by
  cases o with
  | send e => exact absurd rfl (ho e)
  | _ => rfl

theorem exec_inRange (o : Op) {d : Device} (hd : d.state.InRange) :
    (exec o d).2.state.InRange := by
  cases o with
  | current =>
      show d.state.current.2.InRange
      rwa [hd.current_state]
  | next => exact State.inRange_next _
  | prev => exact State.inRange_prev _
  | goto v => exact hd.goto v
  | setItems l => exact State.inRange_setItems _ _
  | _ => exact hd

theorem exec_shown_of_not {o : Op} {d : Device} (hd : d.state.InRange)
    (ho : ¬ o.Moves) : (exec o d).2.state.shown = d.state.shown := by
  cases o with
  | current =>
      show d.state.current.2.shown = d.state.shown
      rw [hd.current_state]
  | setPaused p => exact State.shown_setPaused _ _
  | next => exact absurd trivial ho
  | prev => exact absurd trivial ho
  | goto v => exact absurd trivial ho
  | setItems l => exact absurd trivial ho
  | _ => rfl

/-- As long as the clock stands still, so does the shown item. -/
theorem exec_moves (o : Op) {d : Device} (hd : d.state.InRange) :
    d.moves < (exec o d).2.moves ∨
      (exec o d).2.moves = d.moves ∧ (exec o d).2.state.shown = d.state.shown := by
  cases o with
  | next | prev | goto v => exact .inl (Nat.lt_succ_self _)
  | setItems l =>
      by_cases hsame : (d.state.setItems l).shown = d.state.shown
      · exact .inr ⟨if_pos hsame, hsame⟩
      · exact .inl (by simp [exec, replace, hsame])
  | current | isPaused | setPaused p | signal | send e | reset t =>
      exact .inr ⟨rfl, exec_shown_of_not hd id⟩

end Device

theorem Manager.command_paused (cmd : Command) (d : Device) :
    ((command cmd).alone Device.exec d).2.state.paused =
      cmd.sets.getD d.state.paused := by
  cases cmd <;> rfl

end FamilyPlanner.Rotation
