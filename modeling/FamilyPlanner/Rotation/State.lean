import Mathlib.Data.List.Basic

/-!
# Playback state of one device

`State` is the cursor over a resolved playlist that `internal/rotation` keeps
for each connected device.  Every method holds the mutex of the state for its
whole body, so each is one atomic step here.  Durations are nanoseconds.
-/

namespace FamilyPlanner.Rotation

abbrev Duration := Int

def second : Duration := 1000000000

structure Item where
  viewID : Int
  dwell : Duration
  deriving DecidableEq, Repr

/-- `override` is the view of a goto to a parked view; 0 means none. -/
structure State where
  items : List Item
  index : Nat
  paused : Bool
  override : Int
  deriving DecidableEq, Repr

namespace State

def new (items : List Item) : State := ⟨items, 0, false, 0⟩

def setItems (s : State) (items : List Item) : State :=
  { s with
    items := items
    index := if items.length ≤ s.index then 0 else s.index }

def current (s : State) : Option Item × State :=
  if s.override ≠ 0 then (some ⟨s.override, 0⟩, s)
  else if s.items.length = 0 then (none, s)
  else
    let s := if s.items.length ≤ s.index then { s with index := 0 } else s
    (s.items[s.index]?, s)

def next (s : State) : State :=
  { s with
    override := 0
    index :=
      if 0 < s.items.length then (s.index + 1) % s.items.length else s.index }

def prev (s : State) : State :=
  { s with
    override := 0
    index :=
      if 0 < s.items.length then
        (s.index + s.items.length - 1) % s.items.length
      else s.index }

def goto (s : State) (viewID : Int) : State :=
  match s.items.findIdx? (·.viewID = viewID) with
  | some i => { s with index := i, override := 0 }
  | none => { s with override := viewID }

def setPaused (s : State) (p : Bool) : State := { s with paused := p }

def shown (s : State) : Option Item := s.current.1

/-! ## Frames -/

@[simp] theorem goto_paused (s : State) (v : Int) :
    (s.goto v).paused = s.paused := by
  unfold goto
  split <;> rfl

@[simp] theorem shown_setPaused (s : State) (p : Bool) :
    (s.setPaused p).shown = s.shown := by
  unfold shown current setPaused
  split <;> (try split) <;> (try split) <;> rfl

@[simp] theorem current_paused (s : State) : s.current.2.paused = s.paused := by
  unfold current
  split <;> (try split) <;> (try split) <;> rfl

/-! ## The cursor stays in the list -/

/-- The cursor of a non-empty playlist points into it. -/
def InRange (s : State) : Prop := s.items ≠ [] → s.index < s.items.length

instance (s : State) : Decidable s.InRange :=
  inferInstanceAs (Decidable (_ → _))

theorem inRange_new (items : List Item) : (new items).InRange :=
  fun h => List.length_pos_of_ne_nil h

theorem inRange_setItems (s : State) (l : List Item) : (s.setItems l).InRange := by
  intro h
  have : 0 < l.length := List.length_pos_of_ne_nil h
  simp only [setItems]
  split <;> omega

theorem inRange_next (s : State) : s.next.InRange := by
  intro h
  have hpos : 0 < s.items.length := List.length_pos_of_ne_nil h
  simp only [next, hpos, if_true]
  exact Nat.mod_lt _ hpos

theorem inRange_prev (s : State) : s.prev.InRange := by
  intro h
  have hpos : 0 < s.items.length := List.length_pos_of_ne_nil h
  simp only [prev, hpos, if_true]
  exact Nat.mod_lt _ hpos

theorem InRange.goto {s : State} (hs : s.InRange) (v : Int) :
    (s.goto v).InRange := by
  unfold State.goto
  split
  · rename_i i hi
    intro _
    exact (List.findIdx?_eq_some_iff_findIdx_eq.mp hi).1
  · exact hs

theorem InRange.setPaused {s : State} (hs : s.InRange) (p : Bool) :
    (s.setPaused p).InRange := hs

@[simp] theorem current_fst (s : State) : s.current.1 = s.shown := rfl

theorem InRange.current_state {s : State} (hs : s.InRange) :
    s.current.2 = s := by
  unfold current
  split
  · rfl
  · split
    · rfl
    · rename_i hne
      have hlt := hs (by simpa using hne)
      rw [if_neg (Nat.not_le.mpr hlt)]

theorem setItems_self {s : State} (h : s.index < s.items.length) :
    s.setItems s.items = s := by
  simp only [setItems, if_neg (Nat.not_le.mpr h)]

theorem InRange.shown_setItems_self {s : State} (hs : s.InRange) :
    (s.setItems s.items).shown = s.shown := by
  by_cases hnil : s.items = []
  · unfold shown current setItems
    simp only [hnil, List.length_nil, if_true]
    split <;> rfl
  · rw [setItems_self (hs hnil)]

theorem InRange.shown_eq {s : State} (hs : s.InRange) (h : s.override = 0) :
    s.shown = s.items[s.index]? := by
  unfold shown current
  rw [if_neg (by simpa using h)]
  by_cases hnil : s.items = []
  · simp [hnil]
  · rw [if_neg (by simpa using hnil), if_neg (Nat.not_le.mpr (hs hnil))]

end State

end FamilyPlanner.Rotation
