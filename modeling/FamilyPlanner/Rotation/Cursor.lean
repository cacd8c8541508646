import FamilyPlanner.Foundation.Cyclic
import FamilyPlanner.Rotation.State

/-!
# The cursor over runs of method calls

The callers of a `State` call its methods in any order.  `calls` is the state
after such a sequence, from `NewState` or from any state met later.
-/

namespace FamilyPlanner.Rotation

open FamilyPlanner.Foundation

/-- The methods of `State` that change it. -/
inductive Method where
  | next
  | prev
  | goto (viewID : Int)
  | setPaused (p : Bool)
  | setItems (items : List Item)
  deriving DecidableEq, Repr

namespace State

variable {s : State}

def call (s : State) : Method → State
  | .next => s.next
  | .prev => s.prev
  | .goto v => s.goto v
  | .setPaused p => s.setPaused p
  | .setItems l => s.setItems l

def calls (s : State) (ms : List Method) : State := ms.foldl call s

/-- What `Current` returns after each `Next` among the calls. -/
def shownByNext : State → List Method → List (Option Item)
  | _, [] => []
  | s, .next :: ms => s.next.shown :: s.next.shownByNext ms
  | s, m :: ms => (s.call m).shownByNext ms

theorem InRange.call (hs : s.InRange) (m : Method) : (s.call m).InRange := by
  cases m with
  | next => exact inRange_next s
  | prev => exact inRange_prev s
  | goto v => exact hs.goto v
  | setPaused p => exact hs.setPaused p
  | setItems l => exact inRange_setItems s l

theorem InRange.calls (hs : s.InRange) (ms : List Method) : (s.calls ms).InRange := by
  induction ms generalizing s with
  | nil => exact hs
  | cons m ms ih => exact ih (hs.call m)

/-! ## One step -/

theorem InRange.current_eq (hs : s.InRange) (hne : s.items ≠ []) :
    ∃ it, s.items[s.index]? = some it ∧
      s.current = (some (if s.override ≠ 0 then ⟨s.override, 0⟩ else it), s) := by
  have hlt : s.index < s.items.length := hs hne
  refine ⟨s.items[s.index], List.getElem?_eq_getElem hlt, ?_⟩
  apply Prod.ext
  · by_cases h : s.override = 0
    · rw [current_fst, hs.shown_eq h, List.getElem?_eq_getElem hlt]
      simp [h]
    · simp [current, h]
  · exact hs.current_state

theorem InRange.next_prev (hs : s.InRange) (h : s.override = 0) :
    s.next.prev = s := by
  cases s with
  | mk items index paused override =>
      dsimp only at h
      subst h
      by_cases hpos : 0 < items.length
      · have hlt : index < items.length := hs (List.ne_nil_of_length_pos hpos)
        simp only [prev, next, hpos, if_true, mod_succ_pred hlt]
      · simp only [prev, next, hpos, if_false]

theorem InRange.prev_next (hs : s.InRange) (h : s.override = 0) :
    s.prev.next = s := by
  cases s with
  | mk items index paused override =>
      dsimp only at h
      subst h
      by_cases hpos : 0 < items.length
      · have hlt : index < items.length := hs (List.ne_nil_of_length_pos hpos)
        simp only [prev, next, hpos, if_true, mod_pred_succ hlt]
      · simp only [prev, next, hpos, if_false]

theorem goto_outside {v : Int} (hv : ∀ it ∈ s.items, it.viewID ≠ v) :
    s.goto v = { s with override := v } := by
  have hnone : s.items.findIdx? (·.viewID = v) = none := by
    rw [List.findIdx?_eq_none_iff]
    intro it hit
    simpa using hv it hit
  rw [goto, hnone]

/-! ## A whole round -/

/-- The calls of one round: `Next`, and refreshes that leave the playlist `l`. -/
def InRound (l : List Item) (m : Method) : Prop := m = .next ∨ m = .setItems l

instance (l : List Item) (m : Method) : Decidable (InRound l m) :=
  inferInstanceAs (Decidable (_ ∨ _))

theorem shown_next (h : 0 < s.items.length) :
    s.next.shown = s.items[(s.index + 1) % s.items.length]? := by
  rw [(inRange_next s).shown_eq rfl]
  simp only [next, h, if_true]

theorem shownByNext_round {ms : List Method} (hlt : s.index < s.items.length)
    (hms : ∀ m ∈ ms, InRound s.items m) :
    s.shownByNext ms = cyclicFrom s.items (s.index + 1) (ms.count .next) := by
  induction ms generalizing s with
  | nil => rfl
  | cons m ms ih =>
      have hpos : 0 < s.items.length := by omega
      have hrest : ∀ m ∈ ms, InRound s.items m :=
        fun m hm => hms m (List.mem_cons_of_mem _ hm)
      rcases hms m List.mem_cons_self with rfl | rfl
      · have hnext : s.next.index = (s.index + 1) % s.items.length := by
          simp only [next, hpos, if_true]
        rw [shownByNext, @ih s.next (inRange_next s (List.ne_nil_of_length_pos hpos))
          hrest]
        rw [List.count_cons_self, cyclicFrom, shown_next hpos, hnext]
        congr 1
        rw [← cyclicFrom_mod, ← cyclicFrom_mod s.items (s.index + 1 + 1)]
        show cyclicFrom s.items (((s.index + 1) % s.items.length + 1) % s.items.length) _ = _
        rw [Nat.mod_add_mod]
      · rw [shownByNext, call, setItems_self hlt, ih hlt hrest]
        · rw [List.count_cons_of_ne (by simp)]
        · simp

theorem length_shownByNext (s : State) (ms : List Method) :
    (s.shownByNext ms).length = ms.count .next := by
  induction ms generalizing s with
  | nil => rfl
  | cons m ms ih =>
      cases m with
      | next => simp [shownByNext, ih]
      | _ => simp [shownByNext, ih]

theorem InRange.round {ms : List Method} (hs : s.InRange)
    (hms : ∀ m ∈ ms, InRound s.items m) (hn : ms.count .next = s.items.length) :
    s.shownByNext ms = (s.items.rotate (s.index + 1)).map some := by
  by_cases hne : s.items = []
  · have hlen : (s.shownByNext ms).length = 0 := by
      rw [length_shownByNext, hn, hne, List.length_nil]
    rw [List.length_eq_zero_iff.mp hlen, hne]
    rfl
  · rw [shownByNext_round (hs hne) hms, hn, cyclicFrom_length]

/--
In every state that calls can lead to from `NewState`, the cursor points into
the list, `Current` and a refresh to the same list keep the state, `Prev` and
`Next` undo each other, and a round of `Next` calls with such refreshes between
them shows every item once, in order from the one after the cursor.
-/
theorem cursor_of_calls {items : List Item} {ms : List Method}
    (hs : (new items).calls ms = s) :
    (s.items ≠ [] → s.index < s.items.length ∧ s.setItems s.items = s ∧
      ∃ it, s.items[s.index]? = some it ∧
        s.current = (some (if s.override ≠ 0 then ⟨s.override, 0⟩ else it), s)) ∧
    (s.override = 0 → s.next.prev = s ∧ s.prev.next = s) ∧
    (∀ v, (∀ it ∈ s.items, it.viewID ≠ v) → (s.goto v).index = s.index) ∧
    ∀ round, (∀ m ∈ round, InRound s.items m) →
      round.count .next = s.items.length →
      s.shownByNext round = (s.items.rotate (s.index + 1)).map some ∧
      (s.shownByNext round).Perm (s.items.map some) := by
  have hin : s.InRange := by
    rw [← hs]
    exact (inRange_new items).calls ms
  refine ⟨?_, ?_, ?_, ?_⟩
  · intro hne
    exact ⟨hin hne, setItems_self (hin hne), hin.current_eq hne⟩
  · intro h
    exact ⟨hin.next_prev h, hin.prev_next h⟩
  · intro v hv
    rw [goto_outside hv]
  · intro round hround hn
    have hshown := hin.round hround hn
    constructor
    · exact hshown
    · rw [hshown]
      exact (List.rotate_perm s.items (s.index + 1)).map some

private def album : List Item :=
  [⟨10, 60 * second⟩, ⟨20, 60 * second⟩, ⟨30, 60 * second⟩]

private def evening : List Method :=
  [.next, .next, .setItems [], .setItems album, .prev, .setPaused true, .goto 99]

private def round : List Method :=
  [.next, .setItems album, .next, .setItems album, .setItems album, .next]

theorem cursor_of_calls_evening :
    ((new album).calls evening).index = 2 ∧
    ((new album).calls evening).override = 99 ∧
    ((new album).calls evening).shownByNext round =
      (album.rotate 3).map some := by
  have h := (@cursor_of_calls _ album evening rfl).2.2.2 round
    (by decide) rfl
  exact ⟨rfl, rfl, h.1⟩

end State

end FamilyPlanner.Rotation
