import FamilyPlanner.Foundation.Flight
import FamilyPlanner.Foundation.Run
import FamilyPlanner.Widget.Countdown
import Mathlib.Logic.Function.Basic

/-!
# Background refreshes of shown widgets

Showing a widget starts a fetch of its data in a goroutine of its own.  The
body of `bgRefresh` and the deferred clean-up of the goroutine are critical
sections of one mutex, over a map of the widgets being fetched and a map of
their latest starts.
-/

namespace FamilyPlanner.Server

open FamilyPlanner.Foundation FamilyPlanner.Widget.Countdown

def onShowRefreshThrottle : Int := 10 * Clock.second

/--
`flights` is history: the goroutines that have not come to the end of their
clean-up, and every start with the time stored for it.
-/
structure Refresher where
  now : Int
  refreshing : Int → Bool
  lastRefresh : Int → Option Int
  flights : Flights Int

namespace Refresher

variable {s s' : Refresher} {id : Int}

def start (now : Int) : Refresher :=
  ⟨now, fun _ => false, fun _ => none, Flights.none⟩

def tooRecent (s : Refresher) (id : Int) : Bool :=
  match s.lastRefresh id with
  | some t => decide (sub s.now t < onShowRefreshThrottle)
  | none => false

def launch (s : Refresher) (id t : Int) : Refresher where
  now := t
  refreshing := Function.update s.refreshing id true
  lastRefresh := Function.update s.lastRefresh id (some t)
  flights := s.flights.launch id t

/-- The clock is read again for the stored time, `pause` after the test. -/
def bgRefresh (s : Refresher) (id : Int) (pause : Nat) : Refresher :=
  if s.refreshing id then s
  else if s.tooRecent id then s
  else s.launch id (s.now + pause)

/-- The deferred clean-up of the goroutine at `i` of those in the air. -/
def cleanUp (s : Refresher) (i : Nat) : Option Refresher :=
  match s.flights.air[i]? with
  | none => none
  | some f => some { s with
      refreshing := Function.update s.refreshing f.key false
      flights := s.flights.land i }

inductive Act where
  | tick (d : Nat)
  | call (id : Int) (pause : Nat)
  | ended (i : Nat)
  deriving DecidableEq, Repr

def step (s : Refresher) : Act → Option Refresher
  | .tick d => some { s with now := s.now + d }
  | .call id pause => some (s.bgRefresh id pause)
  | .ended i => s.cleanUp i

def refresher : System Refresher Act := ⟨step⟩

/-- The two maps are a summary of the flights. -/
structure Sound (s : Refresher) : Prop where
  spaced : s.flights.Spaced onShowRefreshThrottle
  flagged : ∀ id, s.refreshing id = false ↔ s.flights.Grounded id
  recorded : ∀ f ∈ s.flights.log, ∃ t, s.lastRefresh f.key = some t ∧ f.start ≤ t
  started : ∀ id t, s.lastRefresh id = some t → ⟨id, t⟩ ∈ s.flights.log
  past : ∀ f ∈ s.flights.log, f.start ≤ s.now

theorem sound_start (now : Int) : (start now).Sound where
  spaced := Flights.Spaced.none
  flagged := by simp [start, Flights.none, Flights.Grounded]
  recorded := by simp [start, Flights.none]
  started := by simp [start]
  past := by simp [start, Flights.none]

theorem Sound.tick (hs : s.Sound) (d : Nat) :
    ({ s with now := s.now + d } : Refresher).Sound where
  spaced := hs.spaced
  flagged := hs.flagged
  recorded := hs.recorded
  started := hs.started
  past := by
    intro f hf
    have hpast : f.start ≤ s.now := hs.past f hf
    show f.start ≤ s.now + d
    omega

theorem Sound.rested_iff (hs : s.Sound) (id : Int) :
    s.tooRecent id = false ↔
      s.flights.Rested onShowRefreshThrottle id s.now := by
  unfold tooRecent
  cases hlast : s.lastRefresh id with
  | none =>
      simp only [true_iff]
      intro f hf hkey
      obtain ⟨t, ht, -⟩ := hs.recorded f hf
      rw [hkey, hlast] at ht
      cases ht
  | some t =>
      have hmem := hs.started id t hlast
      have hpast : t ≤ s.now := hs.past _ hmem
      rw [decide_eq_false_iff_not]
      unfold sub onShowRefreshThrottle Clock.second
      constructor
      · intro hlong f hf hkey
        obtain ⟨u, hu, hle⟩ := hs.recorded f hf
        rw [hkey, hlast] at hu
        cases hu
        omega
      · intro hrest
        have hgap : t + 10 * 1000000000 ≤ s.now := hrest _ hmem rfl
        omega

theorem Sound.bgRefresh_eq (hs : s.Sound) (id : Int) (pause : Nat) :
    (s.flights.Grounded id ∧ s.flights.Rested onShowRefreshThrottle id s.now ∧
      s.bgRefresh id pause = s.launch id (s.now + pause)) ∨
    (¬ (s.flights.Grounded id ∧
        s.flights.Rested onShowRefreshThrottle id s.now) ∧
      s.bgRefresh id pause = s) := by
  rw [← hs.flagged id, ← hs.rested_iff id]
  unfold bgRefresh
  cases hbusy : s.refreshing id with
  | true => simp
  | false =>
      cases hrecent : s.tooRecent id with
      | true => simp
      | false => simp

theorem Sound.launch (hs : s.Sound) {t : Int} (ht : s.now ≤ t)
    (hground : s.flights.Grounded id)
    (hrest : s.flights.Rested onShowRefreshThrottle id s.now) :
    (s.launch id t).Sound where
  spaced := hs.spaced.launch hground hrest ht
  flagged := by
    intro k
    show Function.update s.refreshing id true k = false ↔ _
    rw [Refresher.launch, Flights.grounded_launch]
    by_cases hk : k = id
    · simp [hk]
    · rw [Function.update_of_ne hk, hs.flagged]
      simp [Ne.symm hk]
  recorded := by
    intro f hf
    show ∃ u, Function.update s.lastRefresh id (some t) f.key = some u ∧ f.start ≤ u
    rcases Flights.mem_log_launch.mp hf with hf | rfl
    · by_cases hk : f.key = id
      · exact ⟨t, by rw [hk, Function.update_self], (hs.past f hf).trans ht⟩
      · obtain ⟨u, hu, hle⟩ := hs.recorded f hf
        exact ⟨u, by rw [Function.update_of_ne hk, hu], hle⟩
    · exact ⟨t, by rw [Function.update_self], le_refl t⟩
  started := by
    intro k u hu
    change Function.update s.lastRefresh id (some t) k = some u at hu
    apply Flights.mem_log_launch.mpr
    by_cases hk : k = id
    · subst hk
      rw [Function.update_self] at hu
      cases hu
      exact .inr rfl
    · rw [Function.update_of_ne hk] at hu
      exact .inl (hs.started k u hu)
  past := by
    intro f hf
    rcases Flights.mem_log_launch.mp hf with hf | rfl
    · exact (hs.past f hf).trans ht
    · exact le_refl t

theorem Sound.land (hs : s.Sound) {i : Nat} {f : Flight Int}
    (hi : s.flights.air[i]? = some f) :
    Sound { s with
      refreshing := Function.update s.refreshing f.key false
      flights := s.flights.land i } where
  spaced := hs.spaced.land i
  flagged := by
    intro k
    show Function.update s.refreshing f.key false k = false ↔ _
    rw [hs.spaced.grounded_land hi]
    by_cases hk : k = f.key
    · simp [hk]
    · rw [Function.update_of_ne hk, hs.flagged]
      simp [hk]
  recorded := hs.recorded
  started := hs.started
  past := hs.past

theorem Sound.step {a : Act} (hs : s.Sound) (h : s.step a = some s') : s'.Sound := by
  cases a with
  | tick d =>
      cases h
      exact hs.tick d
  | call id pause =>
      cases h
      rcases hs.bgRefresh_eq id pause with ⟨hground, hrest, heq⟩ | ⟨-, heq⟩
      · rw [heq]
        exact hs.launch (by omega) hground hrest
      · rw [heq]
        exact hs
  | ended i =>
      simp only [Refresher.step, cleanUp] at h
      split at h
      · cases h
      · rename_i f hi
        cases h
        exact hs.land hi

theorem sound_of_run {now : Int} {as : List Act}
    (hrun : refresher.run (start now) as = some s) : s.Sound :=
  System.run_invariant (fun _ _ _ hs hstep => hs.step hstep) (sound_start now) hrun

/--
Whatever the order of calls and clean-ups: a widget has at most one fetch in
the air, its starts are ten seconds apart, and a call starts a fetch exactly
when none of the widget is in the air and ten seconds have passed since every
start of it.
-/
theorem no_stampede {now : Int} {as : List Act}
    (hrun : refresher.run (start now) as = some s) :
    (∀ id, (s.flights.air.map Flight.key).count id ≤ 1) ∧
    (s.flights.log.Pairwise fun f g =>
      f.key = g.key → f.start + 10 * Clock.second ≤ g.start) ∧
    ∀ id pause, (s.bgRefresh id pause).flights =
      if (∀ f ∈ s.flights.air, f.key ≠ id) ∧
          ∀ f ∈ s.flights.log, f.key = id → f.start + 10 * Clock.second ≤ s.now
      then s.flights.launch id (s.now + pause)
      else s.flights := by
  have hs := sound_of_run hrun
  refine ⟨List.nodup_iff_count_le_one.mp hs.spaced.single, hs.spaced.apart, ?_⟩
  intro id pause
  rcases hs.bgRefresh_eq id pause with ⟨hground, hrest, heq⟩ | ⟨hnot, heq⟩
  · rw [heq]
    exact (if_pos ⟨hground, hrest⟩).symm
  · rw [heq]
    exact (if_neg hnot).symm

private def evening : List Act :=
  [.call 4 1, .call 4 0, .call 7 2, .tick 10000000000, .call 4 0, .ended 0, .call 4 3]

theorem no_stampede_evening :
    ∃ s, refresher.run (start 0) evening = some s ∧
      s.flights.log = [⟨4, 1⟩, ⟨7, 3⟩, ⟨4, 10000000006⟩] ∧
      (s.flights.air.map Flight.key).count 4 ≤ 1 := by
  have hrun : refresher.run (start 0) evening = some _ := rfl
  exact ⟨_, hrun, rfl, (no_stampede hrun).1 4⟩

end Refresher

end FamilyPlanner.Server
