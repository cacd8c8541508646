import FamilyPlanner.Foundation.Run
import FamilyPlanner.VoiceClock.Chime

/-!
# The chime timer of an open stream

The loop aims its timer at one beat after the other.  The next beat comes from
the last one, not from the clock, and an overdue timer fires at once.
-/

namespace FamilyPlanner.Server.Chimes

open FamilyPlanner.Foundation FamilyPlanner.Foundation.Clock
open FamilyPlanner.VoiceClock

/-- `raw` is `none` where the setting is missing, empty or no JSON object. -/
def voiceClockConfig (raw : Option Config) : Config := raw.getD Default

def chimeDelay (z : Zone) (raw : Option Config) (now beat : Int) : Int :=
  let d := beat - now
  let d :=
    match (voiceClockConfig raw).Decide z beat with
    | some ch => d - ch.Lead
    | none => d
  if d < 0 then 0 else d

structure Sent where
  chime : Chime
  beat : Int
  time : Int
  deriving DecidableEq, Repr

/-- The timer was set at `armed` and runs for `delay`; the last event is the
first of `sent`. -/
structure State where
  beat : Int
  armed : Int
  delay : Int
  sent : List Sent
  deriving DecidableEq, Repr

/--
The timer is seen firing at `now`, and set again by a reading of `reset`; the
setting is read at both times.
-/
structure Fire where
  now : Int
  raw : Option Config
  reset : Int
  rawReset : Option Config
  deriving DecidableEq, Repr

/-- The first beat and the first delay take a reading of the clock each. -/
def connect (z : Zone) (first second : Int) (raw : Option Config) : State where
  beat := NextBoundary z first
  armed := second
  delay := chimeDelay z raw second (NextBoundary z first)
  sent := []

def announce (z : Zone) (s : State) (f : Fire) : List Sent :=
  match (voiceClockConfig f.raw).Decide z s.beat with
  | some ch => [⟨{ ch with atUnixMs := s.beat / 1000000 }, s.beat, f.now⟩]
  | none => []

def onFire (z : Zone) (s : State) (f : Fire) : State where
  beat := NextBoundary z s.beat
  armed := f.reset
  delay := chimeDelay z f.rawReset f.reset (NextBoundary z s.beat)
  sent := announce z s f ++ s.sent

def loop (z : Zone) : System State Fire where
  step s f :=
    if s.armed + s.delay ≤ f.now ∧ f.now ≤ f.reset then some (onFire z s f)
    else none

/-- No chime is late by more than a quarter of an hour, and none is repeated. -/
structure Fresh (s : State) : Prop where
  recent : ∀ a ∈ s.sent, a.time ≤ a.beat + quarter
  rising : s.sent.Pairwise fun a b => b.beat < a.beat

/--
The clock has not run past the quarter-hour after the beat when the timer is
set again, and `time.Date` resolves the beat's quarter-hour to an instant less
than a quarter of an hour before the beat, or to a later one.
-/
def Calm (z : Zone) (s : State) (f : Fire) : Prop :=
  f.reset ≤ s.beat + quarter ∧
    s.beat - quarter < z.date (quarterStart z s.beat)

instance (s : State) : Decidable (Fresh s) :=
  decidable_of_iff
    ((∀ a ∈ s.sent, a.time ≤ a.beat + quarter) ∧
      s.sent.Pairwise fun a b => b.beat < a.beat)
    ⟨fun h => ⟨h.1, h.2⟩, fun h => ⟨h.recent, h.rising⟩⟩

instance (z : Zone) (s : State) (f : Fire) : Decidable (Calm z s f) :=
  inferInstanceAs (Decidable (_ ∧ _))

theorem step_eq_some {z : Zone} {s t : State} {f : Fire} :
    (loop z).step s f = some t ↔
      (s.armed + s.delay ≤ f.now ∧ f.now ≤ f.reset) ∧ onFire z s f = t := by
  simp [loop]

theorem lt_nextBoundary_iff {z : Zone} {beat : Int} :
    beat < NextBoundary z beat ↔
      beat - quarter < z.date (quarterStart z beat) := by
  simp only [NextBoundary, quarter, minute]
  split <;> omega

theorem announce_cases (z : Zone) (s : State) (f : Fire) :
    announce z s f = [] ∨
      ∃ a, announce z s f = [a] ∧ a.beat = s.beat ∧ a.time = f.now := by
  unfold announce
  split
  · exact Or.inr ⟨_, rfl, rfl, rfl⟩
  · exact Or.inl rfl

theorem mem_announce {z : Zone} {s : State} {f : Fire} {a : Sent}
    (h : a ∈ announce z s f) : a.beat = s.beat ∧ a.time = f.now := by
  obtain hnone | ⟨b, hone, hbeat, htime⟩ := announce_cases z s f
  · rw [hnone] at h
    cases h
  · rw [hone, List.mem_singleton] at h
    rw [h]
    exact ⟨hbeat, htime⟩

structure Ahead (s : State) : Prop where
  fresh : Fresh s
  pending : ∀ a ∈ s.sent, a.beat < s.beat

theorem connect_ahead (z : Zone) (first second : Int) (raw : Option Config) :
    Ahead (connect z first second raw) := by
  refine ⟨⟨?_, List.Pairwise.nil⟩, ?_⟩ <;> intro a ha <;> cases ha

theorem onFire_ahead {z : Zone} {s : State} {f : Fire} (h : Ahead s)
    (hnow : f.now ≤ f.reset) (hcalm : Calm z s f) : Ahead (onFire z s f) := by
  obtain ⟨hreset, hdate⟩ := hcalm
  have hnext : s.beat < NextBoundary z s.beat := lt_nextBoundary_iff.mpr hdate
  refine ⟨⟨?_, ?_⟩, ?_⟩
  · intro a ha
    obtain ha | ha := List.mem_append.mp ha
    · obtain ⟨hbeat, htime⟩ := mem_announce ha
      omega
    · exact h.fresh.recent a ha
  · apply List.pairwise_append.mpr
    refine ⟨?_, h.fresh.rising, ?_⟩
    · obtain hnone | ⟨b, hone, -⟩ := announce_cases z s f
      · rw [hnone]
        exact List.Pairwise.nil
      · rw [hone]
        exact List.pairwise_singleton ..
    · intro a ha b hb
      rw [(mem_announce ha).1]
      exact h.pending b hb
  · intro a ha
    obtain ha | ha := List.mem_append.mp ha
    · rw [(mem_announce ha).1]
      exact hnext
    · exact lt_trans (h.pending a ha) hnext

/-! ## When the clock runs on with the timer -/

theorem chimeDelay_due (z : Zone) (raw : Option Config) {now beat : Int} (h : now ≤ beat) :
    now + chimeDelay z raw now beat ≤ beat := by
  have hcut (d : Int) (hd : d ≤ beat - now) : now + (if d < 0 then 0 else d) ≤ beat := by
    split <;> omega
  unfold chimeDelay
  cases hdecide : (voiceClockConfig raw).Decide z beat with
  | none => exact hcut _ (le_refl _)
  | some ch => exact hcut _ (Int.sub_le_self _ (lead_bounds hdecide).1)

/-- The timer is seen, and set again, within a quarter of an hour of the time it
was set for, and the next beat is not less than a quarter of an hour away. -/
def Prompt (z : Zone) (s : State) (f : Fire) : Prop :=
  f.reset ≤ s.armed + s.delay + quarter ∧ s.beat + quarter ≤ NextBoundary z s.beat

instance (z : Zone) (s : State) (f : Fire) : Decidable (Prompt z s f) :=
  inferInstanceAs (Decidable (_ ∧ _))

theorem calm_of_prompt_from {z : Zone} {s : State} {fires : List Fire}
    (hdue : s.armed + s.delay ≤ s.beat)
    (hprompt : (loop z).Along (Prompt z) s fires) : (loop z).Along (Calm z) s fires := by
  induction fires generalizing s with
  | nil => trivial
  | cons f fires ih =>
      obtain ⟨⟨hreset, hbeat⟩, hrest⟩ := hprompt
      have hnow : f.reset ≤ s.beat + quarter := by omega
      have hrising : s.beat < NextBoundary z s.beat := by
        have hpos : 0 < quarter := by decide
        omega
      refine ⟨⟨hnow, lt_nextBoundary_iff.mp hrising⟩, ?_⟩
      intro s' hstep
      have hnext := hrest s' hstep
      obtain ⟨-, rfl⟩ := step_eq_some.mp hstep
      exact ih (chimeDelay_due z f.rawReset (le_trans hnow hbeat)) hnext

/-- A stream whose timer is seen in time is calm. -/
theorem calm_of_prompt {z : Zone} {first second : Int} {raw : Option Config} {fires : List Fire}
    (hsecond : second ≤ NextBoundary z first)
    (hprompt : (loop z).Along (Prompt z) (connect z first second raw) fires) :
    (loop z).Along (Calm z) (connect z first second raw) fires :=
  calm_of_prompt_from (chimeDelay_due z raw hsecond) hprompt

/-- Along a calm run no chime is stale and none is repeated. -/
theorem chimes_fresh {z : Zone} {first second : Int} {raw : Option Config}
    {fires : List Fire} {t : State}
    (hcalm : (loop z).Along (Calm z) (connect z first second raw) fires)
    (hrun : (loop z).run (connect z first second raw) fires = some t) :
    Fresh t := by
  have hahead : Ahead t := by
    apply System.run_invariant_along _ (connect_ahead z first second raw) hcalm hrun
    intro s f s' hs hc hstep
    obtain ⟨⟨-, hnow⟩, rfl⟩ := step_eq_some.mp hstep
    exact onFire_ahead hs hnow hc
  exact hahead.fresh

def punctual : List Fire :=
  [⟨10 * hour + quarter, none, 10 * hour + quarter + 1, none⟩,
    ⟨10 * hour + 2 * quarter, none, 10 * hour + 2 * quarter + 1, none⟩]

theorem chimes_fresh_punctual :
    ∃ t, (loop (.fixed 0)).run (connect (.fixed 0) (10 * hour) (10 * hour) none)
      punctual = some t ∧ Fresh t := by
  have hcalm : (loop (.fixed 0)).Along (Calm (.fixed 0))
      (connect (.fixed 0) (10 * hour) (10 * hour) none) punctual :=
    calm_of_prompt (by decide +kernel) (by decide +kernel)
  exact ⟨_, rfl, chimes_fresh hcalm rfl⟩

def suspended : List Fire :=
  List.replicate 3
    ⟨12 * hour + 20 * minute, none, 12 * hour + 20 * minute, none⟩

/-- The missed quarter-hours are announced one after the other. -/
theorem chimes_replayed :
    ∃ t, (loop (.fixed 0)).run (connect (.fixed 0) (10 * hour) (10 * hour) none)
        suspended = some t ∧
      t.sent.map (fun a => (a.beat, a.time)) =
        [(10 * hour + 45 * minute, 12 * hour + 20 * minute),
          (10 * hour + 30 * minute, 12 * hour + 20 * minute),
          (10 * hour + 15 * minute, 12 * hour + 20 * minute)] ∧
      ¬ Fresh t := by
  exact ⟨_, rfl, by decide +kernel, by decide +kernel⟩

end FamilyPlanner.Server.Chimes
