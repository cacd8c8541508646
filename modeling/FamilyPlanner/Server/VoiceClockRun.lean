import FamilyPlanner.Server.Chimes

/-!
# A day of the voice clock

When the timer of the stream is on time and the setting stays as it is, every
quarter-hour from the connection on is announced once or, where the setting
says so, not at all, and early enough for the tone that marks it.
-/

namespace FamilyPlanner.Server.Chimes

open FamilyPlanner.Foundation FamilyPlanner.Foundation.Clock
open FamilyPlanner.VoiceClock

/-- How long before a beat the timer is to fire. -/
def leadOf (z : Zone) (cfg : Config) (beat : Int) : Int :=
  match cfg.Decide z beat with
  | some ch => ch.Lead
  | none => 0

/-- What becomes of a beat, of a stream that was connected by `second`. -/
def announcement (z : Zone) (cfg : Config) (second beat : Int) : Option Sent :=
  (cfg.Decide z beat).map fun ch =>
    ⟨{ ch with atUnixMs := beat / 1000000 }, beat, max second (beat - ch.Lead)⟩

/-- The timer fires when it is due, the setting is the same throughout, and no
clock change stands between the beat and the start of its quarter-hour. -/
def Punctual (z : Zone) (raw : Option Config) (s : State) (f : Fire) : Prop :=
  f.now = s.armed + s.delay ∧ f.reset = f.now ∧ f.raw = raw ∧ f.rawReset = raw ∧
    Resolved z s.beat

instance (z : Zone) (raw : Option Config) (s : State) (f : Fire) :
    Decidable (Punctual z raw s f) :=
  inferInstanceAs (Decidable (_ ∧ _))

variable {z : Zone} {first second : Int} {raw : Option Config}

theorem leadOf_bounds (z : Zone) (cfg : Config) (beat : Int) :
    0 ≤ leadOf z cfg beat ∧ leadOf z cfg beat < quarter := by
  unfold leadOf
  split
  · rename_i ch hdecide
    exact lead_bounds hdecide
  · exact ⟨le_refl _, by decide⟩

theorem chimeDelay_eq (z : Zone) (raw : Option Config) (now beat : Int) :
    chimeDelay z raw now beat = max 0 (beat - now - leadOf z (voiceClockConfig raw) beat) := by
  unfold chimeDelay leadOf
  cases hdecide : (voiceClockConfig raw).Decide z beat with
  | none =>
      by_cases hpast : beat - now < 0
      · rw [if_pos hpast]
        dsimp only
        omega
      · have hle : 0 ≤ beat - now := by omega
        rw [if_neg hpast, Int.sub_zero]
        exact (Int.max_eq_right hle).symm
  | some ch =>
      by_cases hpast : beat - now - ch.Lead < 0
      · rw [if_pos hpast]
        dsimp only
        omega
      · have hle : 0 ≤ beat - now - ch.Lead := by omega
        rw [if_neg hpast]
        exact (Int.max_eq_right hle).symm

theorem add_chimeDelay (z : Zone) (raw : Option Config) (now beat : Int) :
    now + chimeDelay z raw now beat = max now (beat - leadOf z (voiceClockConfig raw) beat) := by
  rw [chimeDelay_eq]
  omega

/-- After `n` beats, of which the next was found each time. -/
structure OnTime (z : Zone) (first second : Int) (raw : Option Config) (n : Nat) (s : State) :
    Prop where
  resolved : ∀ k ≤ n, Resolved z (beats z first k)
  beat : s.beat = beats z first (n + 1)
  due : s.armed + s.delay = max second (s.beat - leadOf z (voiceClockConfig raw) s.beat)
  sent : s.sent.reverse = (List.range n).filterMap fun k =>
    announcement z (voiceClockConfig raw) second (beats z first (k + 1))

theorem onTime_connect (hfirst : Resolved z first) (second : Int) (raw : Option Config) :
    OnTime z first second raw 0 (connect z first second raw) := by
  refine ⟨?_, rfl, add_chimeDelay z raw second _, rfl⟩
  intro k hk
  obtain rfl := Nat.le_zero.mp hk
  exact hfirst

theorem OnTime.beats_eq {s : State} {n k : Nat} (h : OnTime z first second raw n s)
    (hz : QuarterOffsets z) (hk : k ≤ n) :
    beats z first (k + 1) = first - first % quarter + (k + 1) * quarter :=
  VoiceClock.beats_eq hz fun j hj => h.resolved j (Nat.le_trans hj hk)

theorem OnTime.onFire {s : State} {f : Fire} {n : Nat} (h : OnTime z first second raw n s)
    (hz : QuarterOffsets z) (hsecond : second ≤ NextBoundary z first)
    (hf : Punctual z raw s f) : OnTime z first second raw (n + 1) (onFire z s f) := by
  obtain ⟨hnow, hreset, hraw, hrawReset, hbeatResolved⟩ := hf
  have hbeat := h.beat
  have hdue := h.due
  have hresolved : ∀ k ≤ n + 1, Resolved z (beats z first k) := by
    intro k hk
    rcases Nat.le_succ_iff.mp hk with hk | rfl
    · exact h.resolved k hk
    · rwa [hbeat] at hbeatResolved
  have hnext : beats z first (n + 1 + 1) = beats z first (n + 1) + quarter := by
    rw [VoiceClock.beats_eq hz hresolved, h.beats_eq hz (le_refl n)]
    push_cast
    simp only [quarter, minute]
    omega
  have hpast : second ≤ s.beat := by
    rw [hbeat, h.beats_eq hz (le_refl n)]
    have hfirst := h.beats_eq hz (Nat.zero_le n)
    rw [beats_succ] at hfirst
    simp only [beats, Function.iterate_zero, id] at hfirst
    simp only [quarter, minute] at *
    omega
  refine ⟨hresolved, ?_, ?_, ?_⟩
  · rw [beats_succ]
    simp only [Chimes.onFire, hbeat]
  · have hlead := leadOf_bounds z (voiceClockConfig raw) s.beat
    have hlead' := leadOf_bounds z (voiceClockConfig raw) (beats z first (n + 1 + 1))
    have hbeat' : NextBoundary z s.beat = beats z first (n + 1 + 1) := by
      rw [beats_succ, hbeat]
    simp only [Chimes.onFire, hrawReset, hbeat', add_chimeDelay]
    omega
  · have hlast : (announce z s f).reverse =
        (announcement z (voiceClockConfig raw) second (beats z first (n + 1))).toList := by
      unfold announce announcement
      rw [hraw, ← hbeat]
      unfold leadOf at hdue
      cases hdecide : (voiceClockConfig raw).Decide z s.beat with
      | none => rfl
      | some ch =>
          rw [hdecide] at hdue
          simp [hnow, hdue]
    rw [List.range_succ, List.filterMap_append, ← h.sent, List.filterMap_cons, List.filterMap_nil]
    simp only [Chimes.onFire, List.reverse_append, hlast]
    cases announcement z (voiceClockConfig raw) second (beats z first (n + 1)) <;> rfl

theorem onTime_run (hz : QuarterOffsets z) (hsecond : second ≤ NextBoundary z first)
    {fires : List Fire} {s t : State} {n : Nat} (hs : OnTime z first second raw n s)
    (hpunctual : (loop z).Along (Punctual z raw) s fires)
    (hrun : (loop z).run s fires = some t) : OnTime z first second raw (n + fires.length) t := by
  induction fires generalizing s n with
  | nil =>
      cases hrun
      exact hs
  | cons f fires ih =>
      obtain ⟨s', hstep, hrest⟩ := System.run_cons_eq_some.mp hrun
      have hs' : OnTime z first second raw (n + 1) s' := by
        obtain ⟨-, rfl⟩ := step_eq_some.mp hstep
        exact hs.onFire hz hsecond hpunctual.1
      have := ih hs' (hpunctual.2 s' hstep) hrest
      rwa [List.length_cons, Nat.add_comm fires.length, ← Nat.add_assoc]

theorem OnTime.mem_sent {s : State} {n : Nat} (h : OnTime z first second raw n s) {a : Sent} :
    a ∈ s.sent ↔
      ∃ k < n, announcement z (voiceClockConfig raw) second (beats z first (k + 1)) = some a := by
  rw [← List.mem_reverse, h.sent, List.mem_filterMap]
  simp only [List.mem_range]

/-- Each quarter-hour between the connection and the pending beat has been a beat. -/
theorem OnTime.exists_beat {s : State} {n : Nat} (h : OnTime z first second raw n s)
    (hz : QuarterOffsets z) {q : Int} (hq : IsQuarter z q) (hafter : first < q)
    (hbefore : q < s.beat) : ∃ k < n, beats z first (k + 1) = q := by
  rw [h.beat, h.beats_eq hz (le_refl n)] at hbefore
  rw [isQuarter_iff hz] at hq
  have hlt : ((q - first + first % quarter) / quarter - 1).toNat < n := by
    simp only [quarter, minute] at *
    omega
  refine ⟨_, hlt, ?_⟩
  rw [h.beats_eq hz hlt.le]
  simp only [quarter, minute] at *
  omega

theorem OnTime.announced_iff {s : State} {n k : Nat} (h : OnTime z first second raw n s)
    (hk : k < n) :
    (∃ a ∈ s.sent, a.beat = beats z first (k + 1)) ↔
      ((voiceClockConfig raw).Decide z (beats z first (k + 1))).isSome = true := by
  constructor
  · rintro ⟨a, ha, hbeat⟩
    obtain ⟨l, -, hl⟩ := h.mem_sent.mp ha
    obtain ⟨ch, hdecide, rfl⟩ := Option.map_eq_some_iff.mp hl
    rw [← hbeat, Option.isSome_iff_exists]
    exact ⟨ch, hdecide⟩
  · intro hdecide
    obtain ⟨ch, hch⟩ := Option.isSome_iff_exists.mp hdecide
    exact ⟨_, h.mem_sent.mpr ⟨k, hk, Option.map_eq_some_iff.mpr ⟨ch, hch, rfl⟩⟩, rfl⟩

theorem OnTime.pairwise_sent {s : State} {n : Nat} (h : OnTime z first second raw n s)
    (hz : QuarterOffsets z) : s.sent.Pairwise fun a b => b.beat < a.beat := by
  rw [← List.pairwise_reverse, h.sent, List.pairwise_filterMap]
  apply List.pairwise_lt_range.imp_of_mem
  intro k l hk hl hlt a ha b hb
  obtain ⟨-, -, rfl⟩ := Option.map_eq_some_iff.mp ha
  obtain ⟨-, -, rfl⟩ := Option.map_eq_some_iff.mp hb
  have hk' := h.beats_eq hz (List.mem_range.mp hk).le
  have hl' := h.beats_eq hz (List.mem_range.mp hl).le
  simp only [quarter, minute] at hk' hl'
  dsimp only
  omega

private def elevenOClock : List Fire :=
  let spoken := 11 * hour - 13571428571
  [⟨spoken, none, spoken, none⟩, ⟨11 * hour + quarter, none, 11 * hour + quarter, none⟩]

end FamilyPlanner.Server.Chimes
