import Mathlib.Logic.Function.Iterate
import FamilyPlanner.Foundation.Zone

/-!
# The next quarter-hour

`NextBoundary` rebuilds the start of the running quarter-hour from the fields
of the wall clock and lets `time.Date` resolve it.  Around a clock change that
may be another instant than the one the fields were read from.
-/

namespace FamilyPlanner.VoiceClock

open FamilyPlanner.Foundation FamilyPlanner.Foundation.Clock

def quarter : Int := 15 * minute

def quarterStart (z : Zone) (now : Int) : Int :=
  let q := z.minuteOf now / 15
  z.dayOf now * day + z.hourOf now * hour + q * 15 * minute

def NextBoundary (z : Zone) (now : Int) : Int :=
  let b := z.date (quarterStart z now)
  if b > now then b else b + 15 * minute

def IsQuarter (z : Zone) (t : Int) : Prop :=
  z.minuteOf t ∈ [0, 15, 30, 45] ∧ z.secondOf t = 0 ∧ z.nanosecondOf t = 0

instance (z : Zone) (t : Int) : Decidable (IsQuarter z t) :=
  inferInstanceAs (Decidable (_ ∧ _))

structure FirstQuarter (z : Zone) (now next : Int) : Prop where
  after : now < next
  quarter : IsQuarter z next
  first : ∀ t, IsQuarter z t → now < t → next ≤ t

/-- Every offset of the zone is a multiple of a quarter of an hour. -/
def QuarterOffsets (z : Zone) : Prop := ∀ t, z.offset t % VoiceClock.quarter = 0

theorem quarterStart_eq (z : Zone) (now : Int) :
    quarterStart z now = z.wall now - z.wall now % quarter := by
  simp only [quarterStart, Zone.dayOf, Zone.hourOf, Zone.minuteOf, day, hour,
    minute, quarter]
  omega

theorem isQuarter_iff_wall {z : Zone} {t : Int} :
    IsQuarter z t ↔ z.wall t % quarter = 0 := by
  simp only [IsQuarter, Zone.minuteOf, Zone.secondOf, Zone.nanosecondOf, minute,
    second, quarter, List.mem_cons, List.not_mem_nil, or_false]
  omega

theorem isQuarter_iff {z : Zone} (hz : QuarterOffsets z) {t : Int} :
    IsQuarter z t ↔ t % quarter = 0 := by
  have hoff := hz t
  rw [isQuarter_iff_wall]
  simp only [Zone.wall, quarter, minute] at *
  omega

theorem firstQuarter_iff {z : Zone} (hz : QuarterOffsets z) {now next : Int} :
    FirstQuarter z now next ↔ next = now - now % quarter + quarter := by
  constructor
  · rintro ⟨hafter, hquarter, hfirst⟩
    have hle := hfirst (now - now % quarter + quarter)
    rw [isQuarter_iff hz] at hquarter hle
    simp only [quarter, minute] at *
    omega
  · intro h
    subst h
    refine ⟨?_, ?_, ?_⟩
    · simp only [quarter, minute]
      omega
    · rw [isQuarter_iff hz]
      simp only [quarter, minute]
      omega
    · intro t ht hlt
      rw [isQuarter_iff hz] at ht
      simp only [quarter, minute] at *
      omega

/--
`time.Date` resolves the start of the quarter-hour at the offset in force now,
or at one a quarter-hour smaller.
-/
def Resolved (z : Zone) (now : Int) : Prop :=
  z.date (quarterStart z now) = quarterStart z now - z.offset now ∨
    z.date (quarterStart z now) = quarterStart z now - (z.offset now - quarter)

instance (z : Zone) (now : Int) : Decidable (Resolved z now) :=
  inferInstanceAs (Decidable (_ ∨ _))

theorem firstQuarter_nextBoundary_iff {z : Zone} (hz : QuarterOffsets z)
    (now : Int) : FirstQuarter z now (NextBoundary z now) ↔ Resolved z now := by
  obtain ⟨t, ht⟩ := z.date_offset (quarterStart z now)
  have hresolved := hz t
  have hnow := hz now
  have hstart := quarterStart_eq z now
  rw [firstQuarter_iff hz]
  unfold NextBoundary Resolved
  simp only [Zone.wall, quarter, minute] at *
  split <;> omega

/-- Away from a clock change, the start of the quarter-hour is shown once. -/
theorem resolved_of_shown_once {z : Zone} {now : Int}
    (hshown : z.wall (quarterStart z now - z.offset now) = quarterStart z now)
    (honce : ∀ t, z.wall t = quarterStart z now →
      t = quarterStart z now - z.offset now) : Resolved z now :=
  Or.inl (honce _ (Zone.wall_date ⟨_, hshown⟩))

def beats (z : Zone) (start : Int) (n : Nat) : Int := (NextBoundary z)^[n] start

theorem beats_succ (z : Zone) (start : Int) (n : Nat) :
    beats z start (n + 1) = NextBoundary z (beats z start n) :=
  Function.iterate_succ_apply' ..

theorem nextBoundary_mod {z : Zone} (hz : QuarterOffsets z) (now : Int) :
    NextBoundary z now % quarter = 0 := by
  obtain ⟨t, ht⟩ := z.date_offset (quarterStart z now)
  have hresolved := hz t
  have hstart := quarterStart_eq z now
  unfold NextBoundary
  simp only [Zone.wall, quarter, minute] at *
  split <;> omega

/-- The beats rise and meet every quarter-hour after the start once. -/
structure Complete (z : Zone) (start : Int) : Prop where
  rising : StrictMono (beats z start)
  once : ∀ t, IsQuarter z t → start < t → ∃! n, beats z start (n + 1) = t

theorem beats_eq {z : Zone} (hz : QuarterOffsets z) {start : Int} {n : Nat}
    (h : ∀ k ≤ n, Resolved z (beats z start k)) :
    beats z start (n + 1) = start - start % quarter + (n + 1) * quarter := by
  have hnext : beats z start (n + 1) =
      beats z start n - beats z start n % quarter + quarter := by
    rw [beats_succ]
    exact (firstQuarter_iff hz).mp ((firstQuarter_nextBoundary_iff hz _).mpr (h n (le_refl n)))
  induction n with
  | zero =>
      rw [hnext]
      simp only [beats, Function.iterate_zero, id]
      omega
  | succ n ih =>
      have hprev : beats z start (n + 1) = start - start % quarter + (n + 1) * quarter := by
        apply ih fun k hk => h k (Nat.le_succ_of_le hk)
        rw [beats_succ]
        exact (firstQuarter_iff hz).mp
          ((firstQuarter_nextBoundary_iff hz _).mpr (h n (Nat.le_succ n)))
      rw [hnext, hprev]
      simp only [quarter, minute]
      omega

theorem complete_of_resolved {z : Zone} (hz : QuarterOffsets z) {start : Int}
    (h : ∀ n, Resolved z (beats z start n)) : Complete z start := by
  have heq : ∀ n, beats z start (n + 1) = start - start % quarter + (n + 1) * quarter :=
    fun n => beats_eq hz fun k _ => h k
  constructor
  · apply strictMono_nat_of_lt_succ
    intro n
    rw [beats_succ]
    exact ((firstQuarter_nextBoundary_iff hz _).mpr (h n)).after
  · intro t ht hlt
    rw [isQuarter_iff hz] at ht
    refine ⟨((t - start + start % quarter) / quarter - 1).toNat, ?_, ?_⟩
    · simp only [heq]
      simp only [quarter, minute] at *
      omega
    · intro n hn
      simp only [heq] at hn
      simp only [quarter, minute] at *
      omega

theorem resolved_of_complete {z : Zone} (hz : QuarterOffsets z) {start : Int}
    (h : Complete z start) (n : Nat) : Resolved z (beats z start n) := by
  rw [← firstQuarter_nextBoundary_iff hz, firstQuarter_iff hz, ← beats_succ]
  have hlt : beats z start n < beats z start (n + 1) :=
    h.rising (Nat.lt_succ_self n)
  have hstart : start ≤ beats z start n := h.rising.monotone (Nat.zero_le n)
  have hquarter : IsQuarter z (beats z start (n + 1)) := by
    rw [isQuarter_iff hz, beats_succ]
    exact nextBoundary_mod hz _
  -- The quarter-hour after this beat is met, and not before the next beat.
  have hnext : FirstQuarter z (beats z start n)
      (beats z start n - beats z start n % quarter + quarter) :=
    (firstQuarter_iff hz).mpr rfl
  obtain ⟨m, hm, -⟩ := h.once _ hnext.quarter (lt_of_le_of_lt hstart hnext.after)
  have hnm : n < m + 1 := by
    apply h.rising.lt_iff_lt.mp
    rw [hm]
    exact hnext.after
  have hle : beats z start (n + 1) ≤ beats z start (m + 1) :=
    h.rising.monotone hnm
  rw [hm] at hle
  exact le_antisymm hle (hnext.first _ hquarter hlt)

/-- The next boundary, and the beats of a loop, are right iff `Resolved`. -/
theorem nextBoundary_right_iff {z : Zone} (hz : QuarterOffsets z) :
    (∀ now, FirstQuarter z now (NextBoundary z now) ↔ Resolved z now) ∧
      ∀ start, Complete z start ↔ ∀ n, Resolved z (beats z start n) := by
  refine ⟨firstQuarter_nextBoundary_iff hz, fun start => ?_⟩
  constructor
  · intro h n
    exact resolved_of_complete hz h n
  · intro h
    exact complete_of_resolved hz h

/-- From UTC+2 to UTC+1 at 01:00 UTC; of the repeated hour the later instants
are taken. -/
def brussels : Zone := .change true hour (2 * hour) hour

/-- From UTC-4 to UTC-5 at 06:00 UTC; of the repeated hour the earlier instants
are taken. -/
def newYork : Zone := .change false (6 * hour) (-4 * hour) (-5 * hour)

theorem nextBoundary_right_iff_brussels :
    (∀ now, FirstQuarter brussels now (NextBoundary brussels now) ↔
        Resolved brussels now) ∧
      ∀ start, Complete brussels start ↔
        ∀ n, Resolved brussels (beats brussels start n) := by
  apply nextBoundary_right_iff
  intro t
  change (if t < hour then 2 * hour else hour) % quarter = 0
  split <;> rfl

/-- At the first 02:40 an hour of beats is skipped; at the second 01:10 the
next beat is an hour ago, and the beats go round from there. -/
theorem nextBoundary_wrong :
    ¬ FirstQuarter brussels (40 * minute) (NextBoundary brussels (40 * minute)) ∧
    NextBoundary brussels (40 * minute) = 90 * minute ∧
    NextBoundary newYork (6 * hour + 10 * minute) = 5 * hour + 15 * minute ∧
    (beats newYork (5 * hour + 15 * minute) 4 = 5 * hour + 15 * minute) := by
  refine ⟨fun h => ?_, by decide, by decide, by decide⟩
  have hle := h.first (45 * minute) (by decide) (by decide)
  exact absurd hle (by decide)

end FamilyPlanner.VoiceClock
