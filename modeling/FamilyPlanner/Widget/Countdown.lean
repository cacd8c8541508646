import FamilyPlanner.Calendar.Stamp

/-!
# The countdown

Days are counted between midnights of UTC, as a duration of 64 bits, and the
count is kept until the local midnight.
-/

namespace FamilyPlanner.Widget.Countdown

open FamilyPlanner.Foundation FamilyPlanner.Foundation.Clock FamilyPlanner.Calendar

structure CountdownConfig where
  title : String
  date : String
  time : String
  precision : String
  deriving DecidableEq, Repr

structure CountdownData where
  title : String
  daysLeft : Int
  today : Bool
  precision : String
  targetUnix : Int
  deriving DecidableEq, Repr

/-- `Time.Sub` gives the longest duration there is for one that is longer. -/
def sub (t u : Int) : Int := max (-9223372036854775808) (min 9223372036854775807 (t - u))

/-- `int(d.Hours() / 24)`: of whole days the floats are exact, and the longest
durations end well within a day. -/
def wholeDays (d : Int) : Int := d.tdiv day

def daysLeft (z : Zone) (now target : Int) : Int :=
  let today := (dateAt z now).number * day
  let tgt := (dateAt z target).number * day
  wholeDays (sub tgt today)

def ttl (z : Zone) (now : Int) : Int :=
  let nextDay := z.date (((dateAt z now).number + 1) * day)
  min hour (sub nextDay now)

/-- `countdownProvider.Fetch` -/
def fetch (z : Zone) (now : Int) (cfg : CountdownConfig) : Option (CountdownData × Int) :=
  match parseDay cfg.date with
  | none => none
  | some date =>
      let target := z.midnight date.number
      let days := daysLeft z now target
      let clock := (parseTimeOfDay cfg.time).getD (0, 0)
      let targetAt := z.date ((dateAt z target).number * day +
        (clock.1 * hour + clock.2 * minute))
      some (
        { title := cfg.title
          daysLeft := days
          today := days = 0
          precision := if cfg.precision = "dhms" then "dhms" else "days"
          targetUnix := targetAt / second },
        ttl z now)

/-! ## Long durations -/

def longest : Int := 106751

theorem wholeDays_sub (m n : Int) :
    wholeDays (sub (m * day) (n * day)) = max (-longest) (min longest (m - n)) := by
  have hsub : m * day - n * day = (m - n) * day := (Int.sub_mul m n day).symm
  rw [wholeDays, sub, hsub]
  generalize m - n = k
  by_cases hfar : longest < k
  · have hlong : max (-9223372036854775808) (min 9223372036854775807 (k * day)) =
        9223372036854775807 := by
      simp only [longest, day] at hfar ⊢
      omega
    rw [hlong, min_eq_left (le_of_lt hfar)]
    decide
  · by_cases hpast : k < -longest
    · have hlong : max (-9223372036854775808) (min 9223372036854775807 (k * day)) =
          -9223372036854775808 := by
        simp only [longest, day] at hpast ⊢
        omega
      rw [hlong, min_eq_right (not_lt.mp hfar), max_eq_left (le_of_lt hpast)]
      decide
    · have hshort : max (-9223372036854775808) (min 9223372036854775807 (k * day)) =
          k * day := by
        simp only [longest, day] at hfar hpast ⊢
        omega
      rw [hshort, min_eq_right (not_lt.mp hfar), max_eq_right (not_lt.mp hpast)]
      exact Int.mul_tdiv_cancel k (by decide)

def Alike (k k' : Int) : Prop := k' = k ∨ k = longest ∧ k < k' ∨ k = -longest ∧ k' < k

theorem shown_iff {k k' : Int} : max (-longest) (min longest k') = k ↔
    (-longest ≤ k ∧ k ≤ longest) ∧ Alike k k' := by
  simp only [Alike, longest]
  omega

section Zone

variable {z : Zone} {now : Int}

theorem daysLeft_eq (z : Zone) (now n : Int) : daysLeft z now (z.midnight n) =
    max (-longest) (min longest (z.dayOf (z.midnight n) - z.dayOf now)) := by
  rw [daysLeft, dateAt, dateAt, number_civil, number_civil, wholeDays_sub]

def Cached (z : Zone) (now t : Int) : Prop := now ≤ t ∧ t < now + ttl z now

theorem cached_iff {t : Int} : Cached z now t ↔
    now ≤ t ∧ t < now + hour ∧ t < z.midnight (z.dayOf now + 1) := by
  rw [Cached, ttl, dateAt, number_civil]
  change _ ∧ t < now + min hour (sub (z.midnight (z.dayOf now + 1)) now) ↔ _
  simp only [sub, hour]
  omega

end Zone

/-- What is shown is the number of days from the local date to the target's, and
stays so as long as it is kept. -/
def CountsRight (z : Zone) (now : Int) (cfg : CountdownConfig) (target : Int) : Prop :=
  ∃ data lifetime, fetch z now cfg = some (data, lifetime) ∧
    data.daysLeft = target - z.dayOf now ∧
    (data.today = true ↔ target - z.dayOf now = 0) ∧
    ∀ t, now ≤ t → t < now + lifetime →
      ∃ data' lifetime', fetch z t cfg = some (data', lifetime') ∧
        data'.daysLeft = data.daysLeft

/-- The target is within reach of a duration, its midnight is on its own date, and
the date does not change before the local midnight; at the limit a date beyond it
shows the same. -/
structure InReach (z : Zone) (now target : Int) : Prop where
  near : -longest ≤ target - z.dayOf now ∧ target - z.dayOf now ≤ longest
  dated : Alike (target - z.dayOf now) (z.dayOf (z.midnight target) - z.dayOf now)
  kept : ∀ t, now ≤ t → t < now + hour → t < z.midnight (z.dayOf now + 1) →
    Alike (target - z.dayOf now) (z.dayOf (z.midnight target) - z.dayOf t)

section Fetch

variable {z : Zone} {now : Int} {cfg : CountdownConfig} {date : Date}

theorem fetch_days (hdate : parseDay cfg.date = some date) (z : Zone) (t : Int) :
    ∃ data, fetch z t cfg = some (data, ttl z t) ∧
      data.daysLeft = daysLeft z t (z.midnight date.number) ∧
      (data.today = true ↔ data.daysLeft = 0) := by
  rw [fetch, hdate]
  refine ⟨_, rfl, rfl, ?_⟩
  simp

theorem countsRight_iff_days (hdate : parseDay cfg.date = some date) :
    CountsRight z now cfg date.number ↔
      daysLeft z now (z.midnight date.number) = date.number - z.dayOf now ∧
      ∀ t, Cached z now t →
        daysLeft z t (z.midnight date.number) = date.number - z.dayOf now := by
  obtain ⟨data, hfetch, hdays, htoday⟩ := fetch_days hdate z now
  constructor
  · rintro ⟨data', lifetime, hfetch', hright, -, hkept⟩
    rw [hfetch] at hfetch'
    cases hfetch'
    refine ⟨hdays.symm.trans hright, ?_⟩
    rintro t ⟨hle, hlt⟩
    obtain ⟨later, lifetime', hlater, hsame⟩ := hkept t hle hlt
    obtain ⟨later', hlater', hdays', -⟩ := fetch_days hdate z t
    rw [hlater] at hlater'
    cases hlater'
    rw [← hdays', hsame, hright]
  · rintro ⟨hright, hkept⟩
    refine ⟨data, ttl z now, hfetch, hdays.trans hright, ?_, ?_⟩
    · rw [htoday, hdays, hright]
    · intro t hle hlt
      obtain ⟨later, hlater, hdays', -⟩ := fetch_days hdate z t
      exact ⟨later, ttl z t, hlater, by rw [hdays', hkept t ⟨hle, hlt⟩, hdays, hright]⟩

theorem countsRight_iff_inReach (hdate : parseDay cfg.date = some date) :
    CountsRight z now cfg date.number ↔ InReach z now date.number := by
  rw [countsRight_iff_days hdate]
  simp only [daysLeft_eq, shown_iff, cached_iff]
  constructor
  · rintro ⟨⟨hnear, hdated⟩, hkept⟩
    refine ⟨hnear, hdated, ?_⟩
    intro t hle hhour hday
    exact (hkept t ⟨hle, hhour, hday⟩).2
  · rintro ⟨hnear, hdated, hkept⟩
    refine ⟨⟨hnear, hdated⟩, ?_⟩
    rintro t ⟨hle, hhour, hday⟩
    exact ⟨hnear, hkept t hle hhour hday⟩

end Fetch

/-- The dates do not go back around now, tomorrow begins with its midnight, and the
target's midnight is on its date. -/
structure Ordinary (z : Zone) (now target : Int) : Prop where
  ordered : z.Ordered now
  tomorrow : z.dayOf (z.midnight (z.dayOf now + 1)) = z.dayOf now + 1
  ends : z.Ordered (z.midnight (z.dayOf now + 1))
  first : IsFirst z (z.midnight (z.dayOf now + 1))
  target : z.dayOf (z.midnight target) = target

theorem inReach_iff {z : Zone} {now target : Int} (hz : Ordinary z now target) :
    InReach z now target ↔
      -longest ≤ target - z.dayOf now ∧ target - z.dayOf now ≤ longest := by
  constructor
  · exact InReach.near
  · intro hnear
    refine ⟨hnear, .inl (by rw [hz.target]), ?_⟩
    intro t hle _ hday
    have hsame : z.dayOf t = z.dayOf now := by
      have hlow := hz.ordered.future t hle
      have hhigh := hz.ends.past t (le_of_lt hday)
      have hnext := hz.first t hday
      rw [hz.tomorrow] at hhigh hnext
      omega
    exact .inl (by rw [hz.target, hsame])

/--
The countdown is right if and only if the target is in reach, which is a matter of
the distance alone on ordinary dates.
-/
theorem countsRight_iff {z : Zone} {now : Int} {cfg : CountdownConfig} {date : Date}
    (hdate : parseDay cfg.date = some date) :
    (CountsRight z now cfg date.number ↔ InReach z now date.number) ∧
      (Ordinary z now date.number →
        (CountsRight z now cfg date.number ↔
          -longest ≤ date.number - z.dayOf now ∧ date.number - z.dayOf now ≤ longest)) := by
  refine ⟨countsRight_iff_inReach hdate, ?_⟩
  intro hz
  rw [countsRight_iff_inReach hdate, inReach_iff hz]

/-! ## A holiday and the last of the accepted dates -/

theorem fixed_ordinary (offset now target : Int) :
    Ordinary (.fixed offset) now target := by
  have hday : ∀ n, (Zone.fixed offset).dayOf ((Zone.fixed offset).midnight n) = n :=
    fun n => Zone.dayOf_midnight (Zone.fixed_shown _)
  refine ⟨Zone.fixed_ordered _, hday _, Zone.fixed_ordered _, ?_, hday _⟩
  intro t ht hsame
  rw [hday] at hsame
  simp only [Zone.midnight, Zone.fixed, Zone.dayOf, Zone.wall, day] at ht hsame
  omega

private def holiday : CountdownConfig := ⟨"Zee", "2026-08-01", "", "days"⟩

/-- On 21 July 2026 in UTC the holiday is eleven days away. -/
theorem countsRight_iff_holiday :
    CountsRight (.fixed 0) (20655 * day + 10 * hour) holiday 20666 := by
  have hdate : parseDay holiday.date = some ⟨24319, 1, by decide, by decide⟩ := by decide
  have hnumber : (⟨24319, 1, by decide, by decide⟩ : Date).number = 20666 := by decide
  have hday : (Zone.fixed 0).dayOf (20655 * day + 10 * hour) = 20655 := by decide
  rw [← hnumber]
  apply ((countsRight_iff hdate).2 (fixed_ordinary 0 _ _)).mpr
  rw [hnumber, hday]
  decide

private def farAway : CountdownConfig := ⟨"Jaar 9999", "9999-12-31", "", "days"⟩

/-- The number of days is cut off at that of the longest duration. -/
theorem countdown_cut : ∃ data lifetime,
    fetch (.fixed 0) (20655 * day) farAway = some (data, lifetime) ∧
      data.daysLeft = 106751 ∧
      parseDay farAway.date = some ⟨119999, 31, by decide, by decide⟩ ∧
      (⟨119999, 31, by decide, by decide⟩ : Date).number = 2932896 ∧
      ¬ CountsRight (.fixed 0) (20655 * day) farAway 2932896 := by
  have hdate : parseDay farAway.date = some ⟨119999, 31, by decide, by decide⟩ := by decide
  have hnumber : (⟨119999, 31, by decide, by decide⟩ : Date).number = 2932896 := by decide
  have hday : (Zone.fixed 0).dayOf (20655 * day) = 20655 := by decide
  obtain ⟨data, hfetch, hdays, -⟩ := fetch_days hdate (.fixed 0) (20655 * day)
  have hcut : data.daysLeft = 106751 := by
    rw [hdays, daysLeft_eq, hnumber, hday,
      Zone.dayOf_midnight (Zone.fixed_shown _)]
    decide
  refine ⟨data, _, hfetch, hcut, hdate, hnumber, ?_⟩
  rintro ⟨data', lifetime', hfetch', hright, -⟩
  rw [hfetch] at hfetch'
  cases hfetch'
  rw [hcut, hday] at hright
  revert hright
  decide

end FamilyPlanner.Widget.Countdown
