import Mathlib.Data.String.Basic
import FamilyPlanner.Calendar.Event
import FamilyPlanner.Foundation.Sorting

/-!
# The day-by-day schedule

One entry for each day from some weeks back to some weeks ahead, cut to sixty
days counted from the first.
-/

namespace FamilyPlanner.Calendar

open FamilyPlanner.Foundation FamilyPlanner.Foundation.Clock FamilyPlanner.Widget

/-- `sort.Slice` by text; lines of one text may end up in any order. -/
abbrev ByText := SortBy CalItem.text

def scheduleDay (z : Zone) (sort : ByText) (now : Int) (all : List CalEvent)
    (d : Int) : ScheduleDay where
  label := s!"{weekdayShort z d} {(dateAt z d).day} {monthShort (dateAt z d)}"
  today := sameDate z d now
  events := sort.sort ((all.filter fun e => occupies z e d).map fun e => item z e d)

def scheduleStart (z : Zone) (now : Int) (cfg : CalendarConfig) : Int :=
  z.addDays (dateOf z now) (int64 (-atoiDefault cfg.weeksBefore 0 * 7))

def totalDays (cfg : CalendarConfig) : Int :=
  let before := atoiDefault cfg.weeksBefore 0
  let ahead := atoiDefault cfg.weeksAhead 1
  let total := int64 (int64 (before + ahead) * 7 + 1)
  if total > 60 then 60 else total

def scheduleAt (z : Zone) (now : Int) (cfg : CalendarConfig) (i : Nat) : Int :=
  z.addDays (scheduleStart z now cfg) i

/-- `make` with a negative capacity panics. -/
def buildSchedule (z : Zone) (sort : ByText) (now : Int) (all : List CalEvent)
    (cfg : CalendarConfig) : Option (List ScheduleDay) :=
  if totalDays cfg < 0 then none
  else
    some ((List.range (totalDays cfg).toNat).map fun i =>
      scheduleDay z sort now all (scheduleAt z now cfg i))

/-- The entries are of consecutive dates, and one of them is flagged: now's. -/
structure HasToday (z : Zone) (sort : ByText) (now : Int) (all : List CalEvent)
    (cfg : CalendarConfig) (days : List ScheduleDay) : Prop where
  entries : days = (List.range days.length).map fun i =>
    scheduleDay z sort now all (scheduleAt z now cfg i)
  consecutive : ∀ i < days.length,
    z.dayOf (scheduleAt z now cfg i) = z.dayOf (scheduleAt z now cfg 0) + i
  today : ∃ i < days.length, z.dayOf (scheduleAt z now cfg i) = z.dayOf now ∧
    ∀ j, (days[j]?.map (·.today)) = some true ↔ j = i

def BeforeCut (z : Zone) (now : Int) (cfg : CalendarConfig) : Prop :=
  z.dayOf (scheduleStart z now cfg) ≤ z.dayOf now ∧
    z.dayOf now < z.dayOf (scheduleStart z now cfg) + totalDays cfg

def entryWall (z : Zone) (now : Int) (cfg : CalendarConfig) (i : Nat) : Int :=
  z.wall (scheduleStart z now cfg) + i * day

theorem entryWall_div (z : Zone) (now : Int) (cfg : CalendarConfig) (i : Nat) :
    entryWall z now cfg i / day = z.dayOf (scheduleStart z now cfg) + i := by
  rw [entryWall, Zone.dayOf, Int.add_mul_ediv_right _ _ (by decide)]

theorem dayOf_scheduleAt_zero {z : Zone} {now : Int} {cfg : CalendarConfig}
    (hfirst : z.Reaches (z.wall (scheduleStart z now cfg))) :
    z.dayOf (scheduleAt z now cfg 0) = z.dayOf (scheduleStart z now cfg) := by
  have hzero : z.wall (scheduleStart z now cfg) + ((0 : Nat) : Int) * day =
      z.wall (scheduleStart z now cfg) := by omega
  rw [scheduleAt, Zone.addDays, hzero, Zone.dayOf, Zone.wall_resolve hfirst, Zone.dayOf]

theorem buildSchedule_eq_some {z : Zone} {sort : ByText} {now : Int}
    {all : List CalEvent} {cfg : CalendarConfig} {days : List ScheduleDay} :
    buildSchedule z sort now all cfg = some days ↔
      0 ≤ totalDays cfg ∧ (List.range (totalDays cfg).toNat).map (fun i =>
        scheduleDay z sort now all (scheduleAt z now cfg i)) = days := by
  unfold buildSchedule
  split
  case isTrue h => simp [not_le.mpr h]
  case isFalse h => simp [not_lt.mp h]

theorem flag_iff {z : Zone} {sort : ByText} {now : Int} {all : List CalEvent}
    {cfg : CalendarConfig} {n j : Nat} :
    ((List.range n).map fun i =>
        scheduleDay z sort now all (scheduleAt z now cfg i))[j]?.map (·.today) =
        some true ↔
      j < n ∧ z.dayOf (scheduleAt z now cfg j) = z.dayOf now := by
  rw [List.getElem?_map]
  by_cases hj : j < n
  · rw [List.getElem?_range hj]
    simp only [Option.map_some, Option.some.injEq, scheduleDay, sameDate_iff, hj,
      true_and]
  · rw [List.getElem?_eq_none (by simpa using hj)]
    simp [hj]

theorem schedule_today_iff {z : Zone} {now : Int} {cfg : CalendarConfig}
    (hfirst : z.Reaches (z.wall (scheduleStart z now cfg))) (sort : ByText)
    (all : List CalEvent) :
    (∃ days, buildSchedule z sort now all cfg = some days ∧
        HasToday z sort now all cfg days) ↔
      BeforeCut z now cfg ∧
        ∀ i < (totalDays cfg).toNat, z.Keeps (entryWall z now cfg i) := by
  have hzero := dayOf_scheduleAt_zero hfirst
  have hkeeps : ∀ i : Nat, z.Keeps (entryWall z now cfg i) ↔
      z.dayOf (scheduleAt z now cfg i) = z.dayOf (scheduleStart z now cfg) + i := by
    intro i
    rw [Zone.Keeps, entryWall_div]
    rfl
  simp only [hkeeps]
  constructor
  · rintro ⟨days, hbuild, -, hconsecutive, i, hi, htoday, -⟩
    obtain ⟨hcapacity, rfl⟩ := buildSchedule_eq_some.mp hbuild
    simp only [List.length_map, List.length_range] at hconsecutive hi
    rw [hconsecutive i hi, hzero] at htoday
    refine ⟨⟨?_, ?_⟩, fun j hj => ?_⟩
    · omega
    · omega
    · rw [← hzero]
      exact hconsecutive j hj
  · rintro ⟨⟨hfirst, hcut⟩, hdates⟩
    refine ⟨_, buildSchedule_eq_some.mpr ⟨by omega, rfl⟩, by simp, ?_, ?_⟩
    · intro i hi
      rw [List.length_map, List.length_range] at hi
      rw [hzero]
      exact hdates i hi
    · refine ⟨(z.dayOf now - z.dayOf (scheduleStart z now cfg)).toNat, ?_, ?_, ?_⟩
      · rw [List.length_map, List.length_range]
        omega
      · rw [hdates _ (by omega)]
        omega
      · intro j
        rw [flag_iff]
        constructor
        · rintro ⟨hj, hday⟩
          rw [hdates j hj] at hday
          omega
        · rintro rfl
          refine ⟨by omega, ?_⟩
          rw [hdates _ (by omega)]
          omega

/-! ## Where the clock shows the dates -/

/-- The wall time of the first entry, in the 64 bits of the weeks and the seconds. -/
def firstWall (z : Zone) (now : Int) (cfg : CalendarConfig) : Int :=
  unix64 ((z.dayOf now + int64 (-atoiDefault cfg.weeksBefore 0 * 7)) * day)

/-- The clock shows today's midnight and the wall times of the first entry and of
those less than sixty days from today. -/
structure EntriesReached (z : Zone) (now : Int) (cfg : CalendarConfig) : Prop where
  today : z.Shown (z.dayOf now * day)
  first : z.Reaches (firstWall z now cfg)
  near : ∀ i < (totalDays cfg).toNat,
    |(firstWall z now cfg + i * day) / day - z.dayOf now| < 60 →
      z.Reaches (firstWall z now cfg + i * day)

/-- Neither the weeks that `buildSchedule` adds up nor the seconds overflow. -/
def ScheduleFits (z : Zone) (now : Int) (cfg : CalendarConfig) : Prop :=
  (atoiDefault cfg.weeksBefore 0 + atoiDefault cfg.weeksAhead 1) * 7 + 1 < 2 ^ 63 ∧
    unix64 ((z.dayOf now - 7 * atoiDefault cfg.weeksBefore 0) * day) =
      (z.dayOf now - 7 * atoiDefault cfg.weeksBefore 0) * day

instance (z : Zone) (now : Int) (cfg : CalendarConfig) :
    Decidable (ScheduleFits z now cfg) :=
  inferInstanceAs (Decidable (_ ∧ _))

section Reached

variable {z : Zone} {now : Int} {cfg : CalendarConfig}

theorem wall_scheduleStart (hz : EntriesReached z now cfg) :
    z.wall (scheduleStart z now cfg) = firstWall z now cfg := by
  rw [scheduleStart, dateOf_eq, Zone.addDays, Zone.midnight, Zone.wall_date hz.today,
    ← Int.add_mul, Zone.resolve, ← firstWall, hz.first.fits_date,
    Zone.wall_date hz.first.shown]

theorem totalDays_le (cfg : CalendarConfig) : totalDays cfg ≤ 60 := by
  simp only [totalDays]
  omega

theorem schedule_cut_iff (hz : EntriesReached z now cfg) (sort : ByText)
    (all : List CalEvent) :
    (∃ days, buildSchedule z sort now all cfg = some days ∧
        HasToday z sort now all cfg days) ↔ BeforeCut z now cfg := by
  have hwall := wall_scheduleStart hz
  have htotal := totalDays_le cfg
  have hfirst : z.Reaches (z.wall (scheduleStart z now cfg)) := by
    rw [hwall]
    exact hz.first
  rw [schedule_today_iff hfirst]
  apply and_iff_left_of_imp
  rintro ⟨hlow, hhigh⟩ i hi
  have hdiv := entryWall_div z now cfg i
  have hreached : z.Reaches (entryWall z now cfg i) := by
    rw [entryWall, hwall]
    rw [entryWall, hwall] at hdiv
    apply hz.near i hi
    rw [hdiv, abs_lt]
    omega
  exact Zone.keeps_of_reaches hreached

theorem dayOf_scheduleStart (hz : EntriesReached z now cfg)
    (hcfg : ScheduleFits z now cfg) :
    z.dayOf (scheduleStart z now cfg) =
      z.dayOf now - 7 * atoiDefault cfg.weeksBefore 0 := by
  have hbefore := weeksBefore_nonneg cfg
  have hahead := weeksAhead_nonneg cfg
  obtain ⟨hweeks, hseconds⟩ := hcfg
  have hday : z.dayOf now + -atoiDefault cfg.weeksBefore 0 * 7 =
      z.dayOf now - 7 * atoiDefault cfg.weeksBefore 0 := by omega
  rw [Zone.dayOf, wall_scheduleStart hz, firstWall, int64_eq (by omega) (by omega),
    hday, hseconds]
  exact Int.mul_ediv_cancel _ (by decide)

theorem totalDays_eq (cfg : CalendarConfig)
    (hcfg : (atoiDefault cfg.weeksBefore 0 + atoiDefault cfg.weeksAhead 1) * 7 + 1 <
      2 ^ 63) :
    totalDays cfg = min 60
      (7 * (atoiDefault cfg.weeksBefore 0 + atoiDefault cfg.weeksAhead 1) + 1) := by
  have hbefore := weeksBefore_nonneg cfg
  have hahead := weeksAhead_nonneg cfg
  simp only [totalDays]
  rw [int64_eq (n := atoiDefault cfg.weeksBefore 0 + atoiDefault cfg.weeksAhead 1)
    (by omega) (by omega), int64_eq (by omega) (by omega)]
  omega

theorem beforeCut_iff (hz : EntriesReached z now cfg) (hcfg : ScheduleFits z now cfg) :
    BeforeCut z now cfg ↔ atoiDefault cfg.weeksBefore 0 ≤ 8 := by
  have hbefore := weeksBefore_nonneg cfg
  have hahead := weeksAhead_nonneg cfg
  rw [BeforeCut, dayOf_scheduleStart hz hcfg, totalDays_eq cfg hcfg.1]
  omega

end Reached

/--
Today is in the schedule iff it is before the cut and no entry's wall time is
skipped onto another date.  Where the clock shows those around today the cut
alone decides, and without overflow it spares at most eight weeks before.
-/
theorem schedule_has_today_iff (z : Zone) (sort : ByText) (now : Int)
    (all : List CalEvent) (cfg : CalendarConfig) :
    (z.Reaches (z.wall (scheduleStart z now cfg)) →
      ((∃ days, buildSchedule z sort now all cfg = some days ∧
          HasToday z sort now all cfg days) ↔
        BeforeCut z now cfg ∧
          ∀ i < (totalDays cfg).toNat, z.Keeps (entryWall z now cfg i))) ∧
    (EntriesReached z now cfg →
      ((∃ days, buildSchedule z sort now all cfg = some days ∧
          HasToday z sort now all cfg days) ↔ BeforeCut z now cfg)) ∧
    (EntriesReached z now cfg → ScheduleFits z now cfg →
      ((∃ days, buildSchedule z sort now all cfg = some days ∧
          HasToday z sort now all cfg days) ↔
        atoiDefault cfg.weeksBefore 0 ≤ 8)) := by
  refine ⟨fun hfirst => schedule_today_iff hfirst sort all,
    fun hz => schedule_cut_iff hz sort all, fun hz hcfg => ?_⟩
  rw [schedule_cut_iff hz, beforeCut_iff hz hcfg]

theorem entriesReached_fixed {now : Int} {cfg : CalendarConfig}
    (hfirst : Zone.Near (firstWall (.fixed 0) now cfg / day))
    (hlast : Zone.Near (firstWall (.fixed 0) now cfg / day + 60)) :
    EntriesReached (.fixed 0) now cfg := by
  have hoffset : -day ≤ 0 ∧ 0 ≤ day := by decide
  have htotal := totalDays_le cfg
  refine ⟨Zone.fixed_shown _, Zone.fixed_reaches hoffset hfirst, ?_⟩
  intro i hi _
  apply Zone.fixed_reaches hoffset
  rw [Int.add_mul_ediv_right _ _ (by decide)]
  unfold Zone.Near at *
  omega

def nineWeeks : CalendarConfig := ⟨"", "days", "9", "0", "", ""⟩

/-- So many weeks that their seconds overflow, to six days back. -/
def overflowing : CalendarConfig := ⟨"", "days", "20587884010836554", "0", "", ""⟩

/-- Of nine weeks the schedule does not reach today, of these many it does. -/
theorem schedule_has_today_iff_nine :
    (∃ days, buildSchedule (.fixed 0) (.stable _) 0 [] overflowing = some days ∧
        HasToday (.fixed 0) (.stable _) 0 [] overflowing days) ∧
    (∀ i < (totalDays overflowing).toNat,
      (Zone.fixed 0).Keeps (entryWall (.fixed 0) 0 overflowing i)) ∧
    ((∃ days, buildSchedule (.fixed 0) (.stable _) 0 [] nineWeeks = some days ∧
        HasToday (.fixed 0) (.stable _) 0 [] nineWeeks days) ↔
      atoiDefault nineWeeks.weeksBefore 0 ≤ 8) := by
  have hover : EntriesReached (.fixed 0) 0 overflowing :=
    entriesReached_fixed (by decide +kernel) (by decide +kernel)
  have hnine : EntriesReached (.fixed 0) 0 nineWeeks :=
    entriesReached_fixed (by decide +kernel) (by decide +kernel)
  obtain ⟨hkeeps, hcut, -⟩ :=
    schedule_has_today_iff (.fixed 0) (.stable _) 0 [] overflowing
  have htoday := (hcut hover).mpr ⟨by decide +kernel, by decide +kernel⟩
  have hfirst := hover.first
  rw [← wall_scheduleStart hover] at hfirst
  refine ⟨htoday, ((hkeeps hfirst).mp htoday).2, ?_⟩
  exact (schedule_has_today_iff (.fixed 0) (.stable _) 0 [] nineWeeks).2.2 hnine
    (by decide +kernel)

/-- Nine weeks back there are sixty days, and none of them is today. -/
theorem schedule_misses_today :
    (buildSchedule (.fixed 0) (.stable _) 0 [] nineWeeks).map
        (fun days => (days.length, days.any (·.today))) = some (60, false) ∧
      ¬ ∃ days, buildSchedule (.fixed 0) (.stable _) 0 [] nineWeeks = some days ∧
        HasToday (.fixed 0) (.stable _) 0 [] nineWeeks days := by
  refine ⟨by decide +kernel, ?_⟩
  rw [schedule_cut_iff (entriesReached_fixed (by decide +kernel) (by decide +kernel))]
  rintro ⟨-, hcut⟩
  exact absurd hcut (by decide +kernel)

end FamilyPlanner.Calendar
