import FamilyPlanner.Calendar.Agenda
import FamilyPlanner.Calendar.Grid
import FamilyPlanner.Calendar.Schedule

/-!
# The window of a fetch

Recurring and Outlook events are fetched for a window of seventy days on each
side of now, which only the weeks from a fixed date widen.  The builders derive
the days they show from the configuration alone.
-/

namespace FamilyPlanner.Calendar

open FamilyPlanner.Foundation FamilyPlanner.Foundation.Clock FamilyPlanner.Widget

inductive Mode where
  | month
  | week
  | days
  | weeksAbs
  | agenda
  deriving DecidableEq, Repr

def Mode.of (mode : String) : Mode :=
  if mode = "month" then .month
  else if mode = "week" then .week
  else if mode = "days" ∨ mode = "days_table" then .days
  else if mode = "weeks_abs" then .weeksAbs
  else .agenda

/-- `expandFrom` and `expandTo` of `calendarProvider.Fetch`. -/
def window (z : Zone) (now : Int) (cfg : CalendarConfig) : Window :=
  let expandFrom := z.addDays now (-70)
  let expandTo := z.addDays now 70
  let s := parseDate z cfg.startDate
  if Mode.of cfg.mode = .weeksAbs ∧ s ≠ zeroTime then
    let wkStart := z.addDays s (-weekdayOf z s)
    let back := z.addDays wkStart (-7)
    let stop := z.addDays wkStart (absWeekCount cfg * 7 + 7)
    { expandFrom := if back < expandFrom then back else expandFrom
      expandTo := if stop > expandTo then stop else expandTo }
  else { expandFrom, expandTo }

def Displays (z : Zone) (now : Int) (cfg : CalendarConfig) (n : Int) : Prop :=
  match Mode.of cfg.mode with
  | .month => n ∈ (monthGridDays z now).flatten
  | .week => n ∈ (weekGridDays z now cfg).flatten
  | .days => ∃ i < (totalDays cfg).toNat, z.dayOf (scheduleAt z now cfg i) = n
  | .weeksAbs => n ∈ (absDays z now cfg).flatten
  | .agenda => z.dayOf (agendaSpan z now cfg).since ≤ n ∧
      n < z.dayOf (agendaSpan z now cfg).upto

def firstShown (z : Zone) (now : Int) (cfg : CalendarConfig) : Int :=
  match Mode.of cfg.mode with
  | .month => monthFirst z now
  | .week => weekGridFirst z now (atoiDefault cfg.weeksBefore 0)
  | .days => z.dayOf now - 7 * atoiDefault cfg.weeksBefore 0
  | .weeksAbs => absFirst z now cfg
  | .agenda => agendaFirst z now cfg

def daysShown (z : Zone) (now : Int) (cfg : CalendarConfig) : Int :=
  let before := atoiDefault cfg.weeksBefore 0
  let ahead := atoiDefault cfg.weeksAhead 1
  match Mode.of cfg.mode with
  | .month => 7 * monthWeeks z now
  | .week => 7 * (before + ahead + 1)
  | .days => min 60 (7 * (before + ahead) + 1)
  | .weeksAbs => 7 * absWeekCount cfg
  | .agenda => weekday (z.dayOf now) + 7 * (before + agendaAhead cfg) + 1

def lastShown (z : Zone) (now : Int) (cfg : CalendarConfig) : Int :=
  firstShown z now cfg + daysShown z now cfg - 1

def AllFetched (z : Zone) (now : Int) (cfg : CalendarConfig) : Prop :=
  ∀ n, Displays z now cfg n → ∀ t, z.dayOf t = n →
    (window z now cfg).expandFrom ≤ t ∧ t ≤ (window z now cfg).expandTo

def IsLast (z : Zone) (t : Int) : Prop := ∀ t', t < t' → z.dayOf t' ≠ z.dayOf t

/--
The days shown are between the dates seventy days before and after today; one
of these may be shown only if now's time of day is its first or last instant.
-/
structure Within (z : Zone) (now : Int) (cfg : CalendarConfig) : Prop where
  first : z.dayOf (z.addDays now (-70)) < firstShown z now cfg ∨
    z.dayOf (z.addDays now (-70)) = firstShown z now cfg ∧
      IsFirst z (z.addDays now (-70))
  last : lastShown z now cfg < z.dayOf (z.addDays now 70) ∨
    lastShown z now cfg = z.dayOf (z.addDays now 70) ∧ IsLast z (z.addDays now 70)

section Ordered

variable {z : Zone} {t n m : Int} (ht : z.Ordered t) (h : n ≤ m)

include ht h

theorem forall_from_iff (hn : z.dayOf (z.midnight n) = n) :
    (∀ u, n ≤ z.dayOf u → z.dayOf u ≤ m → t ≤ u) ↔
      z.dayOf t < n ∨ z.dayOf t = n ∧ IsFirst z t := by
  constructor
  · intro hall
    have hmid := hall (z.midnight n)
    rw [hn] at hmid
    have hle := ht.future _ (hmid le_rfl h)
    rw [hn] at hle
    obtain hlt | heq := lt_or_eq_of_le hle
    · exact Or.inl hlt
    · refine Or.inr ⟨heq, fun u hu hday => ?_⟩
      have := hall u (by omega) (by omega)
      omega
  · rintro (hlt | ⟨heq, hfirst⟩) u hu _
    · by_contra hback
      have := ht.past u (by omega)
      omega
    · by_contra hback
      have hle := ht.past u (by omega)
      exact hfirst u (by omega) (by omega)

theorem forall_to_iff (hm : z.dayOf (z.midnight m) = m) :
    (∀ u, n ≤ z.dayOf u → z.dayOf u ≤ m → u ≤ t) ↔
      m < z.dayOf t ∨ m = z.dayOf t ∧ IsLast z t := by
  constructor
  · intro hall
    have hmid := hall (z.midnight m)
    rw [hm] at hmid
    have hle := ht.past _ (hmid h le_rfl)
    rw [hm] at hle
    obtain hlt | heq := lt_or_eq_of_le hle
    · exact Or.inl hlt
    · refine Or.inr ⟨heq, fun u hu hday => ?_⟩
      have := hall u (by omega) (by omega)
      omega
  · rintro (hlt | ⟨heq, hlast⟩) u _ hu
    · by_contra hback
      have := ht.future u (by omega)
      omega
    · by_contra hback
      have hle := ht.future u (by omega)
      exact hlast u (by omega) (by omega)

end Ordered

theorem monthWeeks_pos (z : Zone) (now : Int) : 0 < monthWeeks z now := by
  obtain ⟨m, hm⟩ : ∃ m, (civil (z.dayOf now)).month = m := ⟨_, rfl⟩
  have hdays := monthDays_bounds m
  have hweekday := weekday_bounds (monthStart m)
  simp only [monthWeeks, hm]
  omega

theorem agendaFits_of_fits {cfg : CalendarConfig} (h : Fits cfg) :
    AgendaFits cfg := by
  have hbefore := weeksBefore_nonneg cfg
  have hdefault : atoiDefault cfg.weeksAhead 4 ≤
      max 4 (atoiDefault cfg.weeksAhead 1) := by
    unfold atoiDefault
    cases atoi (trimSpace cfg.weeksAhead) with
    | none => decide
    | some n =>
        simp only
        omega
  have hahead : agendaAhead cfg ≤ max 4 (atoiDefault cfg.weeksAhead 1) := by
    simp only [agendaAhead]
    omega
  have hahead' := weeksAhead_nonneg cfg
  unfold Fits at h
  unfold AgendaFits
  omega

/--
The dates in play: the instants seventy days before and after now, today, the
days shown with the one after them, and what the window of a fixed start date is
counted from and to.
-/
structure WindowInPlay (z : Zone) (now : Int) (cfg : CalendarConfig) : Prop where
  past : z.Ordered (z.addDays now (-70))
  ahead : z.Ordered (z.addDays now 70)
  today : z.Shown (z.dayOf now * day)
  shown : z.Spans (firstShown z now cfg) (lastShown z now cfg + 1)
  start : Mode.of cfg.mode = .weeksAbs →
    ∀ d, parseLayouts (trimSpace cfg.startDate).toList = some d → z.Shown (d.number * day)
  back : Mode.of cfg.mode = .weeksAbs → z.Dated (absFirst z now cfg - 7)
  stop : Mode.of cfg.mode = .weeksAbs →
    z.Dated (absFirst z now cfg + (absWeekCount cfg * 7 + 7))

theorem WindowInPlay.dayOf_scheduleAt {z : Zone} {now : Int} {cfg : CalendarConfig}
    (hz : WindowInPlay z now cfg) (hcfg : Fits cfg) (hmode : Mode.of cfg.mode = .days)
    {i : Nat} (hi : i < (totalDays cfg).toNat) :
    z.dayOf (scheduleAt z now cfg i) =
      z.dayOf now - 7 * atoiDefault cfg.weeksBefore 0 + i := by
  have hbefore := weeksBefore_nonneg cfg
  have hahead := weeksAhead_nonneg cfg
  unfold Fits at hcfg
  have htotal := totalDays_eq cfg (by omega)
  have hshown := hz.shown
  simp only [lastShown, firstShown, daysShown, hmode] at hshown
  have hday : z.dayOf now + -atoiDefault cfg.weeksBefore 0 * 7 =
      z.dayOf now - 7 * atoiDefault cfg.weeksBefore 0 := by omega
  have hfirst : z.Reaches ((z.dayOf now - 7 * atoiDefault cfg.weeksBefore 0) * day) :=
    hshown _ le_rfl (by omega)
  have hstart : scheduleStart z now cfg =
      z.midnight (z.dayOf now - 7 * atoiDefault cfg.weeksBefore 0) := by
    rw [scheduleStart, dateOf_eq, int64_eq (by omega) (by omega), ← hday]
    apply Zone.addDays_midnight hz.today
    rw [hday]
    exact hfirst
  have hentry : z.Reaches ((z.dayOf now - 7 * atoiDefault cfg.weeksBefore 0 + i) * day) :=
    hshown _ (by omega) (by omega)
  rw [scheduleAt, hstart, Zone.addDays_midnight hfirst.shown hentry,
    Zone.dayOf_midnight hentry.shown]

theorem WindowInPlay.spanReached {z : Zone} {now : Int} {cfg : CalendarConfig}
    (hz : WindowInPlay z now cfg) (hmode : Mode.of cfg.mode = .agenda) :
    SpanReached z now cfg := by
  have hbefore := weeksBefore_nonneg cfg
  have hagenda := agendaAhead_pos cfg
  have hweekday := weekday_bounds (z.dayOf now)
  have hshown := hz.shown
  simp only [lastShown, firstShown, daysShown, hmode, agendaFirst] at hshown
  refine ⟨hz.today, ?_, ?_, ?_⟩
  · exact hshown _ (by omega) (by omega)
  · unfold agendaFirst
    exact hshown _ (by omega) (by omega)
  · unfold agendaEnd
    exact hshown _ (by omega) (by omega)

theorem displays_iff {z : Zone} {now : Int} {cfg : CalendarConfig}
    (hz : WindowInPlay z now cfg) (hcfg : Fits cfg) (n : Int) :
    Displays z now cfg n ↔
      firstShown z now cfg ≤ n ∧ n ≤ lastShown z now cfg := by
  have hbefore := weeksBefore_nonneg cfg
  have hahead := weeksAhead_nonneg cfg
  have hmonth := monthWeeks_pos z now
  have hweeks := absWeekCount_bounds cfg
  simp only [Displays, lastShown, firstShown, daysShown]
  cases hmode : Mode.of cfg.mode with
  | month =>
      simp only [monthGridDays, mem_flatten_weeks]
      omega
  | week =>
      simp only [weekGridDays, mem_flatten_weeks]
      omega
  | days =>
      have hfits := hcfg
      unfold Fits at hfits
      have htotal := totalDays_eq cfg (by omega)
      simp only
      constructor
      · rintro ⟨i, hi, rfl⟩
        rw [hz.dayOf_scheduleAt hcfg hmode hi]
        omega
      · intro h
        refine ⟨(n - (z.dayOf now - 7 * atoiDefault cfg.weeksBefore 0)).toNat, ?_, ?_⟩
        · omega
        · rw [hz.dayOf_scheduleAt hcfg hmode (by omega)]
          omega
  | weeksAbs =>
      simp only [absDays, mem_flatten_weeks]
      omega
  | agenda =>
      have hspan := hz.spanReached hmode
      simp only [agendaSpan_eq hspan (agendaFits_of_fits hcfg),
        Zone.dayOf_midnight hspan.first.shown, Zone.dayOf_midnight hspan.stop.shown]
      unfold agendaFirst agendaEnd
      omega

theorem window_abs {z : Zone} {now : Int} {cfg : CalendarConfig}
    (hz : WindowInPlay z now cfg)
    (habs : Mode.of cfg.mode = .weeksAbs ∧ parseDate z cfg.startDate ≠ zeroTime) :
    (window z now cfg).expandFrom ≤ z.midnight (absFirst z now cfg - 7) ∧
      z.midnight (absFirst z now cfg + (absWeekCount cfg * 7 + 7)) ≤
        (window z now cfg).expandTo := by
  have hweeks := absWeekCount_bounds cfg
  have hbounds := weekday_bounds (absStart z now cfg)
  have hshown := hz.shown
  simp only [lastShown, firstShown, daysShown, habs.1] at hshown
  have hstart : absStart z now cfg = z.dayOf (parseDate z cfg.startDate) :=
    if_neg habs.2
  have hmonday : z.Reaches (absFirst z now cfg * day) := hshown _ le_rfl (by omega)
  have hconfigured : z.Shown (absStart z now cfg * day) := by
    apply (hshown _ _ _).shown
    · unfold absFirst
      omega
    · unfold absFirst
      omega
  have hfirst : z.addDays (parseDate z cfg.startDate)
      (-weekdayOf z (parseDate z cfg.startDate)) =
        z.midnight (absFirst z now cfg) := by
    rw [weekdayOf, parseDate_midnight (hz.start habs.1) habs.2, ← hstart,
      Zone.dayOf_midnight hconfigured]
    exact Zone.addDays_midnight hconfigured hmonday
  have hback : z.addDays (z.midnight (absFirst z now cfg)) (-7) =
      z.midnight (absFirst z now cfg - 7) :=
    Zone.addDays_midnight hmonday.shown (hz.back habs.1).midnight
  have hstop := Zone.addDays_midnight hmonday.shown (hz.stop habs.1).midnight
  simp only [window, if_pos habs, hfirst, hback, hstop]
  omega

theorem firstShown_le_last (z : Zone) (now : Int) (cfg : CalendarConfig) :
    firstShown z now cfg ≤ lastShown z now cfg := by
  have hbefore := weeksBefore_nonneg cfg
  have hahead := weeksAhead_nonneg cfg
  have hmonth := monthWeeks_pos z now
  have hweeks := absWeekCount_bounds cfg
  have hagenda := agendaAhead_pos cfg
  have hweekday := weekday_bounds (z.dayOf now)
  have hpos : 0 < daysShown z now cfg := by
    simp only [daysShown]
    cases Mode.of cfg.mode <;> simp only <;> omega
  unfold lastShown
  omega

theorem allFetched_abs {z : Zone} {now : Int} {cfg : CalendarConfig}
    (hz : WindowInPlay z now cfg) (hcfg : Fits cfg)
    (habs : Mode.of cfg.mode = .weeksAbs ∧ parseDate z cfg.startDate ≠ zeroTime) :
    AllFetched z now cfg := by
  obtain ⟨hfrom, hto⟩ := window_abs hz habs
  have hback := hz.back habs.1
  have hstop := hz.stop habs.1
  have hbackDay := hback.dayOf_midnight
  have hstopDay := hstop.dayOf_midnight
  rintro n hn t rfl
  rw [displays_iff hz hcfg] at hn
  simp only [lastShown, firstShown, daysShown, habs.1] at hn
  constructor
  · apply le_trans hfrom
    by_contra hlate
    have hday := hback.ordered.past t (by omega)
    omega
  · apply le_trans _ hto
    by_contra hearly
    have hday := hstop.ordered.future t (by omega)
    omega

/-- The days that can be displayed are fetched: always from a fixed date, else
iff they are within seventy days of today. -/
theorem allFetched_iff {z : Zone} {now : Int} {cfg : CalendarConfig}
    (hz : WindowInPlay z now cfg) (hcfg : Fits cfg) :
    AllFetched z now cfg ↔
      (Mode.of cfg.mode = .weeksAbs ∧ parseDate z cfg.startDate ≠ zeroTime) ∨
        Within z now cfg := by
  by_cases habs : Mode.of cfg.mode = .weeksAbs ∧ parseDate z cfg.startDate ≠ zeroTime
  · exact iff_of_true (allFetched_abs hz hcfg habs) (Or.inl habs)
  · have hwindow : window z now cfg = ⟨z.addDays now (-70), z.addDays now 70⟩ := by
      simp only [window, if_neg habs]
    have hle := firstShown_le_last z now cfg
    have hfirstDay := Zone.dayOf_midnight (hz.shown _ le_rfl (by omega)).shown
    have hlastDay := Zone.dayOf_midnight (hz.shown _ hle (by omega)).shown
    have hfrom := forall_from_iff hz.past hle hfirstDay
    have hto := forall_to_iff hz.ahead hle hlastDay
    have hall : AllFetched z now cfg ↔
        ∀ t, firstShown z now cfg ≤ z.dayOf t → z.dayOf t ≤ lastShown z now cfg →
          z.addDays now (-70) ≤ t ∧ t ≤ z.addDays now 70 := by
      simp only [AllFetched, displays_iff hz hcfg, hwindow]
      constructor
      · intro h t hfirst hlast
        exact h _ ⟨hfirst, hlast⟩ t rfl
      · rintro h n ⟨hfirst, hlast⟩ t rfl
        exact h t hfirst hlast
    rw [hall, or_iff_right habs]
    constructor
    · intro h
      exact ⟨hfrom.mp fun t ht ht' => (h t ht ht').1,
        hto.mp fun t ht ht' => (h t ht ht').2⟩
    · rintro ⟨hfirst, hlast⟩ t ht ht'
      exact ⟨hfrom.mpr hfirst t ht ht', hto.mpr hlast t ht ht'⟩

theorem within_of_month {z : Zone} {now : Int} {cfg : CalendarConfig}
    (hfrom : z.dayOf (z.addDays now (-70)) = z.dayOf now - 70)
    (hto : z.dayOf (z.addDays now 70) = z.dayOf now + 70)
    (hmode : Mode.of cfg.mode = .month) : Within z now cfg := by
  obtain ⟨m, hm⟩ : ∃ m, (civil (z.dayOf now)).month = m := ⟨_, rfl⟩
  obtain ⟨hstart, hnext⟩ := civil_month_eq_iff.mp hm
  have hdays := monthDays_bounds m
  have hweekday := weekday_bounds (monthStart m)
  rw [monthStart_succ] at hnext
  have hfirst : firstShown z now cfg = monthStart m - weekday (monthStart m) := by
    simp only [firstShown, hmode, monthFirst, hm]
  have hlast : lastShown z now cfg < firstShown z now cfg + 42 := by
    simp only [lastShown, daysShown, hmode, monthWeeks, hm]
    omega
  constructor
  · apply Or.inl
    omega
  · apply Or.inl
    omega

def twelveWeeks : CalendarConfig := ⟨"", "week", "", "12", "", ""⟩

theorem allFetched_iff_twelve :
    AllFetched (.fixed 0) 0 twelveWeeks ↔
      (Mode.of twelveWeeks.mode = .weeksAbs ∧
        parseDate (.fixed 0) twelveWeeks.startDate ≠ zeroTime) ∨
        Within (.fixed 0) 0 twelveWeeks := by
  have hmode : Mode.of twelveWeeks.mode = .week := by decide
  have hfirst : firstShown (.fixed 0) 0 twelveWeeks = -3 := by decide +kernel
  have hlast : lastShown (.fixed 0) 0 twelveWeeks = 87 := by decide +kernel
  have hplay : WindowInPlay (.fixed 0) 0 twelveWeeks := by
    refine ⟨Zone.fixed_ordered _, Zone.fixed_ordered _, Zone.fixed_shown _, ?_, ?_, ?_, ?_⟩
    · rw [hfirst, hlast]
      intro d hd hd'
      apply Zone.fixed_reaches (by decide)
      rw [Int.mul_ediv_cancel d (by decide)]
      unfold Zone.Near
      omega
    · exact fun _ d _ => Zone.fixed_shown _
    · rw [hmode]
      exact fun h => absurd h (by decide)
    · rw [hmode]
      exact fun h => absurd h (by decide)
  exact allFetched_iff hplay (by decide +kernel)

/-- Twelve weeks ahead the week grid shows day 87, and the window ends on day 70. -/
theorem not_allFetched :
    Displays (.fixed 0) 0 twelveWeeks 87 ∧
      (window (.fixed 0) 0 twelveWeeks).expandTo = 70 * day ∧
      ¬ AllFetched (.fixed 0) 0 twelveWeeks := by
  have hmode : Mode.of twelveWeeks.mode = .week := by decide
  have hshown : Displays (.fixed 0) 0 twelveWeeks 87 := by
    simp only [Displays, hmode]
    decide +kernel
  refine ⟨hshown, by decide +kernel, fun h => ?_⟩
  have hlate := (h 87 hshown (87 * day) (by decide +kernel)).2
  exact absurd hlate (by decide +kernel)

end FamilyPlanner.Calendar
