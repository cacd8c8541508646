import Mathlib.Data.List.Nodup
import FamilyPlanner.Calendar.Event

/-!
# The calendar grids

Month, weeks around today, and weeks from a fixed date: rows of cells filled
by walking from a Monday one day at a time.
-/

namespace FamilyPlanner.Calendar

open FamilyPlanner.Foundation FamilyPlanner.Foundation.Clock FamilyPlanner.Widget

/-! ## Configured dates -/

def digits (cs : List Char) : Option Int :=
  cs.foldl (fun n c =>
    n.bind fun n =>
      if c.isDigit then some (10 * n + (c.toNat - '0'.toNat)) else none) (some 0)

def civilDate (y m d : List Char) : Option Date :=
  match digits y, digits m, digits d with
  | some year, some month, some day =>
      if h : (1 ≤ month ∧ month ≤ 12) ∧ 1 ≤ day ∧
          day ≤ monthDays (12 * year + month - 1) then
        some ⟨12 * year + month - 1, day, h.2.1, h.2.2⟩
      else none
  | _, _, _ => none

/-- The four layouts differ in the separator and in where the year stands. -/
def parseLayouts : List Char → Option Date
  | [a, b, c, d, '-', e, f, '-', g, h] => civilDate [a, b, c, d] [e, f] [g, h]
  | [a, b, '-', c, d, '-', e, f, g, h] => civilDate [e, f, g, h] [c, d] [a, b]
  | [a, b, '/', c, d, '/', e, f, g, h] => civilDate [e, f, g, h] [c, d] [a, b]
  | [a, b, c, d, '/', e, f, '/', g, h] => civilDate [a, b, c, d] [e, f] [g, h]
  | _ => none

/-- The zero `time.Time`, the start of the year 1 in UTC. -/
def zeroTime : Int := -719162 * day

/-- A blank or invalid date is the zero time. -/
def parseDate (z : Zone) (s : String) : Int :=
  match parseLayouts (trimSpace s).toList with
  | some d => z.midnight d.number
  | none => zeroTime

/-! ## Builders -/

def cellOn (z : Zone) (now : Int) (all : List CalEvent) (inMonth : Int → Bool)
    (day : Int) : DayCell where
  day := (dateAt z day).day
  inMonth := inMonth day
  today := sameDate z day now
  events := (all.filter fun e => occupies z e day).map fun e => item z e day

def row (cell : Int → DayCell) (z : Zone) : Nat → Int → List DayCell × Int
  | 0, day => ([], day)
  | k + 1, day =>
      let rest := row cell z k (z.addDays day 1)
      (cell day :: rest.1, rest.2)

def rows (cell : Int → DayCell) (z : Zone) : Nat → Int → List (List DayCell) × Int
  | 0, day => ([], day)
  | w + 1, day =>
      let week := row cell z 7 day
      let rest := rows cell z w week.2
      (week.1 :: rest.1, rest.2)

def monthTitle (z : Zone) (now : Int) : String :=
  s!"{monthFull (dateAt z now)} {(dateAt z now).year}"

def buildWeekGrid (z : Zone) (now : Int) (all : List CalEvent)
    (cfg : CalendarConfig) : MonthGrid :=
  let before := atoiDefault cfg.weeksBefore 0
  let ahead := atoiDefault cfg.weeksAhead 1
  let today := dateOf z now
  let base := z.addDays today (int64 (-before * 7))
  let offset := weekdayOf z base
  let day := z.addDays base (-offset)
  { title := monthTitle z now
    weeks := (rows (cellOn z now all fun _ => true) z
      (int64 (before + ahead + 1)).toNat day).1 }

def absWeekCount (cfg : CalendarConfig) : Int :=
  let n := atoiDefault cfg.weeksAhead 6
  let n := if n < 1 then 1 else n
  if n > 12 then 12 else n

def absTitle (z : Zone) (first last : Int) : String :=
  let a := dateAt z first
  let b := dateAt z last
  s!"{a.day} {monthShort a} – {b.day} {monthShort b} {b.year}"

def buildAbsWeeks (z : Zone) (now : Int) (all : List CalEvent)
    (cfg : CalendarConfig) : MonthGrid :=
  let start := parseDate z cfg.startDate
  let start := if start = zeroTime then dateOf z now else start
  let offset := weekdayOf z start
  let first := z.addDays start (-offset)
  let built := rows (cellOn z now all fun _ => true) z (absWeekCount cfg).toNat first
  { title := absTitle z first (z.addDays built.2 (-1))
    weeks := built.1 }

def buildMonth (z : Zone) (now : Int) (all : List CalEvent) : MonthGrid :=
  let first := z.midnight (monthStart (dateAt z now).month)
  let offset := weekdayOf z first
  let day := z.addDays first (-offset)
  let inMonth d := decide ((dateAt z d).monthOfYear = (dateAt z now).monthOfYear)
  { title := monthTitle z now
    weeks := (rows (cellOn z now all inMonth) z 6 day).1.filter fun week =>
      week.any (·.inMonth) }

/-! ## The days of the rows -/

def week (n : Int) : List Int := (List.range 7).map fun i : Nat => n + i

def weeks (n : Int) (w : Nat) : List (List Int) :=
  (List.range w).map fun i : Nat => week (n + 7 * i)

theorem weeks_succ (n : Int) (w : Nat) :
    weeks n (w + 1) = week n :: weeks (n + 7) w := by
  rw [weeks, weeks, List.range_succ_eq_map, List.map_cons, List.map_map]
  congr 1
  · simp
  · apply List.map_congr_left
    intro i _
    simp only [Function.comp]
    congr 1
    omega

theorem row_eq {z : Zone} (cell : Int → DayCell) (k : Nat) {n : Int}
    (hz : z.Spans n (n + k)) :
    row cell z k (z.midnight n) =
      ((List.range k).map (fun i : Nat => cell (z.midnight (n + i))),
        z.midnight (n + k)) := by
  induction k generalizing n with
  | zero => simp [row]
  | succ k ih =>
      have hlast : n + 1 + (k : Int) = n + ((k + 1 : Nat) : Int) := by omega
      have hnext : z.addDays (z.midnight n) 1 = z.midnight (n + 1) :=
        Zone.addDays_midnight (hz n le_rfl (by omega)).shown
          (hz (n + 1) (by omega) (by omega))
      have hrest : z.Spans (n + 1) (n + 1 + k) := by
        intro d hd hd'
        exact hz d (by omega) (by omega)
      rw [row, hnext, ih hrest, List.range_succ_eq_map, List.map_cons,
        List.map_map, hlast]
      congr 2
      · simp
      · apply List.map_congr_left
        intro i _
        simp only [Function.comp]
        congr 2
        omega

theorem rows_eq {z : Zone} (cell : Int → DayCell) (w : Nat) {n : Int}
    (hz : z.Spans n (n + 7 * w)) :
    rows cell z w (z.midnight n) =
      ((weeks n w).map (fun days => days.map fun d => cell (z.midnight d)),
        z.midnight (n + 7 * w)) := by
  induction w generalizing n with
  | zero => simp [rows, weeks]
  | succ w ih =>
      have hlast : n + 7 + 7 * (w : Int) = n + 7 * ((w + 1 : Nat) : Int) := by omega
      have hseven : n + ((7 : Nat) : Int) = n + 7 := rfl
      have hweek : z.Spans n (n + (7 : Nat)) := by
        intro d hd hd'
        exact hz d hd (by omega)
      have hrest : z.Spans (n + 7) (n + 7 + 7 * w) := by
        intro d hd hd'
        exact hz d (by omega) (by omega)
      rw [rows, row_eq cell 7 hweek]
      simp only
      rw [hseven, ih hrest, weeks_succ, List.map_cons, hlast]
      simp only [week, List.map_map, Function.comp_def]

theorem flatten_weeks (n : Int) (w : Nat) :
    (weeks n w).flatten = (List.range (7 * w)).map fun i : Nat => n + i := by
  induction w generalizing n with
  | zero => simp [weeks]
  | succ w ih =>
      rw [weeks_succ, List.flatten_cons, ih, Nat.mul_succ, Nat.add_comm, List.range_add,
        List.map_append, week, List.map_map]
      congr 1
      apply List.map_congr_left
      intro i _
      simp only [Function.comp]
      omega

theorem mem_flatten_weeks {n d : Int} {w : Nat} :
    d ∈ (weeks n w).flatten ↔ n ≤ d ∧ d < n + 7 * w := by
  rw [flatten_weeks]
  simp only [List.mem_map, List.mem_range]
  constructor
  · rintro ⟨i, hi, rfl⟩
    omega
  · intro h
    exact ⟨(d - n).toNat, by omega, by omega⟩

theorem nodup_flatten_weeks (n : Int) (w : Nat) : (weeks n w).flatten.Nodup := by
  rw [flatten_weeks]
  apply List.Nodup.map _ List.nodup_range
  intro i j hij
  simpa using hij

theorem mem_week {n d : Int} : d ∈ week n ↔ n ≤ d ∧ d < n + 7 := by
  simp only [week, List.mem_map, List.mem_range]
  constructor
  · rintro ⟨i, hi, rfl⟩
    omega
  · intro h
    exact ⟨(d - n).toNat, by omega, by omega⟩

/-! ## What the grids show -/

def dayCell (z : Zone) (now : Int) (all : List CalEvent) (inMonth : Int → Bool)
    (n : Int) : DayCell where
  day := (civil n).day
  inMonth := inMonth n
  today := n = z.dayOf now
  events := (all.filter fun e => occupies z e (z.midnight n)).map fun e =>
    item z e (z.midnight n)

/-- The grid consists of the cells of the given rows of days, each a week from
Monday on and all of them consecutive. -/
structure Shows (z : Zone) (now : Int) (all : List CalEvent) (inMonth : Int → Bool)
    (days : List (List Int)) (grid : MonthGrid) : Prop where
  cells : grid.weeks = days.map fun r => r.map (dayCell z now all inMonth)
  monday : ∀ r ∈ days, ∃ m, weekday m = 0 ∧ r = week m
  consecutive : ∃ first : Int, days.flatten =
    (List.range days.flatten.length).map fun i : Nat => first + i

theorem weeks_monday {n : Int} (hn : weekday n = 0) (w : Nat) :
    ∀ r ∈ weeks n w, ∃ m, weekday m = 0 ∧ r = week m := by
  intro r hr
  obtain ⟨i, -, rfl⟩ := List.mem_map.mp hr
  refine ⟨n + 7 * i, ?_, rfl⟩
  unfold weekday at *
  omega

theorem weeks_consecutive (n : Int) (w : Nat) :
    ∃ first : Int, (weeks n w).flatten =
      (List.range (weeks n w).flatten.length).map fun i : Nat => first + i := by
  refine ⟨n, ?_⟩
  simp only [flatten_weeks, List.length_map, List.length_range]

theorem cellOn_midnight {z : Zone} {n : Int} (hn : z.dayOf (z.midnight n) = n)
    (now : Int) (all : List CalEvent) (inMonth : Int → Bool) :
    cellOn z now all inMonth (z.midnight n) =
      dayCell z now all (fun d => inMonth (z.midnight d)) n := by
  have htoday : sameDate z (z.midnight n) now = decide (n = z.dayOf now) := by
    rw [Bool.eq_iff_iff, sameDate_iff, hn, decide_eq_true_iff]
  rw [cellOn, dayCell, htoday, dateAt, hn]

theorem weekdayOf_midnight {z : Zone} {n : Int} (hn : z.dayOf (z.midnight n) = n) :
    weekdayOf z (z.midnight n) = weekday n := by
  rw [weekdayOf, hn]

theorem shows_rows {z : Zone} (now : Int) (all : List CalEvent) (inMonth : Int → Bool)
    (title : String) {n : Int} (hn : weekday n = 0) (w : Nat)
    (hz : z.Spans n (n + 7 * w)) :
    Shows z now all (fun d => inMonth (z.midnight d)) (weeks n w)
      ⟨title, (rows (cellOn z now all inMonth) z w (z.midnight n)).1⟩ := by
  refine ⟨?_, weeks_monday hn w, weeks_consecutive n w⟩
  rw [rows_eq _ w hz]
  apply List.map_congr_left
  intro days hdays
  apply List.map_congr_left
  intro d hd
  obtain ⟨hle, hlt⟩ := mem_flatten_weeks.mp (List.mem_flatten.mpr ⟨days, hdays, hd⟩)
  exact cellOn_midnight (Zone.dayOf_midnight (hz d hle hlt.le).shown) now all inMonth

theorem weekday_bounds (n : Int) : 0 ≤ weekday n ∧ weekday n ≤ 6 := by
  unfold weekday
  omega

theorem monday_of_weekday (n : Int) : weekday (n - weekday n) = 0 := by
  unfold weekday
  omega

/-! ## Weeks around today -/

/-- The Monday of the current week, `before` weeks back. -/
def weekGridFirst (z : Zone) (now before : Int) : Int :=
  z.dayOf now - before * 7 - weekday (z.dayOf now)

/-- The sums that the builders form of the configured weeks fit in 64 bits. -/
def Fits (cfg : CalendarConfig) : Prop :=
  7 * (atoiDefault cfg.weeksBefore 0 + atoiDefault cfg.weeksAhead 1) + 7 < 2 ^ 63

instance (cfg : CalendarConfig) : Decidable (Fits cfg) :=
  inferInstanceAs (Decidable (_ < _))

def weekGridDays (z : Zone) (now : Int) (cfg : CalendarConfig) : List (List Int) :=
  weeks (weekGridFirst z now (atoiDefault cfg.weeksBefore 0))
    (atoiDefault cfg.weeksBefore 0 + atoiDefault cfg.weeksAhead 1 + 1).toNat

def WeekReached (z : Zone) (now : Int) (cfg : CalendarConfig) : Prop :=
  z.Spans (weekGridFirst z now (atoiDefault cfg.weeksBefore 0))
    (weekGridFirst z now (atoiDefault cfg.weeksBefore 0) +
      7 * (atoiDefault cfg.weeksBefore 0 + atoiDefault cfg.weeksAhead 1 + 1))

theorem weekday_sub_weeks (n k : Int) : weekday (n + -k * 7) = weekday n := by
  unfold weekday
  omega

theorem weekGridFirst_eq (z : Zone) (now before : Int) :
    z.dayOf now + -before * 7 + -weekday (z.dayOf now) = weekGridFirst z now before := by
  unfold weekGridFirst
  omega

theorem weekGridFirst_monday (z : Zone) (now before : Int) :
    weekday (weekGridFirst z now before) = 0 := by
  rw [← weekGridFirst_eq, ← weekday_sub_weeks (z.dayOf now) before]
  exact monday_of_weekday _

theorem buildWeekGrid_shows {z : Zone} {now : Int} {cfg : CalendarConfig}
    (hz : WeekReached z now cfg) (hcfg : Fits cfg) (all : List CalEvent) :
    Shows z now all (fun _ => true) (weekGridDays z now cfg)
      (buildWeekGrid z now all cfg) := by
  have hbefore := weeksBefore_nonneg cfg
  have hahead := weeksAhead_nonneg cfg
  have hbounds := weekday_bounds (z.dayOf now)
  have hfirst := weekGridFirst_eq z now (atoiDefault cfg.weeksBefore 0)
  unfold Fits at hcfg
  have hback : int64 (-atoiDefault cfg.weeksBefore 0 * 7) =
      -atoiDefault cfg.weeksBefore 0 * 7 := int64_eq (by omega) (by omega)
  have hcount : int64 (atoiDefault cfg.weeksBefore 0 +
      atoiDefault cfg.weeksAhead 1 + 1) = atoiDefault cfg.weeksBefore 0 +
        atoiDefault cfg.weeksAhead 1 + 1 := int64_eq (by omega) (by omega)
  have htoday : z.Reaches (z.dayOf now * day) := hz _ (by omega) (by omega)
  have hbase : z.Reaches ((z.dayOf now + -atoiDefault cfg.weeksBefore 0 * 7) * day) :=
    hz _ (by omega) (by omega)
  have hstart : z.Reaches ((z.dayOf now + -atoiDefault cfg.weeksBefore 0 * 7 +
      -weekday (z.dayOf now)) * day) := hz _ (by omega) (by omega)
  simp only [buildWeekGrid, hback, hcount, dateOf_eq,
    Zone.addDays_midnight htoday.shown hbase,
    weekdayOf_midnight (Zone.dayOf_midnight hbase.shown), weekday_sub_weeks,
    Zone.addDays_midnight hbase.shown hstart, hfirst]
  apply shows_rows now all (fun _ => true) _ (weekGridFirst_monday z now _)
  rw [Int.toNat_of_nonneg (by omega)]
  exact hz

/-! ## Weeks from a fixed date -/

def absStart (z : Zone) (now : Int) (cfg : CalendarConfig) : Int :=
  if parseDate z cfg.startDate = zeroTime then z.dayOf now
  else z.dayOf (parseDate z cfg.startDate)

def absFirst (z : Zone) (now : Int) (cfg : CalendarConfig) : Int :=
  absStart z now cfg - weekday (absStart z now cfg)

def absDays (z : Zone) (now : Int) (cfg : CalendarConfig) : List (List Int) :=
  weeks (absFirst z now cfg) (absWeekCount cfg).toNat

theorem parseDate_of_layout {z : Zone} {s : String} {d : Date}
    (h : parseLayouts (trimSpace s).toList = some d) :
    parseDate z s = z.midnight d.number := by
  rw [parseDate, h]

theorem parseDate_midnight {z : Zone} {s : String}
    (hz : ∀ d, parseLayouts (trimSpace s).toList = some d → z.Shown (d.number * day))
    (h : parseDate z s ≠ zeroTime) :
    parseDate z s = z.midnight (z.dayOf (parseDate z s)) := by
  cases hd : parseLayouts (trimSpace s).toList with
  | none =>
      rw [parseDate, hd] at h
      exact absurd rfl h
  | some d => rw [parseDate_of_layout hd, Zone.dayOf_midnight (hz d hd)]

theorem absWeekCount_bounds (cfg : CalendarConfig) :
    1 ≤ absWeekCount cfg ∧ absWeekCount cfg ≤ 12 := by
  simp only [absWeekCount]
  omega

structure AbsReached (z : Zone) (now : Int) (cfg : CalendarConfig) : Prop where
  spans : z.Spans (absFirst z now cfg) (absFirst z now cfg + 7 * absWeekCount cfg)
  start : ∀ d, parseLayouts (trimSpace cfg.startDate).toList = some d →
    z.Shown (d.number * day)

theorem AbsReached.shown {z : Zone} {now : Int} {cfg : CalendarConfig}
    (hz : AbsReached z now cfg) : z.Shown (absStart z now cfg * day) := by
  have hweeks := absWeekCount_bounds cfg
  have hbounds := weekday_bounds (absStart z now cfg)
  apply (hz.spans _ _ _).shown
  · unfold absFirst
    omega
  · unfold absFirst
    omega

theorem buildAbsWeeks_shows {z : Zone} {now : Int} {cfg : CalendarConfig}
    (hz : AbsReached z now cfg) (all : List CalEvent) :
    Shows z now all (fun _ => true) (absDays z now cfg)
      (buildAbsWeeks z now all cfg) := by
  have hweeks := absWeekCount_bounds cfg
  have hstart : (if parseDate z cfg.startDate = zeroTime then dateOf z now
      else parseDate z cfg.startDate) = z.midnight (absStart z now cfg) := by
    unfold absStart
    split
    case isTrue => exact dateOf_eq z now
    case isFalse h => exact parseDate_midnight hz.start h
  have hfirst : z.addDays (z.midnight (absStart z now cfg))
      (-weekday (absStart z now cfg)) = z.midnight (absFirst z now cfg) :=
    Zone.addDays_midnight hz.shown (hz.spans (absFirst z now cfg) le_rfl (by omega))
  simp only [buildAbsWeeks, hstart, weekdayOf_midnight (Zone.dayOf_midnight hz.shown),
    hfirst]
  apply shows_rows now all (fun _ => true) _ (monday_of_weekday _)
  rw [Int.toNat_of_nonneg (by omega)]
  exact hz.spans

/-! ## The month -/

def monthFirst (z : Zone) (now : Int) : Int :=
  let first := monthStart (civil (z.dayOf now)).month
  first - weekday first

def monthWeeks (z : Zone) (now : Int) : Int :=
  let month := (civil (z.dayOf now)).month
  (weekday (monthStart month) + monthDays month + 6) / 7

def monthGridDays (z : Zone) (now : Int) : List (List Int) :=
  weeks (monthFirst z now) (monthWeeks z now).toNat

def inMonth (z : Zone) (now n : Int) : Bool :=
  (civil n).monthOfYear = (civil (z.dayOf now)).monthOfYear

theorem monthOfYear_eq_iff {n month : Int} (hle : monthStart (month - 1) ≤ n)
    (hlt : n < monthStart (month + 2)) :
    (civil n).monthOfYear = month % 12 + 1 ↔ (civil n).month = month := by
  obtain ⟨m, hm⟩ : ∃ m, (civil n).month = m := ⟨_, rfl⟩
  obtain ⟨hstart, hnext⟩ := civil_month_eq_iff.mp hm
  have hlow : month - 1 < m + 1 :=
    monthStart_strictMono.lt_iff_lt.mp (lt_of_le_of_lt hle hnext)
  have hhigh : m < month + 2 :=
    monthStart_strictMono.lt_iff_lt.mp (lt_of_le_of_lt hstart hlt)
  rw [Date.monthOfYear, hm]
  omega

theorem inMonth_iff {z : Zone} {now n : Int} (hle : monthFirst z now ≤ n)
    (hlt : n < monthFirst z now + 42) :
    inMonth z now n = true ↔ (civil n).month = (civil (z.dayOf now)).month := by
  obtain ⟨m, hm⟩ : ∃ m, (civil (z.dayOf now)).month = m := ⟨_, rfl⟩
  have hprev := monthStart_succ (m - 1)
  have hnext := monthStart_succ m
  have hnext' := monthStart_succ (m + 1)
  have hdays := monthDays_bounds (m - 1)
  have hdays' := monthDays_bounds m
  have hdays'' := monthDays_bounds (m + 1)
  have hweekday := weekday_bounds (monthStart m)
  have hsucc : m + 1 + 1 = m + 2 := by omega
  rw [Int.sub_add_cancel] at hprev
  rw [hsucc] at hnext'
  rw [monthFirst, hm] at hle hlt
  have hyear : (civil (z.dayOf now)).monthOfYear = m % 12 + 1 := by
    rw [Date.monthOfYear, hm]
  rw [inMonth, decide_eq_true_iff, hyear, hm]
  exact monthOfYear_eq_iff (by omega) (by omega)

theorem any_inMonth_iff {z : Zone} {now : Int} {i : Nat} (hi : i < 6) :
    (week (monthFirst z now + 7 * i)).any (inMonth z now) = true ↔
      i < (monthWeeks z now).toNat := by
  obtain ⟨m, hm⟩ : ∃ m, (civil (z.dayOf now)).month = m := ⟨_, rfl⟩
  have hnext := monthStart_succ m
  have hdays := monthDays_bounds m
  have hweekday := weekday_bounds (monthStart m)
  have hfirst : monthFirst z now = monthStart m - weekday (monthStart m) := by
    rw [monthFirst, hm]
  have hweeks : monthWeeks z now = (weekday (monthStart m) + monthDays m + 6) / 7 := by
    rw [monthWeeks, hm]
  have hin : ∀ n, n ∈ week (monthFirst z now + 7 * i) →
      (inMonth z now n = true ↔ monthStart m ≤ n ∧ n < monthStart (m + 1)) := by
    intro n hn
    rw [mem_week] at hn
    rw [inMonth_iff (by omega) (by omega), hm, civil_month_eq_iff]
  rw [List.any_eq_true, hweeks]
  constructor
  · rintro ⟨n, hn, hmonth⟩
    rw [hin n hn] at hmonth
    rw [mem_week] at hn
    omega
  · intro hlt
    -- The first day of the month if it is in this week, else the Monday.
    have hmem : max (monthStart m) (monthFirst z now + 7 * i) ∈
        week (monthFirst z now + 7 * i) := by
      rw [mem_week]
      omega
    refine ⟨_, hmem, (hin _ hmem).mpr ?_⟩
    omega

theorem monthWeeks_le (z : Zone) (now : Int) : (monthWeeks z now).toNat ≤ 6 := by
  obtain ⟨m, hm⟩ : ∃ m, (civil (z.dayOf now)).month = m := ⟨_, rfl⟩
  have hdays := monthDays_bounds m
  have hweekday := weekday_bounds (monthStart m)
  simp only [monthWeeks, hm]
  omega

theorem filter_weeks (z : Zone) (now : Int) :
    (weeks (monthFirst z now) 6).filter (fun r => r.any (inMonth z now)) =
      monthGridDays z now := by
  have hcount := monthWeeks_le z now
  have hrange : ∀ w ≤ 6, (List.range 6).filter (fun i => i < w) = List.range w := by
    decide
  rw [weeks, List.filter_map, monthGridDays, weeks, ← hrange _ hcount]
  congr 1
  apply List.filter_congr
  intro i hi
  rw [Bool.eq_iff_iff, decide_eq_true_iff]
  exact any_inMonth_iff (List.mem_range.mp hi)

def MonthReached (z : Zone) (now : Int) : Prop :=
  z.Spans (monthFirst z now) (monthFirst z now + 42)

theorem buildMonth_shows {z : Zone} {now : Int} (hz : MonthReached z now)
    (all : List CalEvent) :
    Shows z now all (inMonth z now) (monthGridDays z now) (buildMonth z now all) := by
  obtain ⟨m, hm⟩ : ∃ m, (civil (z.dayOf now)).month = m := ⟨_, rfl⟩
  have hbounds := weekday_bounds (monthStart m)
  have hmonth : (dateAt z now).month = m := hm
  have hstart : z.Reaches (monthStart m * day) := by
    apply hz
    all_goals
      simp only [monthFirst, hm]
      omega
  have hfirst : z.addDays (z.midnight (monthStart m)) (-weekday (monthStart m)) =
      z.midnight (monthFirst z now) := by
    have hreached := hz (monthFirst z now) le_rfl (by omega)
    simp only [monthFirst, hm] at hreached ⊢
    exact Zone.addDays_midnight hstart.shown hreached
  have hmonday : weekday (monthFirst z now) = 0 := monday_of_weekday _
  have hrows := (shows_rows now all
    (fun d => decide ((dateAt z d).monthOfYear = (dateAt z now).monthOfYear))
    (monthTitle z now) hmonday 6 hz).cells
  -- The cells of these weeks are in the month by the dates of their days.
  have hcells : (weeks (monthFirst z now) 6).map (fun r => r.map (dayCell z now all
        fun d => decide ((dateAt z (z.midnight d)).monthOfYear =
          (dateAt z now).monthOfYear))) =
      (weeks (monthFirst z now) 6).map fun r => r.map (dayCell z now all
        (inMonth z now)) := by
    apply List.map_congr_left
    intro r hr
    apply List.map_congr_left
    intro d hd
    obtain ⟨hle, hlt⟩ := mem_flatten_weeks.mp (List.mem_flatten.mpr ⟨r, hr, hd⟩)
    have hday := Zone.dayOf_midnight (hz d hle (by omega)).shown
    simp only [dayCell, inMonth, dateAt, hday]
  rw [hcells] at hrows
  simp only at hrows
  refine ⟨?_, weeks_monday hmonday _, weeks_consecutive _ _⟩
  simp only [buildMonth, hmonth, weekdayOf_midnight (Zone.dayOf_midnight hstart.shown),
    hfirst]
  rw [hrows, List.filter_map, ← filter_weeks]
  congr 1

/-! ## Events on their days -/

/-- An event occupies the days it is on, and no others. -/
def Exact (z : Zone) (all : List CalEvent) (days : List (List Int)) : Prop :=
  ∀ n ∈ days.flatten, ∀ e ∈ all,
    occupies z e (z.midnight n) = true ↔ On z e n

/-- Where a timed event ends, `time.Date` knows the start of the day. -/
def EndsKnown (z : Zone) (all : List CalEvent) (days : List (List Int)) : Prop :=
  ∀ n ∈ days.flatten, ∀ e ∈ all, EndsRight z e n

theorem exact_iff {z : Zone} {all : List CalEvent} {days : List (List Int)}
    (hall : ∀ e ∈ all, Settled z e)
    (hdays : ∀ n ∈ days.flatten, z.dayOf (z.midnight n) = n) :
    Exact z all days ↔ EndsKnown z all days := by
  constructor
  · intro h n hn e he
    exact (occupies_iff_on (hall e he) (hdays n hn)).mp (h n hn e he)
  · intro h n hn e he
    exact (occupies_iff_on (hall e he) (hdays n hn)).mpr (h n hn e he)

structure IsMonth (z : Zone) (now : Int) (days : List (List Int)) : Prop where
  inMonth : ∀ n ∈ days.flatten, Calendar.inMonth z now n = true ↔
    (civil n).month = (civil (z.dayOf now)).month
  once : ∀ n, (civil n).month = (civil (z.dayOf now)).month →
    days.flatten.count n = 1
  meets : ∀ r ∈ days, ∃ n ∈ r, (civil n).month = (civil (z.dayOf now)).month

theorem monthGridDays_isMonth (z : Zone) (now : Int) :
    IsMonth z now (monthGridDays z now) := by
  have hcount := monthWeeks_le z now
  constructor
  · intro n hn
    rw [monthGridDays, mem_flatten_weeks] at hn
    exact inMonth_iff (by omega) (by omega)
  · intro n hn
    apply List.count_eq_one_of_mem (nodup_flatten_weeks _ _)
    obtain ⟨m, hm⟩ : ∃ m, (civil (z.dayOf now)).month = m := ⟨_, rfl⟩
    have hnext := monthStart_succ m
    have hdays := monthDays_bounds m
    have hweekday := weekday_bounds (monthStart m)
    rw [hm, civil_month_eq_iff] at hn
    simp only [mem_flatten_weeks, monthFirst, monthWeeks, hm]
    omega
  · intro r hr
    obtain ⟨i, hi, rfl⟩ := List.mem_map.mp hr
    rw [List.mem_range] at hi
    have hsix : i < 6 := by omega
    obtain ⟨n, hn, hmonth⟩ := List.any_eq_true.mp ((any_inMonth_iff hsix).mpr hi)
    refine ⟨n, hn, ?_⟩
    rw [mem_week] at hn
    exact (inMonth_iff (by omega) (by omega)).mp hmonth

theorem weekGridDays_today (z : Zone) (now : Int) (cfg : CalendarConfig) :
    ((weekGridDays z now cfg).length : Int) =
        atoiDefault cfg.weeksBefore 0 + atoiDefault cfg.weeksAhead 1 + 1 ∧
      z.dayOf now ∈ (weekGridDays z now cfg).flatten := by
  have hbefore := weeksBefore_nonneg cfg
  have hahead := weeksAhead_nonneg cfg
  have hweekday := weekday_bounds (z.dayOf now)
  constructor
  · rw [weekGridDays, weeks, List.length_map, List.length_range]
    omega
  · rw [weekGridDays, mem_flatten_weeks, weekGridFirst]
    omega

structure Grids (z : Zone) (now : Int) (all : List CalEvent) (cfg : CalendarConfig) :
    Prop where
  month : Shows z now all (inMonth z now) (monthGridDays z now) (buildMonth z now all)
  week : Shows z now all (fun _ => true) (weekGridDays z now cfg)
    (buildWeekGrid z now all cfg)
  abs : Shows z now all (fun _ => true) (absDays z now cfg) (buildAbsWeeks z now all cfg)
  isMonth : IsMonth z now (monthGridDays z now)
  count : ((weekGridDays z now cfg).length : Int) =
    atoiDefault cfg.weeksBefore 0 + atoiDefault cfg.weeksAhead 1 + 1
  today : z.dayOf now ∈ (weekGridDays z now cfg).flatten

def displayed (z : Zone) (now : Int) (cfg : CalendarConfig) : List (List Int) :=
  monthGridDays z now ++ weekGridDays z now cfg ++ absDays z now cfg

/-- The dates in play: the midnights that the builders walk over, and those of
the events. -/
structure InPlay (z : Zone) (now : Int) (all : List CalEvent) (cfg : CalendarConfig) :
    Prop where
  month : MonthReached z now
  week : WeekReached z now cfg
  abs : AbsReached z now cfg
  events : ∀ e ∈ all, Settled z e

theorem InPlay.dayOf_midnight {z : Zone} {now : Int} {all : List CalEvent}
    {cfg : CalendarConfig} (hz : InPlay z now all cfg) :
    ∀ n ∈ (displayed z now cfg).flatten, z.dayOf (z.midnight n) = n := by
  have hbefore := weeksBefore_nonneg cfg
  have hahead := weeksAhead_nonneg cfg
  have hcount := monthWeeks_le z now
  have hweeks := absWeekCount_bounds cfg
  intro n hn
  apply Zone.dayOf_midnight
  simp only [displayed, List.flatten_append, List.mem_append, monthGridDays,
    weekGridDays, absDays, mem_flatten_weeks] at hn
  rcases hn with (hn | hn) | hn
  · exact (hz.month n (by omega) (by omega)).shown
  · exact (hz.week n (by omega) (by omega)).shown
  · exact (hz.abs.spans n (by omega) (by omega)).shown

/-- The grids have the right days; they place the events exactly iff the start
of each end day is known. -/
theorem grids_exact_iff {z : Zone} {now : Int} {all : List CalEvent}
    {cfg : CalendarConfig} (hz : InPlay z now all cfg) (hcfg : Fits cfg) :
    Grids z now all cfg ∧ Exact z all (displayed z now cfg) ↔
      EndsKnown z all (displayed z now cfg) := by
  rw [← exact_iff hz.events hz.dayOf_midnight]
  apply and_iff_right
  obtain ⟨hcount, htoday⟩ := weekGridDays_today z now cfg
  exact ⟨buildMonth_shows hz.month all, buildWeekGrid_shows hz.week hcfg all,
    buildAbsWeeks_shows hz.abs all, monthGridDays_isMonth z now, hcount, htoday⟩

/-- At 01:00 on the first of January the clock is set back to midnight; of the
repeated hour the later instants are taken. -/
def amman : Zone := .change true (-2 * hour) (3 * hour) (2 * hour)

theorem amman_ordered (t : Int) : amman.Ordered t :=
  Zone.change_ordered (by decide) t

theorem amman_reaches {w : Int} (hw : Zone.Near (w / day)) : amman.Reaches w := by
  apply Zone.change_reaches (by decide) (by decide) _ hw
  simp only [hour]
  omega

theorem amman_spans {n m : Int} (hn : Zone.Near n) (hm : Zone.Near m) :
    amman.Spans n m := by
  intro d hd hd'
  apply amman_reaches
  rw [Int.mul_ediv_cancel d (by decide)]
  unfold Zone.Near at *
  omega

def party : CalEvent := ⟨-5 * hour, some (-3 * hour), "Feest", "", false⟩

def night : CalEvent := ⟨-5 * hour, some 0, "Oudejaar", "", false⟩

def leave : CalEvent := ⟨day - 2 * hour, some (3 * day - 2 * hour), "Verlof", "", true⟩

def pinned : CalendarConfig := ⟨"", "weeks_abs", "1", "2", "1970-01-05", ""⟩

/-- The night goes over the repeated midnight and is on both days. -/
theorem grids_exact_iff_amman :
    Grids amman 0 [night, leave] pinned ∧
      Exact amman [night, leave] (displayed amman 0 pinned) := by
  have hplay : InPlay amman 0 [night, leave] pinned := by
    refine ⟨?_, ?_, ⟨?_, ?_⟩, ?_⟩
    · exact amman_spans (by decide +kernel) (by decide +kernel)
    · exact amman_spans (by decide +kernel) (by decide +kernel)
    · exact amman_spans (by decide +kernel) (by decide +kernel)
    · intro d hd
      apply Zone.change_shown
      simp only [hour]
      omega
    · simp only [List.forall_mem_cons, List.not_mem_nil, IsEmpty.forall_iff,
        implies_true, and_true]
      constructor
      all_goals
        apply settled_of_ordered amman_ordered (amman_reaches (by decide +kernel))
        intro stop hstop
        cases hstop
        exact ⟨amman_reaches (by decide +kernel), amman_reaches (by decide +kernel)⟩
  apply (grids_exact_iff hplay (by decide +kernel)).mpr
  intro n hn e he
  obtain rfl | rfl : e = night ∨ e = leave := by simpa using he
  · rintro stop hstop - - - hlast
    cases hstop
    subst hlast
    apply iff_of_false (by decide +kernel)
    intro hfirst
    exact hfirst (-1 * hour) (by decide) (by decide +kernel)
  · rintro stop - hday
    cases hday

def blank : CalendarConfig := ⟨"", "week", "", "", "", ""⟩

/-- The event that ends at the first midnight still occupies the next day. -/
theorem grids_not_exact :
    0 ∈ (displayed amman (-5 * hour) blank).flatten ∧
    occupies amman party (amman.midnight 0) = true ∧ ¬ On amman party 0 ∧
    ¬ Exact amman [party] (displayed amman (-5 * hour) blank) := by
  have hoccupies : occupies amman party (amman.midnight 0) = true := by
    decide +kernel
  have hon : ¬ On amman party 0 := by
    rintro (hstart | ⟨stop, hstop, hmet⟩)
    · exact absurd hstart (by decide)
    · cases hstop
      rw [if_neg (by decide)] at hmet
      obtain ⟨t, -, hlt, hday⟩ := hmet
      have hbefore : t < -2 * hour := lt_trans hlt (by decide)
      rw [Zone.dayOf, amman, Zone.wall_change_of_lt hbefore] at hday
      simp only [hour, day] at hlt hday
      omega
  have hmem : 0 ∈ (displayed amman (-5 * hour) blank).flatten := by
    decide +kernel
  refine ⟨hmem, hoccupies, hon, fun h => ?_⟩
  exact hon ((h 0 hmem party (List.mem_singleton.mpr rfl)).mp hoccupies)

end FamilyPlanner.Calendar
