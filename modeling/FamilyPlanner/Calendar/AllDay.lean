import FamilyPlanner.Calendar.Grid

/-!
# All-day entries

Three producers turn a date without a time into an event: the iCal feed and
Outlook hand over midnight UTC, and a task is moved to its local midnight.  The
grids turn the instants back into dates of the kiosk's zone.
-/

namespace FamilyPlanner.Calendar

open FamilyPlanner.Foundation FamilyPlanner.Foundation.Clock FamilyPlanner.Widget

/-! ## Producers -/

/--
What `fetchICS` reads of an event of the feed: the text of `DTSTART`, the times
that the iCal library makes of `DTSTART` and `DTEND`, and the filter's verdict.
-/
structure VEvent where
  title : String
  dtStart : String
  startAt : Option Int
  endAt : Option Int
  rrule : String
  matched : Bool
  deriving DecidableEq, Repr

def known (t : Int) : Option Int := if t = zeroTime then none else some t

/-- The events of one entry; `expand` is `expandRecurring`. -/
def icsEvents (expand : String → Int → Int → Int → List Int) (w : Window)
    (v : VEvent) : List CalEvent :=
  match v.startAt with
  | none => []
  | some start =>
      if ! v.matched then []
      else
        let allDay := ! v.dtStart.toList.contains 'T'
        let dur :=
          match v.endAt with
          | some stop => if stop > start then stop - start else 0
          | none => 0
        let occ :=
          if v.rrule ≠ "" then expand v.rrule start w.expandFrom w.expandTo else []
        if occ ≠ [] then
          occ.map fun t =>
            ⟨t, if dur > 0 then known (t + dur) else none, v.title, "", allDay⟩
        else [⟨start, v.endAt.bind known, v.title, "", allDay⟩]

/-- The layout `2006-01-02T15:04:05` in UTC, or the zero time. -/
def parseGraphTime (s : String) : Int :=
  match s.toList.take 19 with
  | [a, b, c, d, '-', e, f, '-', g, h, 'T', i, j, ':', k, l, ':', m, n] =>
      match civilDate [a, b, c, d] [e, f] [g, h], digits [i, j], digits [k, l],
          digits [m, n] with
      | some date, some hh, some mm, some ss =>
          if hh < 24 ∧ mm < 60 ∧ ss < 60 then
            date.number * day + hh * hour + mm * minute + ss * second
          else zeroTime
      | _, _, _, _ => zeroTime
  | _ => zeroTime

structure GraphEvent where
  subject : String
  isAllDay : Bool
  start : String
  stop : String
  deriving DecidableEq, Repr

def graphEvents (value : List GraphEvent) : List CalEvent :=
  value.filterMap fun e =>
    let t := parseGraphTime e.start
    if t = zeroTime then none
    else some ⟨t, known (parseGraphTime e.stop), e.subject, "", e.isAllDay⟩

def taskEvent (z : Zone) (color : String) (t : TodoTask) : Option CalEvent :=
  t.due.map fun due => ⟨dateOf z due, none, t.title, color, true⟩

theorem known_of_lt {t : Int} (ht : zeroTime < t) : known t = some t :=
  if_neg (ne_of_gt ht)

theorem visitTasks_eq {z : Zone} {h : Helpers} (hdue : h.dueDay = dateOf z)
    (r : Remote) (s : SourceInput) :
    visitTasks h r s =
      .ofExcept ((r.todoTasksFor (Secret.getAccessToken s.secret) s.resource).map
        fun tasks => (tasks.filter fun t => h.matchTitle s.filter t.title).filterMap
          (taskEvent z s.color)) := by
  rw [visitTasks]
  congr 2
  funext tasks
  rw [List.filterMap_filter]
  apply List.filterMap_congr
  intro t _
  rw [taskEvent, hdue]
  cases t.due with
  | none => simp
  | some due => rfl

/-! ## Dates -/

/--
Of the given dates, the event occupies those from `d` to before `e`: a cell is
drawn at some instant of its date.
-/
def Covers (z : Zone) (dates : Int → Prop) (ev : CalEvent) (d e : Int) : Prop :=
  ∀ t, dates (z.dayOf t) →
    (occupies z ev t = true ↔ d ≤ z.dayOf t ∧ z.dayOf t < e)

def SameDate (z : Zone) (n : Int) : Prop :=
  0 ≤ z.offset (n * day) ∧ z.offset (n * day) < day

/-- An end that lags behind is corrected where it leaves the start date only. -/
def DatesKept (z : Zone) (d e : Int) : Prop :=
  SameDate z d ∧ (SameDate z e ∨ e = d + 1 ∧ z.offset (e * day) < day)

theorem dayOf_utc (z : Zone) (n : Int) :
    z.dayOf (n * day) = n + z.offset (n * day) / day := by
  rw [Zone.dayOf, Zone.wall, Int.add_comm, Int.add_mul_ediv_right _ _ (by decide),
    Int.add_comm]

theorem sameDate_iff_dayOf {z : Zone} {n : Int} :
    SameDate z n ↔ z.dayOf (n * day) = n := by
  rw [dayOf_utc, SameDate]
  simp only [day]
  omega

theorem datesKept_iff_dayOf {z : Zone} {d e : Int} :
    DatesKept z d e ↔ z.dayOf (d * day) = d ∧
      (z.dayOf (e * day) = e ∨ e = d + 1 ∧ z.dayOf (e * day) ≤ e) := by
  have hle : z.offset (e * day) < day ↔ z.dayOf (e * day) ≤ e := by
    rw [dayOf_utc]
    simp only [day]
    omega
  rw [DatesKept, sameDate_iff_dayOf, sameDate_iff_dayOf, hle]

theorem dayCell_of_covers {z : Zone} {dates : Int → Prop} {ev : CalEvent} {d e n : Int}
    (h : Covers z dates ev d e) (hn : dates n) (hday : z.dayOf (z.midnight n) = n)
    (now : Int) (inMonth : Int → Bool) :
    (dayCell z now [ev] inMonth n).events =
      if d ≤ n ∧ n < e then [item z ev (z.midnight n)] else [] := by
  have hocc := h (z.midnight n)
  rw [hday] at hocc
  simp only [← hocc hn]
  by_cases hcell : occupies z ev (z.midnight n)
  · simp [dayCell, hcell]
  · simp [dayCell, hcell]

/-- The dates on which an event from `d` to `e` begins and ends, as they are given
and in the zone, are among the dates. -/
structure HasDates (z : Zone) (dates : Int → Prop) (d e : Int) : Prop where
  first : dates d
  last : dates (e - 1)
  start : dates (z.dayOf (d * day))
  stop : dates (z.dayOf (e * day))
  beforeStop : dates (z.dayOf (e * day) - 1)

section Daily

variable {z : Zone} {dates : Int → Prop} (hz : z.Daily dates)

include hz

theorem midnight_lt_iff {n m : Int} (hn : dates n) (hm : dates m) :
    z.midnight n < z.midnight m ↔ n < m := by
  rcases lt_trichotomy n m with hlt | rfl | hgt
  · exact iff_of_true (hz.rising n m hn hm hlt) hlt
  · simp
  · have hback := hz.rising m n hm hn hgt
    exact iff_of_false (by omega) (by omega)

theorem midnight_le_iff {n m : Int} (hn : dates n) (hm : dates m) :
    z.midnight n ≤ z.midnight m ↔ n ≤ m := by
  rw [← not_lt, midnight_lt_iff hz hm hn, not_lt]

theorem lastDay_allDay {start stop : Int} (hlt : start < stop) (title color : String)
    (hstart : dates (z.dayOf start)) (hstop : dates (z.dayOf stop))
    (hprev : dates (z.dayOf stop - 1)) {n : Int} (hn : dates n) :
    z.midnight n ≤ lastDay z ⟨start, some stop, title, color, true⟩ ↔
      n ≤ max (z.dayOf start) (z.dayOf stop - 1) := by
  obtain ⟨hlow, hback⟩ := hz.back (z.dayOf stop) hprev hstop
  have hend : z.midnight n ≤ z.addDays (z.midnight (z.dayOf stop)) (-1) ↔
      n ≤ z.dayOf stop - 1 := by
    constructor
    · intro hle
      have hbefore := (midnight_lt_iff hz hn hstop).mp (lt_of_le_of_lt hle hback)
      omega
    · intro hle
      exact le_trans ((midnight_le_iff hz hn hprev).mpr hle) hlow
  simp only [lastDay, dateOf_eq, gt_iff_lt, hlt, not_true_eq_false, if_false, true_or,
    if_true]
  split
  case isTrue hbefore =>
    have hday := (midnight_lt_iff hz hprev hstart).mp (lt_of_le_of_lt hlow hbefore)
    rw [max_eq_left (by omega)]
    exact midnight_le_iff hz hn hstart
  case isFalse hafter =>
    have hday := (midnight_lt_iff hz hstart hstop).mp
      (lt_of_le_of_lt (not_lt.mp hafter) hback)
    rw [max_eq_right (by omega)]
    exact hend

theorem occupies_allDay {start stop : Int} (hlt : start < stop)
    (title color : String) (hstart : dates (z.dayOf start))
    (hstop : dates (z.dayOf stop)) (hprev : dates (z.dayOf stop - 1)) {t : Int}
    (ht : dates (z.dayOf t)) :
    occupies z ⟨start, some stop, title, color, true⟩ t = true ↔
      z.dayOf start ≤ z.dayOf t ∧
        z.dayOf t ≤ max (z.dayOf start) (z.dayOf stop - 1) := by
  rw [← lastDay_allDay hz hlt title color hstart hstop hprev ht,
    ← midnight_le_iff hz hstart ht]
  simp only [occupies, dateOf_eq, Bool.and_eq_true, Bool.not_eq_true',
    decide_eq_false_iff_not, gt_iff_lt, not_lt]

theorem covers_allDay_iff {d e : Int} (hdates : HasDates z dates d e) (hde : d < e)
    (title color : String) :
    Covers z dates ⟨d * day, some (e * day), title, color, true⟩ d e ↔
      DatesKept z d e := by
  have hlt := Zone.mul_day_lt hde
  have hocc : ∀ t, dates (z.dayOf t) →
      (occupies z ⟨d * day, some (e * day), title, color, true⟩ t = true ↔
        z.dayOf (d * day) ≤ z.dayOf t ∧
          z.dayOf t ≤ max (z.dayOf (d * day)) (z.dayOf (e * day) - 1)) :=
    fun t ht => occupies_allDay hz hlt title color hdates.start hdates.stop
      hdates.beforeStop ht
  rw [datesKept_iff_dayOf]
  constructor
  · intro h
    have hdate : ∀ n, dates n → (z.dayOf (d * day) ≤ n ∧
        n ≤ max (z.dayOf (d * day)) (z.dayOf (e * day) - 1) ↔ d ≤ n ∧ n < e) := by
      intro n hn
      have hday := hz.dayOf_midnight n hn
      have hcovers := h (z.midnight n)
      have hcell := hocc (z.midnight n)
      rw [hday] at hcovers hcell
      rw [← hcovers hn, hcell hn]
    have hfirst := hdate d hdates.first
    have hstart := hdate _ hdates.start
    have hlast := hdate (e - 1) hdates.last
    have hend := hdate _ hdates.beforeStop
    omega
  · intro h t ht
    rw [hocc t ht]
    omega

theorem occupies_task {due t : Int} (title color : String)
    (hdue : dates (z.dayOf due)) (ht : dates (z.dayOf t)) :
    occupies z ⟨dateOf z due, none, title, color, true⟩ t = true ↔
      z.dayOf t = z.dayOf due := by
  simp only [occupies, lastDay, dateOf_eq, hz.dayOf_midnight _ hdue, Bool.and_eq_true,
    Bool.not_eq_true', decide_eq_false_iff_not, gt_iff_lt, not_lt,
    midnight_le_iff hz hdue ht, midnight_le_iff hz ht hdue]
  omega

theorem covers_task_iff {d : Int} (hd : dates d) (hstart : dates (z.dayOf (d * day)))
    (title color : String) :
    Covers z dates ⟨dateOf z (d * day), none, title, color, true⟩ d (d + 1) ↔
      SameDate z d := by
  rw [sameDate_iff_dayOf]
  constructor
  · intro h
    have hday := hz.dayOf_midnight d hd
    have hcovers := h (z.midnight d)
    rw [hday] at hcovers
    have hocc := (hcovers hd).mpr ⟨le_rfl, by omega⟩
    rw [occupies_task hz title color hstart (by rwa [hday]), hday] at hocc
    exact hocc.symm
  · intro h t ht
    rw [occupies_task hz title color hstart ht]
    omega

end Daily

/-! ## Entries -/

/-- A date-only event on the dates from `d` to before `e` passes the filter. -/
structure DateOnly (v : VEvent) (d e : Int) : Prop where
  noTime : 'T' ∉ v.dtStart.toList
  startAt : v.startAt = some (d * day)
  endAt : v.endAt = some (e * day)
  matched : v.matched = true

structure WholeDays (v : GraphEvent) (d e : Int) : Prop where
  allDay : v.isAllDay = true
  start : parseGraphTime v.start = d * day
  stop : parseGraphTime v.stop = e * day

theorem icsEvents_of_dateOnly {expand : String → Int → Int → Int → List Int}
    {w : Window} {v : VEvent} {d e : Int} (hd : zeroTime < d * day) (hde : d < e)
    (hv : DateOnly v d e) :
    icsEvents expand w v =
      if v.rrule ≠ "" ∧ expand v.rrule (d * day) w.expandFrom w.expandTo ≠ [] then
        (expand v.rrule (d * day) w.expandFrom w.expandTo).map fun t =>
          ⟨t, known (t + (e - d) * day), v.title, "", true⟩
      else [⟨d * day, some (e * day), v.title, "", true⟩] := by
  have hlt := Zone.mul_day_lt hde
  have hdur : 0 < e * day - d * day := by omega
  have hall : (! v.dtStart.toList.contains 'T') = true := by
    simpa using hv.noTime
  simp only [icsEvents, hv.startAt, hv.endAt, hv.matched, hall, Bool.not_true,
    Bool.false_eq_true, if_false, Option.bind_some, known_of_lt (lt_trans hd hlt),
    gt_iff_lt, hlt, if_true, hdur, Int.sub_mul]
  by_cases hrule : v.rrule = ""
  · simp [hrule]
  · simp [hrule]

theorem graphEvents_of_wholeDays {v : GraphEvent} {d e : Int}
    (hd : zeroTime < d * day) (hde : d < e) (hv : WholeDays v d e) :
    graphEvents [v] = [⟨d * day, some (e * day), v.subject, "", true⟩] := by
  have hlt := Zone.mul_day_lt hde
  simp only [graphEvents, List.filterMap_cons, List.filterMap_nil, hv.start, hv.stop,
    hv.allDay, if_neg (ne_of_gt hd), known_of_lt (lt_trans hd hlt)]

theorem icsEvents_date {expand : String → Int → Int → Int → List Int}
    {w : Window} {v : VEvent} {d e : Int} (hd : zeroTime < d * day) (hde : d < e)
    (hv : DateOnly v d e) {ev : CalEvent} (hev : ev ∈ icsEvents expand w v) {d' : Int}
    (hd' : zeroTime < d' * day) (hstart : ev.start = d' * day) :
    ev = ⟨d' * day, some ((d' + (e - d)) * day), v.title, "", true⟩ := by
  rw [icsEvents_of_dateOnly hd hde hv] at hev
  split at hev
  · obtain ⟨t, -, rfl⟩ := List.mem_map.mp hev
    simp only at hstart
    have hlt : zeroTime < (d' + (e - d)) * day := by
      simp only [day] at hd' ⊢
      omega
    rw [hstart, ← Int.add_mul, known_of_lt hlt]
  · rw [List.mem_singleton] at hev
    rw [hev] at hstart ⊢
    simp only at hstart
    have hdate : d' = d := by
      simp only [day] at hstart
      omega
    have hstop : d + (e - d) = e := by omega
    rw [hdate, hstop]

/--
The entries keep their dates iff the zone has the date of the start at midnight
UTC, and that of the end too unless the event is on one date and ends early.
-/
theorem allDay_dates_iff {z : Zone} {dates : Int → Prop} (hz : z.Daily dates) {d e : Int}
    (hdates : HasDates z dates d e) (hd : zeroTime < d * day) (hde : d < e) :
    (∀ expand w v, DateOnly v d e → ∀ ev ∈ icsEvents expand w v, ∀ d' : Int,
        HasDates z dates d' (d' + (e - d)) → zeroTime < d' * day → ev.start = d' * day →
        (Covers z dates ev d' (d' + (e - d)) ↔ DatesKept z d' (d' + (e - d)))) ∧
      (∀ expand w v, DateOnly v d e → v.rrule = "" →
        ∃ ev, icsEvents expand w v = [ev] ∧ (Covers z dates ev d e ↔ DatesKept z d e)) ∧
      (∀ v, WholeDays v d e →
        ∃ ev, graphEvents [v] = [ev] ∧ (Covers z dates ev d e ↔ DatesKept z d e)) ∧
      ∀ color t, t.due = some (d * day) →
        ∃ ev, taskEvent z color t = some ev ∧
          (Covers z dates ev d (d + 1) ↔ SameDate z d) := by
  refine ⟨?_, ?_, ?_, ?_⟩
  · intro expand w v hv ev hev d' hplay hd' hstart
    rw [icsEvents_date hd hde hv hev hd' hstart]
    exact covers_allDay_iff hz hplay (by omega) v.title ""
  · intro expand w v hv hrule
    refine ⟨_, ?_, covers_allDay_iff hz hdates hde v.title ""⟩
    rw [icsEvents_of_dateOnly hd hde hv, if_neg (by simp [hrule])]
  · intro v hv
    exact ⟨_, graphEvents_of_wholeDays hd hde hv,
      covers_allDay_iff hz hdates hde v.subject ""⟩
  · intro color t ht
    refine ⟨⟨dateOf z (d * day), none, t.title, color, true⟩, ?_,
      covers_task_iff hz hdates.first hdates.start t.title color⟩
    rw [taskEvent, ht, Option.map_some]

theorem fixed_daily {offset : Int} (hoffset : -day ≤ offset ∧ offset ≤ day) :
    (Zone.fixed offset).Daily Zone.Near :=
  Zone.daily_of_dated fun _ hn => Zone.fixed_dated hoffset hn

def feedTrip : VEvent :=
  ⟨"Kamp", "20240701", some (19905 * day), some (19907 * day), "", true⟩

def graphTrip : GraphEvent :=
  ⟨"Kamp", true, "2024-07-01T00:00:00.0000000", "2024-07-03T00:00:00.0000000"⟩

def deadline : TodoTask := ⟨"Inschrijven", some (19905 * day)⟩

theorem allDay_dates_iff_july :
    (Covers (.fixed (2 * hour)) Zone.Near
        ⟨19905 * day, some (19907 * day), "Kamp", "", true⟩
        19905 (19905 + (19907 - 19905)) ↔
      DatesKept (.fixed (2 * hour)) 19905 (19905 + (19907 - 19905))) ∧
    (∃ ev, icsEvents (fun _ _ _ _ => []) ⟨0, 0⟩ feedTrip = [ev] ∧
      (Covers (.fixed (2 * hour)) Zone.Near ev 19905 19907 ↔
        DatesKept (.fixed (2 * hour)) 19905 19907)) ∧
    (∃ ev, graphEvents [graphTrip] = [ev] ∧
      (Covers (.fixed (2 * hour)) Zone.Near ev 19905 19907 ↔
        DatesKept (.fixed (2 * hour)) 19905 19907)) ∧
    ∃ ev, taskEvent (.fixed (2 * hour)) "" deadline = some ev ∧
      (Covers (.fixed (2 * hour)) Zone.Near ev 19905 (19905 + 1) ↔
        SameDate (.fixed (2 * hour)) 19905) := by
  have hfeed : DateOnly feedTrip 19905 19907 := by
    constructor <;> decide
  have hgraph : WholeDays graphTrip 19905 19907 := by
    constructor <;> decide +kernel
  have hdates : HasDates (.fixed (2 * hour)) Zone.Near 19905 19907 := by
    constructor <;> decide +kernel
  have hdaily : (Zone.fixed (2 * hour)).Daily Zone.Near := fixed_daily (by decide)
  obtain ⟨hocc, hics, hout, htask⟩ :=
    allDay_dates_iff hdaily hdates (by decide) (by decide)
  exact ⟨hocc (fun _ _ _ _ => []) ⟨0, 0⟩ feedTrip hfeed _
      (List.mem_singleton.mpr rfl) 19905 hdates (by decide) rfl,
    hics _ _ feedTrip hfeed rfl, hout graphTrip hgraph, htask "" deadline rfl⟩

def newYork : Zone := .fixed (-4 * hour)

/-- There the entries of the first of July are on the thirtieth of June. -/
theorem allDay_dates_not_kept :
    DateOnly feedTrip 19905 19907 ∧ WholeDays graphTrip 19905 19907 ∧
    deadline.due = some (19905 * day) ∧
    (∃ ev, icsEvents (fun _ _ _ _ => []) ⟨0, 0⟩ feedTrip = [ev] ∧
      occupies newYork ev (newYork.midnight 19904) = true ∧
      ¬ Covers newYork Zone.Near ev 19905 19907) ∧
    (∃ ev, graphEvents [graphTrip] = [ev] ∧
      occupies newYork ev (newYork.midnight 19904) = true ∧
      ¬ Covers newYork Zone.Near ev 19905 19907) ∧
    ∃ ev, taskEvent newYork "" deadline = some ev ∧
      occupies newYork ev (newYork.midnight 19904) = true ∧
      ¬ Covers newYork Zone.Near ev 19905 (19905 + 1) := by
  have hz : newYork.Daily Zone.Near := fixed_daily (by decide)
  have hnear : Zone.Near 19904 := by decide
  have hdate : newYork.dayOf (newYork.midnight 19904) = 19904 :=
    hz.dayOf_midnight 19904 hnear
  have hbefore : ∀ ev e, occupies newYork ev (newYork.midnight 19904) = true →
      ¬ Covers newYork Zone.Near ev 19905 e := by
    intro ev e hocc hcovers
    have hday := (hcovers _ (by rwa [hdate])).mp hocc
    omega
  have hfeed : occupies newYork ⟨19905 * day, some (19907 * day), "Kamp", "", true⟩
      (newYork.midnight 19904) = true := by
    rw [occupies_allDay hz (by decide) _ _ (by decide) (by decide) (by decide)
      (by rwa [hdate]), hdate]
    decide
  have htask : occupies newYork ⟨dateOf newYork (19905 * day), none, "Inschrijven",
      "", true⟩ (newYork.midnight 19904) = true := by
    rw [occupies_task hz _ _ (by decide) (by rwa [hdate]), hdate]
    decide
  refine ⟨?_, ?_, rfl, ⟨_, ?_, hfeed, hbefore _ _ hfeed⟩,
    ⟨_, ?_, hfeed, hbefore _ _ hfeed⟩, ⟨_, rfl, htask, hbefore _ _ htask⟩⟩
  · constructor <;> decide
  · constructor <;> decide +kernel
  · decide +kernel
  · decide +kernel

end FamilyPlanner.Calendar
