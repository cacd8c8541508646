import Mathlib.Data.List.MinMax
import FamilyPlanner.Calendar.Event
import FamilyPlanner.Foundation.Sorting

/-!
# The agenda

Events that start in the window, in the order of their starts, at most thirty
of them.  The window is a matter of start times, while an event may go on for
days.
-/

namespace FamilyPlanner.Calendar

open FamilyPlanner.Foundation FamilyPlanner.Foundation.Clock FamilyPlanner.Widget

/-- `sort.Slice` by start time; events of one time may end up in any order. -/
abbrev ByStart := SortBy CalEvent.start

def agendaAhead (cfg : CalendarConfig) : Int :=
  let ahead := atoiDefault cfg.weeksAhead 4
  if ahead < 1 then 1 else ahead

/-- The window of the agenda; `upto` is exclusive. -/
structure Span where
  since : Int
  upto : Int
  deriving DecidableEq, Repr

def agendaSpan (z : Zone) (now : Int) (cfg : CalendarConfig) : Span :=
  let before := atoiDefault cfg.weeksBefore 0
  let ahead := agendaAhead cfg
  let startOfToday := dateOf z now
  let offset := weekdayOf z startOfToday
  let weekStart := z.addDays startOfToday (-offset)
  { since := z.addDays weekStart (int64 (-before * 7))
    upto := z.addDays startOfToday (int64 (ahead * 7 + 1)) }

def inSpan (w : Span) (all : List CalEvent) : List CalEvent :=
  all.filter fun e => ! (e.start < w.since || ! (e.start < w.upto))

def agendaEvents (z : Zone) (sort : ByStart) (now : Int) (all : List CalEvent)
    (cfg : CalendarConfig) : List CalEvent :=
  let evs := sort.sort (inSpan (agendaSpan z now cfg) all)
  if evs.length > 30 then evs.take 30 else evs

def agendaEvent (z : Zone) (now : Int) (e : CalEvent) : CalendarEvent :=
  let d := dateAt z e.start
  let when_ := s!"{weekdayShort z e.start} {d.day} {monthShort d}"
  { when := if e.allDay then when_ else when_ ++ s!" {clockText z e.start}"
    title := e.title
    color := e.color
    today := sameDate z e.start now }

def buildAgenda (z : Zone) (sort : ByStart) (now : Int) (all : List CalEvent)
    (cfg : CalendarConfig) : List CalendarEvent :=
  (agendaEvents z sort now all cfg).map (agendaEvent z now)

theorem mem_inSpan {w : Span} {all : List CalEvent} {e : CalEvent} :
    e ∈ inSpan w all ↔ e ∈ all ∧ w.since ≤ e.start ∧ e.start < w.upto := by
  simp [inSpan]

theorem agendaEvents_eq_take (z : Zone) (sort : ByStart) (now : Int)
    (all : List CalEvent) (cfg : CalendarConfig) :
    agendaEvents z sort now all cfg =
      (sort.sort (inSpan (agendaSpan z now cfg) all)).take 30 := by
  unfold agendaEvents
  simp only
  split
  · rfl
  · exact (List.take_of_length_le (by omega)).symm

/-! ## The cap -/

def Coming (z : Zone) (now : Int) (e : CalEvent) : Prop :=
  z.dayOf now ≤ z.dayOf e.start

instance (z : Zone) (now : Int) (e : CalEvent) : Decidable (Coming z now e) :=
  inferInstanceAs (Decidable (_ ≤ _))

structure Earliest (z : Zone) (now : Int) (l : List CalEvent) (e : CalEvent) : Prop where
  mem : e ∈ l
  coming : Coming z now e
  least : ∀ e' ∈ l, Coming z now e' → e.start ≤ e'.start

theorem exists_earliest {z : Zone} {now : Int} {l : List CalEvent}
    (h : ∃ e ∈ l, Coming z now e) : ∃ e, Earliest z now l e := by
  obtain ⟨e, he, hcoming⟩ := h
  have hmem : e ∈ l.filter fun e => Coming z now e := by
    simpa using ⟨he, hcoming⟩
  cases hmin : (l.filter fun e => Coming z now e).argmin CalEvent.start with
  | none =>
      rw [List.argmin_eq_none] at hmin
      rw [hmin] at hmem
      cases hmem
  | some m =>
      have hm : m ∈ l.filter fun e => Coming z now e := List.argmin_mem hmin
      rw [List.mem_filter, decide_eq_true_iff] at hm
      refine ⟨m, hm.1, hm.2, fun e' he' hcoming' => ?_⟩
      apply List.le_of_mem_argmin _ hmin
      simpa using ⟨he', hcoming'⟩

theorem coming_of_start_eq {z : Zone} {now : Int} {e e' : CalEvent}
    (h : e'.start = e.start) (he : Coming z now e) : Coming z now e' := by
  unfold Coming at *
  rw [h]
  exact he

/-- The cap leaves room for what is coming iff fewer than thirty events of the
window start before it. -/
theorem agenda_coming_iff (z : Zone) (sort : ByStart) (now : Int)
    (all : List CalEvent) (cfg : CalendarConfig) :
    buildAgenda z sort now all cfg =
        (agendaEvents z sort now all cfg).map (agendaEvent z now) ∧
      (((∃ e ∈ inSpan (agendaSpan z now cfg) all, Coming z now e) →
        ∃ e ∈ agendaEvents z sort now all cfg,
          Earliest z now (inSpan (agendaSpan z now cfg) all) e) ↔
      ∀ e, Earliest z now (inSpan (agendaSpan z now cfg) all) e →
        (inSpan (agendaSpan z now cfg) all).countP (·.start < e.start) < 30) := by
  refine ⟨rfl, ?_⟩
  rw [agendaEvents_eq_take]
  constructor
  · intro h e he
    obtain ⟨e', hshown, he'⟩ := h ⟨e, he.mem, he.coming⟩
    rw [← sort.exists_mem_take_iff he.mem]
    have hle := he.least e' he'.mem he'.coming
    have hge := he'.least e he.mem he.coming
    exact ⟨e', hshown, le_antisymm hge hle⟩
  · intro h hsome
    obtain ⟨e, he⟩ := exists_earliest hsome
    obtain ⟨e', hshown, hstart⟩ := (sort.exists_mem_take_iff he.mem 30).mpr (h e he)
    refine ⟨e', hshown, ?_, coming_of_start_eq hstart he.coming, ?_⟩
    · exact sort.mem_sort.mp (List.mem_of_mem_take hshown)
    · intro e'' he'' hcoming
      rw [hstart]
      exact he.least e'' he'' hcoming

def blankAgenda : CalendarConfig := ⟨"", "agenda", "", "", "", ""⟩

def busy : List CalEvent :=
  List.replicate 30 ⟨4 * day + 9 * hour, none, "School", "", false⟩ ++
    [⟨7 * day + 9 * hour, none, "Tandarts", "", false⟩]

/-- On Wednesday the agenda shows what was on Monday and nothing else. -/
theorem agenda_drops_coming :
    ¬ ((∃ e ∈ inSpan (agendaSpan (.fixed 0) (6 * day) blankAgenda) busy,
        Coming (.fixed 0) (6 * day) e) →
      ∃ e ∈ agendaEvents (.fixed 0) (.stable _) (6 * day) busy blankAgenda,
        Earliest (.fixed 0) (6 * day)
          (inSpan (agendaSpan (.fixed 0) (6 * day) blankAgenda) busy) e) := by
  intro h
  have hpast : ∀ e ∈ agendaEvents (.fixed 0) (.stable _) (6 * day) busy blankAgenda,
      ¬ Coming (.fixed 0) (6 * day) e := by
    decide +kernel
  obtain ⟨e, hshown, he⟩ := h (by decide +kernel)
  exact hpast e hshown he.coming

/-! ## The window -/

def agendaFirst (z : Zone) (now : Int) (cfg : CalendarConfig) : Int :=
  z.dayOf now - weekday (z.dayOf now) - 7 * atoiDefault cfg.weeksBefore 0

def agendaEnd (z : Zone) (now : Int) (cfg : CalendarConfig) : Int :=
  z.dayOf now + 7 * agendaAhead cfg + 1

/-- The products that `buildAgenda` forms of the weeks fit in 64 bits. -/
def AgendaFits (cfg : CalendarConfig) : Prop :=
  7 * atoiDefault cfg.weeksBefore 0 < 2 ^ 63 ∧ 7 * agendaAhead cfg + 1 < 2 ^ 63

instance (cfg : CalendarConfig) : Decidable (AgendaFits cfg) :=
  inferInstanceAs (Decidable (_ ∧ _))

theorem agendaAhead_pos (cfg : CalendarConfig) : 1 ≤ agendaAhead cfg := by
  simp only [agendaAhead]
  omega

structure SpanReached (z : Zone) (now : Int) (cfg : CalendarConfig) : Prop where
  today : z.Shown (z.dayOf now * day)
  monday : z.Reaches ((z.dayOf now - weekday (z.dayOf now)) * day)
  first : z.Reaches (agendaFirst z now cfg * day)
  stop : z.Reaches (agendaEnd z now cfg * day)

/-- The dates in play: those midnights, the dates in between, and the events' own. -/
structure AgendaInPlay (z : Zone) (now : Int) (all : List CalEvent)
    (cfg : CalendarConfig) : Prop extends SpanReached z now cfg where
  window : ∀ n, agendaFirst z now cfg ≤ n → n < agendaEnd z now cfg →
    z.dayOf (z.midnight n) = n
  events : ∀ e ∈ all, Settled z e

theorem agendaSpan_eq {z : Zone} {now : Int} {cfg : CalendarConfig}
    (hz : SpanReached z now cfg) (hcfg : AgendaFits cfg) :
    agendaSpan z now cfg =
      ⟨z.midnight (agendaFirst z now cfg), z.midnight (agendaEnd z now cfg)⟩ := by
  have hbefore := weeksBefore_nonneg cfg
  have hahead := agendaAhead_pos cfg
  obtain ⟨hback, hforth⟩ := hcfg
  have htoday := hz.today
  have hmonday : z.addDays (z.midnight (z.dayOf now)) (-weekday (z.dayOf now)) =
      z.midnight (z.dayOf now - weekday (z.dayOf now)) :=
    Zone.addDays_midnight htoday hz.monday
  have hfirst : z.dayOf now - weekday (z.dayOf now) +
      -atoiDefault cfg.weeksBefore 0 * 7 = agendaFirst z now cfg := by
    unfold agendaFirst
    omega
  have hend : z.dayOf now + (agendaAhead cfg * 7 + 1) = agendaEnd z now cfg := by
    unfold agendaEnd
    omega
  have hsince : z.addDays (z.midnight (z.dayOf now - weekday (z.dayOf now)))
      (-atoiDefault cfg.weeksBefore 0 * 7) = z.midnight (agendaFirst z now cfg) := by
    rw [← hfirst]
    apply Zone.addDays_midnight hz.monday.shown
    rw [hfirst]
    exact hz.first
  have hupto : z.addDays (z.midnight (z.dayOf now)) (agendaAhead cfg * 7 + 1) =
      z.midnight (agendaEnd z now cfg) := by
    rw [← hend]
    apply Zone.addDays_midnight htoday
    rw [hend]
    exact hz.stop
  simp only [agendaSpan, dateOf_eq, weekdayOf, Zone.dayOf_midnight htoday, hmonday,
    int64_eq (n := -atoiDefault cfg.weeksBefore 0 * 7) (by omega) (by omega),
    int64_eq (n := agendaAhead cfg * 7 + 1) (by omega) (by omega), hsince, hupto]

def Meets (z : Zone) (now : Int) (cfg : CalendarConfig) (e : CalEvent) : Prop :=
  ∃ n, agendaFirst z now cfg ≤ n ∧ n < agendaEnd z now cfg ∧
    occupies z e (z.midnight n) = true

/-- The agenda lists and flags the events by the days they occupy. -/
structure Agrees (z : Zone) (sort : ByStart) (now : Int) (all : List CalEvent)
    (cfg : CalendarConfig) : Prop where
  listed : ∀ e ∈ all, e ∈ agendaEvents z sort now all cfg ↔ Meets z now cfg e
  flagged : ∀ e ∈ agendaEvents z sort now all cfg,
    (agendaEvent z now e).today = occupies z e now

/--
No event reaches into the window, or into today, from before, and none starts
on the day after the window ahead of the instant that `time.Date` takes for its
midnight.
-/
structure StartsInside (z : Zone) (now : Int) (all : List CalEvent)
    (cfg : CalendarConfig) : Prop where
  early : ∀ e ∈ all, e.start < z.midnight (agendaFirst z now cfg) →
    lastNumber z e < agendaFirst z now cfg
  late : ∀ e ∈ all, z.dayOf e.start = agendaEnd z now cfg →
    z.midnight (agendaEnd z now cfg) ≤ e.start
  today : ∀ e ∈ inSpan (agendaSpan z now cfg) all, z.dayOf e.start < z.dayOf now →
    lastNumber z e < z.dayOf now

theorem agendaFirst_lt_end (z : Zone) (now : Int) (cfg : CalendarConfig) :
    agendaFirst z now cfg < agendaEnd z now cfg := by
  have hbefore := weeksBefore_nonneg cfg
  have hahead := agendaAhead_pos cfg
  unfold agendaFirst agendaEnd weekday
  omega

section InPlay

variable {z : Zone} {now : Int} {all : List CalEvent} {cfg : CalendarConfig}
  (hz : AgendaInPlay z now all cfg) {e : CalEvent} (he : e ∈ all)

include hz he

theorem meets_iff :
    Meets z now cfg e ↔
      z.dayOf e.start < agendaEnd z now cfg ∧
        agendaFirst z now cfg ≤ lastNumber z e := by
  have hsettled := hz.events e he
  have hlast := le_lastNumber hsettled
  have hwindow := agendaFirst_lt_end z now cfg
  constructor
  · rintro ⟨n, hfirst, hend, hocc⟩
    rw [occupies_midnight hsettled (hz.window n hfirst hend)] at hocc
    omega
  · rintro ⟨hstart, hstop⟩
    have hfirst : agendaFirst z now cfg ≤
        max (z.dayOf e.start) (agendaFirst z now cfg) := le_max_right _ _
    have hend : max (z.dayOf e.start) (agendaFirst z now cfg) <
        agendaEnd z now cfg := max_lt hstart hwindow
    refine ⟨_, hfirst, hend, ?_⟩
    rw [occupies_midnight hsettled (hz.window _ hfirst hend)]
    omega

theorem listed_iff :
    ((z.midnight (agendaFirst z now cfg) ≤ e.start ∧
        e.start < z.midnight (agendaEnd z now cfg)) ↔ Meets z now cfg e) ↔
      (e.start < z.midnight (agendaFirst z now cfg) →
        lastNumber z e < agendaFirst z now cfg) ∧
      (z.dayOf e.start = agendaEnd z now cfg →
        z.midnight (agendaEnd z now cfg) ≤ e.start) := by
  have hsettled := hz.events e he
  have hfirstDay := Zone.dayOf_midnight hz.first.shown
  have hendDay := Zone.dayOf_midnight hz.stop.shown
  have hfirst : z.dayOf e.start < agendaFirst z now cfg →
      e.start < z.midnight (agendaFirst z now cfg) :=
    Zone.lt_midnight hsettled.start hfirstDay
  have hfirst' : agendaFirst z now cfg < z.dayOf e.start →
      z.midnight (agendaFirst z now cfg) < e.start :=
    Zone.midnight_lt hsettled.start hfirstDay
  have hend : z.dayOf e.start < agendaEnd z now cfg →
      e.start < z.midnight (agendaEnd z now cfg) :=
    Zone.lt_midnight hsettled.start hendDay
  have hend' : agendaEnd z now cfg < z.dayOf e.start →
      z.midnight (agendaEnd z now cfg) < e.start :=
    Zone.midnight_lt hsettled.start hendDay
  have hwindow := agendaFirst_lt_end z now cfg
  have hlast := le_lastNumber hsettled
  rw [meets_iff hz he]
  omega

theorem today_iff :
    (agendaEvent z now e).today = occupies z e now ↔
      (z.dayOf e.start < z.dayOf now → lastNumber z e < z.dayOf now) := by
  have hsettled := hz.events e he
  have hlast := le_lastNumber hsettled
  have htoday : (agendaEvent z now e).today = sameDate z e.start now := rfl
  rw [htoday, Bool.eq_iff_iff, sameDate_iff,
    occupies_iff hsettled (Zone.dayOf_midnight hz.today)]
  omega

end InPlay

theorem mem_agendaEvents {z : Zone} {sort : ByStart} {now : Int}
    {all : List CalEvent} {cfg : CalendarConfig}
    (hfew : (inSpan (agendaSpan z now cfg) all).length ≤ 30) {e : CalEvent} :
    e ∈ agendaEvents z sort now all cfg ↔ e ∈ inSpan (agendaSpan z now cfg) all := by
  rw [agendaEvents_eq_take, List.take_of_length_le (by simpa using hfew),
    sort.mem_sort]

/-- With at most thirty events in the window, the agenda agrees with the grids
iff no event reaches in from before. -/
theorem agenda_agrees_iff {z : Zone} {now : Int} {all : List CalEvent}
    {cfg : CalendarConfig} (hz : AgendaInPlay z now all cfg) (sort : ByStart)
    (hcfg : AgendaFits cfg)
    (hfew : (inSpan (agendaSpan z now cfg) all).length ≤ 30) :
    Agrees z sort now all cfg ↔ StartsInside z now all cfg := by
  have hmem : ∀ e ∈ all, (e ∈ agendaEvents z sort now all cfg ↔
      z.midnight (agendaFirst z now cfg) ≤ e.start ∧
        e.start < z.midnight (agendaEnd z now cfg)) := by
    intro e he
    rw [mem_agendaEvents hfew, mem_inSpan, agendaSpan_eq hz.toSpanReached hcfg]
    simp only [he, true_and]
  have hlists : ∀ e, e ∈ agendaEvents z sort now all cfg ↔
      e ∈ inSpan (agendaSpan z now cfg) all := fun _ => mem_agendaEvents hfew
  constructor
  · rintro ⟨hlisted, hflagged⟩
    refine ⟨?_, ?_, ?_⟩
    · intro e he
      exact ((listed_iff hz he).mp ((hmem e he).symm.trans (hlisted e he))).1
    · intro e he
      exact ((listed_iff hz he).mp ((hmem e he).symm.trans (hlisted e he))).2
    · intro e he
      exact (today_iff hz (mem_inSpan.mp he).1).mp (hflagged e ((hlists e).mpr he))
  · rintro ⟨hearly, hlate, htoday⟩
    constructor
    · intro e he
      exact (hmem e he).trans ((listed_iff hz he).mpr ⟨hearly e he, hlate e he⟩)
    · intro e he
      have hspan := (hlists e).mp he
      exact (today_iff hz (mem_inSpan.mp hspan).1).mpr (htoday e hspan)

def camp : CalEvent := ⟨1 * day + 9 * hour, some (5 * day + 9 * hour), "Kamp", "", false⟩

def fair : CalEvent := ⟨4 * day + 9 * hour, some (6 * day + 9 * hour), "Kermis", "", false⟩

theorem agenda_agrees_iff_fair :
    Agrees (.fixed 0) (.stable _) (6 * day) [fair] blankAgenda ↔
      StartsInside (.fixed 0) (6 * day) [fair] blankAgenda := by
  have hoffset : -day ≤ 0 ∧ 0 ≤ day := by decide
  have hplay : AgendaInPlay (.fixed 0) (6 * day) [fair] blankAgenda := by
    refine ⟨⟨Zone.fixed_shown _, ?_, ?_, ?_⟩, ?_, ?_⟩
    · exact Zone.fixed_reaches hoffset (by decide +kernel)
    · exact Zone.fixed_reaches hoffset (by decide +kernel)
    · exact Zone.fixed_reaches hoffset (by decide +kernel)
    · intro n _ _
      exact Zone.dayOf_midnight (Zone.fixed_shown _)
    · intro e he
      obtain rfl := List.mem_singleton.mp he
      apply settled_of_ordered Zone.fixed_ordered
      · exact Zone.fixed_reaches hoffset (by decide +kernel)
      · intro stop hstop
        cases hstop
        constructor
        all_goals exact Zone.fixed_reaches hoffset (by decide +kernel)
  exact agenda_agrees_iff hplay (.stable _) (by decide +kernel) (by decide +kernel)

/-- On Tuesday the grids show both, the agenda lists only the one from Monday,
and does not flag it. -/
theorem agenda_disagrees :
    occupies (.fixed 0) camp (5 * day) = true ∧
    occupies (.fixed 0) fair (5 * day) = true ∧
    (buildAgenda (.fixed 0) (.stable _) (5 * day) [camp, fair] blankAgenda).map
      (fun e => (e.title, e.today)) = [("Kermis", false)] ∧
    ¬ Agrees (.fixed 0) (.stable _) (5 * day) [camp, fair] blankAgenda := by
  refine ⟨by decide +kernel, by decide +kernel, by decide +kernel, fun h => ?_⟩
  have hflag := h.flagged fair (by decide +kernel)
  exact absurd hflag (by decide +kernel)

end FamilyPlanner.Calendar
