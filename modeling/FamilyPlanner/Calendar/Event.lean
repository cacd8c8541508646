import FamilyPlanner.Foundation.Civil
import FamilyPlanner.Foundation.Zone
import FamilyPlanner.Widget.Providers
import FamilyPlanner.Widget.Registry

/-!
# Events on the days of a calendar

An event covers the days from its start to `lastDay`.  Where its own dates have
their midnights and do not go back, that is an interval of day numbers; how it
differs from the days the event really meets is a matter of its last instant.
-/

namespace FamilyPlanner.Calendar

open FamilyPlanner.Foundation FamilyPlanner.Foundation.Clock FamilyPlanner.Widget

def dateAt (z : Zone) (t : Int) : Date := civil (z.dayOf t)

def dateOf (z : Zone) (t : Int) : Int := z.midnight (dateAt z t).number

def sameDate (z : Zone) (a b : Int) : Bool := dateAt z a = dateAt z b

def nlMonthShort : List String :=
  ["jan", "feb", "mrt", "apr", "mei", "jun", "jul", "aug", "sep", "okt", "nov", "dec"]

def nlMonthFull : List String :=
  ["januari", "februari", "maart", "april", "mei", "juni", "juli", "augustus",
    "september", "oktober", "november", "december"]

def nlWeekday : List String := ["ma", "di", "wo", "do", "vr", "za", "zo"]

def monthShort (d : Date) : String := nlMonthShort.getD (d.monthOfYear - 1).toNat ""

def monthFull (d : Date) : String := nlMonthFull.getD (d.monthOfYear - 1).toNat ""

/-- `(int(t.Weekday()) + 6) % 7`, so that Monday is 0. -/
def weekdayOf (z : Zone) (t : Int) : Int := weekday (z.dayOf t)

def weekdayShort (z : Zone) (t : Int) : String :=
  nlWeekday.getD (weekdayOf z t).toNat ""

def pad2 (n : Int) : String := if n < 10 then s!"0{n}" else s!"{n}"

def clockText (z : Zone) (t : Int) : String :=
  s!"{pad2 (z.hourOf t)}:{pad2 (z.minuteOf t)}"

def atoiDefault (s : String) (default : Int) : Int :=
  match atoi (trimSpace s) with
  | some n => if 0 ≤ n then n else default
  | none => default

def lastDay (z : Zone) (e : CalEvent) : Int :=
  let sd := dateOf z e.start
  match e.stop with
  | none => sd
  | some stop =>
      if ¬ stop > e.start then sd
      else
        let ed := dateOf z stop
        let ed := if e.allDay ∨ stop = ed then z.addDays ed (-1) else ed
        if ed < sd then sd else ed

def occupies (z : Zone) (e : CalEvent) (day : Int) : Bool :=
  let d := dateOf z day
  ! (d < dateOf z e.start) && ! (d > lastDay z e)

def onDay (z : Zone) (e : CalEvent) (day : Int) : String :=
  if e.allDay ∨ ! sameDate z e.start day then "• " ++ e.title
  else s!"{clockText z e.start} {e.title}"

def item (z : Zone) (e : CalEvent) (day : Int) : CalItem where
  text := onDay z e day
  color := e.color

/-! ## Days as numbers -/

theorem dateOf_eq (z : Zone) (t : Int) : dateOf z t = z.midnight (z.dayOf t) := by
  rw [dateOf, dateAt, number_civil]

theorem sameDate_iff {z : Zone} {a b : Int} :
    sameDate z a b = true ↔ z.dayOf a = z.dayOf b := by
  simp [sameDate, dateAt, civil_injective.eq_iff]

theorem atoiDefault_nonneg (s : String) {n : Int} (h : 0 ≤ n) :
    0 ≤ atoiDefault s n := by
  unfold atoiDefault
  split
  · split
    · assumption
    · exact h
  · exact h

theorem weeksBefore_nonneg (cfg : CalendarConfig) :
    0 ≤ atoiDefault cfg.weeksBefore 0 := atoiDefault_nonneg _ le_rfl

theorem weeksAhead_nonneg (cfg : CalendarConfig) :
    0 ≤ atoiDefault cfg.weeksAhead 1 := atoiDefault_nonneg _ (by decide)

theorem int64_eq {n : Int} (hn : -2 ^ 63 ≤ n) (hn' : n < 2 ^ 63) : int64 n = n := by
  unfold int64
  omega

def lastNumber (z : Zone) (e : CalEvent) : Int :=
  match e.stop with
  | none => z.dayOf e.start
  | some stop =>
      if stop ≤ e.start then z.dayOf e.start
      else if e.allDay ∨ stop = z.midnight (z.dayOf stop) then
        max (z.dayOf e.start) (z.dayOf stop - 1)
      else z.dayOf stop

/--
The event is on day `n`: its start day, the dates before the end date of an
all-day event, and each date with an instant before the end of a timed one.
-/
def On (z : Zone) (e : CalEvent) (n : Int) : Prop :=
  n = z.dayOf e.start ∨
    ∃ stop, e.stop = some stop ∧
      if e.allDay then z.dayOf e.start ≤ n ∧ n < z.dayOf stop
      else ∃ t, e.start ≤ t ∧ t < stop ∧ z.dayOf t = n

def IsFirst (z : Zone) (t : Int) : Prop := ∀ t', t' < t → z.dayOf t' ≠ z.dayOf t

/--
Where day `n` is the end day, after the start day, of a timed event: `time.Date`
takes the end for the midnight iff no instant of that date is earlier.
-/
def EndsRight (z : Zone) (e : CalEvent) (n : Int) : Prop :=
  ∀ stop, e.stop = some stop → e.allDay = false → e.start < stop →
    z.dayOf e.start < n → n = z.dayOf stop → (stop = z.midnight n ↔ IsFirst z stop)

/-- The dates do not go back over the start and the end of the event, nor over
the midnights that its last day is computed from. -/
structure Settled (z : Zone) (e : CalEvent) : Prop where
  start : z.Ordered e.start
  startDate : z.Dated (z.dayOf e.start)
  stop : ∀ stop, e.stop = some stop → e.start < stop → z.Ordered stop
  stopDate : ∀ stop, e.stop = some stop → e.start < stop →
    z.Dated (z.dayOf stop) ∧ z.Dated (z.dayOf stop - 1)

theorem settled_of_ordered {z : Zone} {e : CalEvent} (hz : ∀ t, z.Ordered t)
    (hstart : z.Reaches (z.dayOf e.start * day))
    (hstop : ∀ stop, e.stop = some stop → z.Reaches (z.dayOf stop * day) ∧
      z.Reaches ((z.dayOf stop - 1) * day)) : Settled z e where
  start := hz _
  startDate := ⟨hstart, hz _⟩
  stop := fun stop _ _ => hz stop
  stopDate := fun stop hend _ => ⟨⟨(hstop stop hend).1, hz _⟩, (hstop stop hend).2, hz _⟩

section Settled

variable {z : Zone} {e : CalEvent} (he : Settled z e)

include he

theorem lastDay_eq : lastDay z e = z.midnight (lastNumber z e) := by
  have hstart := he.startDate
  simp only [lastDay, lastNumber, dateOf_eq]
  cases hend : e.stop with
  | none => rfl
  | some stop =>
      by_cases hstop : stop ≤ e.start
      · simp [hstop]
      · obtain ⟨hlast, hprev⟩ := he.stopDate stop hend (by omega)
        have hday := he.start.future stop (by omega)
        have hback : z.addDays (z.midnight (z.dayOf stop)) (-1) =
            z.midnight (z.dayOf stop - 1) :=
          Zone.addDays_midnight hlast.midnight.shown hprev.midnight
        simp only [not_lt, hstop, if_false]
        split
        · rw [hback]
          simp only [Zone.midnight_lt_iff hprev hstart.dayOf_midnight]
          split
          · rw [max_eq_left (by omega)]
          · rw [max_eq_right (by omega)]
        · simp only [Zone.midnight_lt_iff hlast hstart.dayOf_midnight]
          rw [if_neg (by omega)]

theorem le_lastNumber : z.dayOf e.start ≤ lastNumber z e := by
  unfold lastNumber
  split
  · exact le_rfl
  case h_2 stop _ =>
    split
    · exact le_rfl
    · split
      · exact le_max_left _ _
      · exact he.start.future _ (by omega)

theorem lastNumber_dated : z.Dated (lastNumber z e) := by
  unfold lastNumber
  split
  · exact he.startDate
  case h_2 stop hend =>
    split
    · exact he.startDate
    · obtain ⟨hlast, hprev⟩ := he.stopDate stop hend (by omega)
      split
      · rcases max_choice (z.dayOf e.start) (z.dayOf stop - 1) with hmax | hmax
        · rw [hmax]
          exact he.startDate
        · rw [hmax]
          exact hprev
      · exact hlast

theorem occupies_iff {day : Int}
    (hday : z.dayOf (z.midnight (z.dayOf day)) = z.dayOf day) :
    occupies z e day = true ↔
      z.dayOf e.start ≤ z.dayOf day ∧ z.dayOf day ≤ lastNumber z e := by
  have hlast := lastNumber_dated he
  simp only [occupies, lastDay_eq he, dateOf_eq, Bool.and_eq_true,
    Bool.not_eq_true', decide_eq_false_iff_not, gt_iff_lt,
    Zone.midnight_lt_iff hlast hday, Zone.lt_midnight_iff he.startDate hday]
  omega

theorem occupies_midnight {n : Int} (hn : z.dayOf (z.midnight n) = n) :
    occupies z e (z.midnight n) = true ↔
      z.dayOf e.start ≤ n ∧ n ≤ lastNumber z e := by
  rw [occupies_iff he (by rw [hn, hn]), hn]

end Settled

section Timed

variable {z : Zone} {t t' n : Int} (ht : z.Ordered t) (ht' : z.Ordered t')

include ht ht'

theorem exists_between (hn : z.dayOf (z.midnight n) = n) (h : z.dayOf t < n)
    (h' : n < z.dayOf t') : ∃ u, t ≤ u ∧ u < t' ∧ z.dayOf u = n :=
  ⟨z.midnight n, (Zone.lt_midnight ht hn h).le, Zone.midnight_lt ht' hn h', hn⟩

omit ht' in
/-- The end date is met before the end unless the end is its first instant. -/
theorem exists_before_iff (h : z.dayOf t < z.dayOf t') :
    (∃ u, t ≤ u ∧ u < t' ∧ z.dayOf u = z.dayOf t') ↔ ¬ IsFirst z t' := by
  unfold IsFirst
  constructor
  · rintro ⟨u, -, hu, hday⟩ hfirst
    exact hfirst u hu hday
  · intro hfirst
    simp only [not_forall, not_not] at hfirst
    obtain ⟨u, hu, hday⟩ := hfirst
    refine ⟨u, ?_, hu, hday⟩
    by_contra hlt
    have hback := ht.past u (by omega)
    omega

/-- The days of a timed event from `t` to `t'`, by `lastDay` and by instants. -/
theorem timed_iff (hn : z.dayOf (z.midnight n) = n) (h : z.dayOf t ≤ z.dayOf t') :
    (z.dayOf t ≤ n ∧
        n ≤ (if t' = z.midnight (z.dayOf t') then max (z.dayOf t) (z.dayOf t' - 1)
          else z.dayOf t') ↔
      n = z.dayOf t ∨ ∃ u, t ≤ u ∧ u < t' ∧ z.dayOf u = n) ↔
    (z.dayOf t < n → n = z.dayOf t' → (t' = z.midnight n ↔ IsFirst z t')) := by
  by_cases hlast : n = z.dayOf t'
  · subst hlast
    by_cases hlt : z.dayOf t < z.dayOf t'
    · have hne : z.dayOf t' ≠ z.dayOf t := by omega
      rw [exists_before_iff ht hlt]
      simp only [hlt, hne, false_or, forall_const, hlt.le, true_and]
      split
      case isTrue hmid =>
        have hout : ¬ z.dayOf t' ≤ max (z.dayOf t) (z.dayOf t' - 1) := by omega
        simp only [hout, hmid.symm, true_iff, false_iff, not_not]
      case isFalse hmid =>
        simp only [hmid, le_refl, true_iff, false_iff]
    · have heq : z.dayOf t' = z.dayOf t := by omega
      simp only [iff_true, heq, true_or, le_refl, true_and]
      split <;> omega
  · simp only [hlast, false_imp_iff, imp_true_iff, iff_true]
    constructor
    · rintro ⟨hle, hend⟩
      by_cases hstart : n = z.dayOf t
      · exact Or.inl hstart
      · apply Or.inr
        apply exists_between ht ht' hn (by omega)
        split at hend <;> omega
    · rintro (hstart | ⟨u, hle, hlt, rfl⟩)
      · split <;> omega
      · have hu := ht.future u hle
        have hu' := ht'.past u hlt.le
        split <;> omega

end Timed

/-- The event occupies the days it is on iff its end is taken rightly. -/
theorem occupies_iff_on {z : Zone} {e : CalEvent} (he : Settled z e) {n : Int}
    (hn : z.dayOf (z.midnight n) = n) :
    (occupies z e (z.midnight n) = true ↔ On z e n) ↔ EndsRight z e n := by
  rw [occupies_midnight he hn]
  unfold On EndsRight lastNumber
  cases hend : e.stop with
  | none =>
      simp only [reduceCtorEq, false_and, exists_false, or_false,
        IsEmpty.forall_iff, implies_true, iff_true]
      omega
  | some stop =>
      simp only [Option.some.injEq, exists_eq_left', forall_eq']
      by_cases hstop : stop ≤ e.start
      · have hback := he.start.past _ hstop
        have hnone : ¬ ∃ t, e.start ≤ t ∧ t < stop ∧ z.dayOf t = n := by
          rintro ⟨t, hle, hlt, -⟩
          omega
        simp only [if_pos hstop, not_lt.mpr hstop, hnone, false_imp_iff,
          imp_true_iff, iff_true]
        split
        · omega
        · rw [or_false]
          omega
      · have hday := he.start.future stop (by omega)
        rw [if_neg hstop]
        cases e.allDay with
        | true =>
            simp only [true_or, if_true, reduceCtorEq, false_imp_iff, iff_true]
            omega
        | false =>
            have hordered := he.stop stop hend (by omega)
            simp only [Bool.false_eq_true, false_or, if_false, forall_const]
            rw [timed_iff he.start hordered hn hday]
            simp only [not_le.mp hstop, forall_const]

end FamilyPlanner.Calendar
