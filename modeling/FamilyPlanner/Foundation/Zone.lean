import Mathlib.Data.Int.ConditionallyCompleteOrder
import Mathlib.Order.ConditionallyCompleteLattice.Indexed

/-!
# Instants and wall clocks

An instant is a number of nanoseconds since the Unix epoch, and a wall clock
shows the same kind of number, shifted by the offset in force.  A clock change
repeats or skips wall times, so the way back is a choice: `date` picks an
instant for every wall time, and is only known to show that wall time whenever
some instant does.
-/

namespace FamilyPlanner.Foundation

namespace Clock

def second : Int := 1000000000
def minute : Int := 60000000000
def hour : Int := 3600000000000
def day : Int := 86400000000000

/-- The instant whose seconds are `low` or one of the next `2 ^ 64`, modulo `2 ^ 64`. -/
def wrap (low t : Int) : Int :=
  ((t / second - low) % 18446744073709551616 + low) * second + t % second

/-- `time.Date` sums up the seconds of a wall time in 64 bits. -/
def unix64 (t : Int) : Int := wrap (-9223372036854775808) t

/-- A `time.Time` holds the seconds since the year 1 in 64 bits. -/
def internal64 (t : Int) : Int := wrap (-9223372036854775808 - 62135596800) t

theorem wrap_eq {low t : Int} (h : low * second ≤ t)
    (h' : t < (low + 18446744073709551616) * second) : wrap low t = t := by
  have hmod : (t / second - low) % 18446744073709551616 = t / second - low := by
    apply Int.emod_eq_of_lt
    · simp only [second] at *
      omega
    · simp only [second] at *
      omega
  rw [wrap, hmod]
  simp only [second]
  omega

end Clock

open Clock

structure Zone where
  offset : Int → Int
  date : Int → Int
  /-- A wall time is resolved at some offset of the zone. -/
  date_offset : ∀ wall, ∃ t, date wall + offset t = wall
  /-- A wall time that is shown is resolved to an instant that shows it. -/
  date_shown : ∀ t, date (t + offset t) + offset (date (t + offset t)) = t + offset t

namespace Zone

def wall (z : Zone) (t : Int) : Int := t + z.offset t

def dayOf (z : Zone) (t : Int) : Int := z.wall t / day

def hourOf (z : Zone) (t : Int) : Int := z.wall t / hour % 24

def minuteOf (z : Zone) (t : Int) : Int := z.wall t / minute % 60

def secondOf (z : Zone) (t : Int) : Int := z.wall t / second % 60

def nanosecondOf (z : Zone) (t : Int) : Int := z.wall t % second

def midnight (z : Zone) (n : Int) : Int := z.date (n * day)

/-- What `time.Date` makes of any wall time. -/
def resolve (z : Zone) (w : Int) : Int := internal64 (z.date (unix64 w))

def addDays (z : Zone) (t n : Int) : Int := z.resolve (z.wall t + n * day)

theorem mul_day_lt {n m : Int} (h : n < m) : n * day < m * day :=
  Int.mul_lt_mul_of_pos_right h (by decide)

theorem wall_date {z : Zone} {w : Int} (h : ∃ t, z.wall t = w) :
    z.wall (z.date w) = w := by
  obtain ⟨t, rfl⟩ := h
  exact z.date_shown t

def fixed (offset : Int) : Zone where
  offset := fun _ => offset
  date := fun w => w - offset
  date_offset := by
    intro w
    exact ⟨0, by omega⟩
  date_shown := by
    intro t
    omega

/--
The clock is changed once, from the offset `old` to `new`.  Of two instants
that show a wall time, `date` takes the one before the change or, if `late`,
the one after it.
-/
def change (late : Bool) (turn old new : Int) : Zone where
  offset := fun t => if t < turn then old else new
  date := fun w =>
    if late then (if turn ≤ w - new then w - new else w - old)
    else (if w - old < turn then w - old else w - new)
  date_offset := by
    intro w
    have hold : (if turn - 1 < turn then old else new) = old := if_pos (by omega)
    have hnew : (if turn < turn then old else new) = new := if_neg (by omega)
    cases late
    all_goals
      simp only [Bool.false_eq_true, if_false, if_true]
      split
    · exact ⟨turn - 1, by rw [hold]; omega⟩
    · exact ⟨turn, by rw [hnew]; omega⟩
    · exact ⟨turn, by rw [hnew]; omega⟩
    · exact ⟨turn - 1, by rw [hold]; omega⟩
  date_shown := by
    intro t
    cases late <;> simp only [Bool.false_eq_true, if_false, if_true] <;> grind

theorem wall_change_of_lt {late : Bool} {turn old new t : Int} (ht : t < turn) :
    (change late turn old new).wall t = t + old := by
  simp only [wall, change, if_pos ht]

theorem wall_change_of_le {late : Bool} {turn old new t : Int} (ht : turn ≤ t) :
    (change late turn old new).wall t = t + new := by
  simp only [wall, change, if_neg (not_lt.mpr ht)]

/-! ## Wall times and dates

A calendar needs the midnights it counts to, and dates that do not go back over
the instants it compares.  Both are asked of one wall time, date or instant, for
hardly a zone has them throughout its history.
-/

def Shown (z : Zone) (w : Int) : Prop := ∃ t, z.wall t = w

/-- `resolve` arrives at the wall time, whose seconds fit in 64 bits. -/
structure Reaches (z : Zone) (w : Int) : Prop where
  shown : z.Shown w
  fits : unix64 w = w
  fits_date : internal64 (z.date w) = z.date w

/-- `resolve` leads to an instant of the wall time's own date. -/
def Keeps (z : Zone) (w : Int) : Prop := z.dayOf (z.resolve w) = w / day

/-- No later date before `t`, and no earlier one after it. -/
structure Ordered (z : Zone) (t : Int) : Prop where
  past : ∀ u, u ≤ t → z.dayOf u ≤ z.dayOf t
  future : ∀ u, t ≤ u → z.dayOf t ≤ z.dayOf u

/-- Date `n` begins at a midnight over which the dates do not go back. -/
structure Dated (z : Zone) (n : Int) : Prop where
  midnight : z.Reaches (n * day)
  ordered : z.Ordered (z.midnight n)

/-- The midnights of the dates from `n` to `m` are all reached. -/
def Spans (z : Zone) (n m : Int) : Prop :=
  ∀ d, n ≤ d → d ≤ m → z.Reaches (d * day)

section Days

variable {z : Zone} {t n m k w : Int}

theorem resolve_eq (h : z.Reaches w) : z.resolve w = z.date w := by
  rw [resolve, h.fits, h.fits_date]

theorem wall_resolve (h : z.Reaches w) : z.wall (z.resolve w) = w := by
  rw [resolve_eq h, wall_date h.shown]

theorem keeps_of_reaches (h : z.Reaches w) : z.Keeps w := by
  rw [Keeps, dayOf, wall_resolve h]

theorem dayOf_midnight (h : z.Shown (n * day)) : z.dayOf (z.midnight n) = n := by
  rw [dayOf, midnight, wall_date h]
  exact Int.mul_ediv_cancel n (by decide)

theorem addDays_midnight (hn : z.Shown (n * day)) (hk : z.Reaches ((n + k) * day)) :
    z.addDays (z.midnight n) k = z.midnight (n + k) := by
  rw [addDays, midnight, wall_date hn, ← Int.add_mul, resolve_eq hk, midnight]

theorem lt_midnight (ht : z.Ordered t) (hn : z.dayOf (z.midnight n) = n)
    (h : z.dayOf t < n) : t < z.midnight n := by
  by_contra hle
  have hday := ht.past _ (not_lt.mp hle)
  omega

theorem midnight_lt (ht : z.Ordered t) (hn : z.dayOf (z.midnight n) = n)
    (h : n < z.dayOf t) : z.midnight n < t := by
  by_contra hle
  have hday := ht.future _ (not_lt.mp hle)
  omega

theorem Dated.dayOf_midnight (hn : z.Dated n) : z.dayOf (z.midnight n) = n :=
  Zone.dayOf_midnight hn.midnight.shown

/-- Where the dates are in order over `t`, and over the midnight of its date,
the midnights of other dates are on either side. -/
theorem midnight_lt_iff (hn : z.Dated n) (hm : z.dayOf (z.midnight m) = m) :
    z.midnight n < z.midnight m ↔ n < m := by
  have hday := hn.dayOf_midnight
  rcases lt_trichotomy n m with hlt | rfl | hgt
  · exact iff_of_true (lt_midnight hn.ordered hm (by omega)) hlt
  · simp
  · have hback := midnight_lt hn.ordered hm (by omega)
    exact iff_of_false (by omega) (by omega)

theorem lt_midnight_iff (hn : z.Dated n) (hm : z.dayOf (z.midnight m) = m) :
    z.midnight m < z.midnight n ↔ m < n := by
  have hday := hn.dayOf_midnight
  rcases lt_trichotomy m n with hlt | rfl | hgt
  · exact iff_of_true (midnight_lt hn.ordered hm (by omega)) hlt
  · simp
  · have hback := lt_midnight hn.ordered hm (by omega)
    exact iff_of_false (by omega) (by omega)

end Days

/--
What all-day events need of some dates: each has its own midnight, if only the
first instant after a gap, these are in the order of the dates, and a day before
one of them is still on the date before.
-/
structure Daily (z : Zone) (dates : Int → Prop) : Prop where
  dayOf_midnight : ∀ n, dates n → z.dayOf (z.midnight n) = n
  rising : ∀ n m, dates n → dates m → n < m → z.midnight n < z.midnight m
  back : ∀ n, dates (n - 1) → dates n →
    z.midnight (n - 1) ≤ z.addDays (z.midnight n) (-1) ∧
      z.addDays (z.midnight n) (-1) < z.midnight n

theorem daily_of_dated {z : Zone} {dates : Int → Prop}
    (hz : ∀ n, dates n → z.Dated n) : z.Daily dates := by
  have hlt : ∀ n m, dates n → dates m → n < m → z.midnight n < z.midnight m := by
    intro n m hn hm h
    exact (midnight_lt_iff (hz n hn) (hz m hm).dayOf_midnight).mpr h
  refine ⟨fun n hn => (hz n hn).dayOf_midnight, hlt, ?_⟩
  intro n hprev hn
  have hback : z.addDays (z.midnight n) (-1) = z.midnight (n - 1) :=
    addDays_midnight (hz n hn).midnight.shown (hz (n - 1) hprev).midnight
  rw [hback]
  exact ⟨le_rfl, hlt _ _ hprev hn (by omega)⟩

/-! ## Two kinds of zones -/

/-- Dates whose midnights fit in 64 bits. -/
def Near (n : Int) : Prop := -106751990000000 ≤ n ∧ n ≤ 106751990000000

instance (n : Int) : Decidable (Near n) := inferInstanceAs (Decidable (_ ∧ _))

theorem reaches_of_offset {z : Zone} {w : Int} (hshown : z.Shown w)
    (hw : Near (w / day)) (hoffset : ∀ t, -day ≤ z.offset t ∧ z.offset t ≤ day) :
    z.Reaches w := by
  obtain ⟨t, ht⟩ := z.date_offset w
  have hbound := hoffset t
  unfold Near at hw
  refine ⟨hshown, wrap_eq ?_ ?_, wrap_eq ?_ ?_⟩
  all_goals
    simp only [day, second] at *
    omega

section Fixed

variable {offset : Int}

theorem fixed_ordered (t : Int) : (fixed offset).Ordered t := by
  constructor
  all_goals
    intro u hu
    apply Int.ediv_le_ediv (by decide)
    simp only [wall, fixed]
    omega

theorem fixed_shown (w : Int) : (fixed offset).Shown w := by
  refine ⟨w - offset, ?_⟩
  simp only [wall, fixed]
  omega

theorem fixed_reaches (hoffset : -day ≤ offset ∧ offset ≤ day) {w : Int}
    (hw : Near (w / day)) : (fixed offset).Reaches w :=
  reaches_of_offset (fixed_shown w) hw fun _ => hoffset

theorem fixed_dated (hoffset : -day ≤ offset ∧ offset ≤ day) {n : Int}
    (hn : Near n) : (fixed offset).Dated n := by
  refine ⟨fixed_reaches hoffset ?_, fixed_ordered _⟩
  rwa [Int.mul_ediv_cancel n (by decide)]

end Fixed

section Change

variable {late : Bool} {turn old new : Int}

theorem change_ordered (hforward : (turn + old - 1) / day ≤ (turn + new) / day)
    (t : Int) : (change late turn old new).Ordered t := by
  have hle : ∀ t t', t ≤ t' →
      (change late turn old new).dayOf t ≤ (change late turn old new).dayOf t' := by
    intro t t' h
    have hmono : ∀ a b : Int, a ≤ b → a / day ≤ b / day := fun a b =>
      Int.ediv_le_ediv (by decide)
    unfold dayOf
    by_cases ht : t < turn
    · rw [wall_change_of_lt ht]
      by_cases ht' : t' < turn
      · rw [wall_change_of_lt ht']
        exact hmono _ _ (by omega)
      · rw [wall_change_of_le (by omega)]
        calc (t + old) / day ≤ (turn + old - 1) / day := hmono _ _ (by omega)
          _ ≤ (turn + new) / day := hforward
          _ ≤ (t' + new) / day := hmono _ _ (by omega)
    · rw [wall_change_of_le (by omega), wall_change_of_le (by omega)]
      exact hmono _ _ (by omega)
  exact ⟨fun u hu => hle u t hu, fun u hu => hle t u hu⟩

theorem change_shown {w : Int} (h : w < turn + old ∨ turn + new ≤ w) :
    (change late turn old new).Shown w := by
  obtain hlt | hle := h
  · refine ⟨w - old, ?_⟩
    rw [wall_change_of_lt (by omega)]
    omega
  · refine ⟨w - new, ?_⟩
    rw [wall_change_of_le (by omega)]
    omega

theorem change_reaches (hold : -day ≤ old ∧ old ≤ day) (hnew : -day ≤ new ∧ new ≤ day)
    {w : Int} (hshown : w < turn + old ∨ turn + new ≤ w) (hw : Near (w / day)) :
    (change late turn old new).Reaches w := by
  apply reaches_of_offset (change_shown hshown) hw
  intro t
  simp only [change]
  split
  · exact hold
  · exact hnew

end Change

end Zone

end FamilyPlanner.Foundation
