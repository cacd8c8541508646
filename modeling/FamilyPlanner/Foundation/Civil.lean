import Mathlib.Data.Int.ConditionallyCompleteOrder
import Mathlib.Order.ConditionallyCompleteLattice.Indexed
import Mathlib.Logic.Function.Iterate
import Mathlib.Tactic.IntervalCases

/-!
# Civil dates

Months are counted through, so that the date after the last of a month is the
first of the next one.  `civil` walks from the epoch one date at a time, and
`number` counts the days in closed form; they are inverse to each other.
-/

namespace FamilyPlanner.Foundation

def IsLeap (year : Int) : Prop := year % 4 = 0 ∧ (year % 100 ≠ 0 ∨ year % 400 = 0)

instance (year : Int) : Decidable (IsLeap year) :=
  inferInstanceAs (Decidable (_ ∧ _))

/-- January of year 0 is month 0. -/
def monthDays (month : Int) : Int :=
  let m := month % 12
  if m = 1 then if IsLeap (month / 12) then 29 else 28
  else if m = 3 ∨ m = 5 ∨ m = 8 ∨ m = 10 then 30
  else 31

@[ext] structure Date where
  month : Int
  day : Int
  one_le : 1 ≤ day
  le_monthDays : day ≤ monthDays month
  deriving DecidableEq, Repr

/-- The day number of the first of a month; years are taken from March on. -/
def monthStart (month : Int) : Int :=
  let year := (month - 2) / 12
  let m := (month - 2) % 12
  365 * year + year / 4 - year / 100 + year / 400 + (153 * m + 2) / 5 - 719468

theorem monthDays_bounds (month : Int) :
    28 ≤ monthDays month ∧ monthDays month ≤ 31 := by
  simp only [monthDays]
  split
  · split <;> omega
  · split <;> omega

/-- From February to March the year of `monthStart` changes, and counts a leap
day if there is one. -/
theorem monthStart_march (year : Int) :
    monthStart (12 * year + 2) = monthStart (12 * year + 1) +
      if IsLeap year then 29 else 28 := by
  have hmarch : (12 * year + 2 - 2) / 12 = year := by omega
  have hfebruary : (12 * year + 1 - 2) / 12 = year - 1 := by omega
  have hm : (12 * year + 2 - 2) % 12 = 0 := by omega
  have hm' : (12 * year + 1 - 2) % 12 = 11 := by omega
  simp only [monthStart, hmarch, hfebruary, hm, hm']
  by_cases hleap : IsLeap year
  · rw [if_pos hleap]
    unfold IsLeap at hleap
    omega
  · rw [if_neg hleap]
    unfold IsLeap at hleap
    omega

theorem marchDays_succ {m : Int} (hm : 0 ≤ m) (hlast : m < 11) :
    (153 * (m + 1) + 2) / 5 =
      (153 * m + 2) / 5 + if m = 1 ∨ m = 3 ∨ m = 6 ∨ m = 8 then 30 else 31 := by
  interval_cases m <;> rfl

theorem monthStart_succ (month : Int) :
    monthStart (month + 1) = monthStart month + monthDays month := by
  by_cases hm : month % 12 = 1
  · obtain ⟨year, rfl⟩ : ∃ year, month = 12 * year + 1 :=
      ⟨month / 12, by omega⟩
    have hyear : (12 * year + 1) / 12 = year := by omega
    have hnext : 12 * year + 1 + 1 = 12 * year + 2 := by omega
    simp only [monthDays, if_pos hm, hyear, hnext]
    exact monthStart_march year
  · have hyear : (month + 1 - 2) / 12 = (month - 2) / 12 := by omega
    have hm' : (month + 1 - 2) % 12 = (month - 2) % 12 + 1 := by omega
    have hdays := marchDays_succ (m := (month - 2) % 12) (by omega) (by omega)
    have hshort : ((month - 2) % 12 = 1 ∨ (month - 2) % 12 = 3 ∨
        (month - 2) % 12 = 6 ∨ (month - 2) % 12 = 8) ↔
        (month % 12 = 3 ∨ month % 12 = 5 ∨ month % 12 = 8 ∨ month % 12 = 10) := by
      omega
    simp only [hshort] at hdays
    simp only [monthStart, monthDays, hyear, hm', if_neg hm, hdays]
    omega

theorem monthStart_strictMono : StrictMono monthStart := by
  apply strictMono_int_of_lt_succ
  intro month
  have hdays := monthDays_bounds month
  rw [monthStart_succ]
  omega

namespace Date

def year (d : Date) : Int := d.month / 12

/-- From 1 for January to 12 for December. -/
def monthOfYear (d : Date) : Int := d.month % 12 + 1

def number (d : Date) : Int := monthStart d.month + d.day - 1

def next (d : Date) : Date :=
  if h : d.day < monthDays d.month then
    ⟨d.month, d.day + 1, by have := d.one_le; omega, by omega⟩
  else
    ⟨d.month + 1, 1, by omega, by have := monthDays_bounds (d.month + 1); omega⟩

def prev (d : Date) : Date :=
  if h : 1 < d.day then
    ⟨d.month, d.day - 1, by omega, by have := d.le_monthDays; omega⟩
  else
    ⟨d.month - 1, monthDays (d.month - 1),
      by have := monthDays_bounds (d.month - 1); omega, by omega⟩

theorem number_next (d : Date) : d.next.number = d.number + 1 := by
  have hlast := d.le_monthDays
  unfold next number
  split
  · simp only
    omega
  · simp only [monthStart_succ]
    omega

theorem number_prev (d : Date) : d.prev.number = d.number - 1 := by
  have hfirst := d.one_le
  have hsucc := monthStart_succ (d.month - 1)
  unfold prev number
  split
  · simp only
    omega
  · rw [Int.sub_add_cancel] at hsucc
    simp only
    omega

theorem number_bounds (d : Date) :
    monthStart d.month ≤ d.number ∧ d.number < monthStart (d.month + 1) := by
  have hfirst := d.one_le
  have hlast := d.le_monthDays
  rw [monthStart_succ]
  unfold number
  omega

theorem month_eq_iff {d : Date} {month : Int} :
    d.month = month ↔
      monthStart month ≤ d.number ∧ d.number < monthStart (month + 1) := by
  have hd := number_bounds d
  constructor
  · rintro rfl
    exact hd
  · rintro ⟨hle, hlt⟩
    have hle' : d.month < month + 1 :=
      monthStart_strictMono.lt_iff_lt.mp (lt_of_le_of_lt hd.1 hlt)
    have hlt' : month < d.month + 1 :=
      monthStart_strictMono.lt_iff_lt.mp (lt_of_le_of_lt hle hd.2)
    omega

theorem number_injective : Function.Injective number := by
  intro d d' h
  have hmonth : d.month = d'.month := by
    rw [month_eq_iff, h]
    exact number_bounds d'
  ext
  · exact hmonth
  · unfold number at h
    rw [hmonth] at h
    omega

end Date

def epoch : Date := ⟨12 * 1970, 1, by decide, by decide⟩

def civil : Int → Date
  | .ofNat n => Date.next^[n] epoch
  | .negSucc n => Date.prev^[n + 1] epoch

theorem number_civil (n : Int) : (civil n).number = n := by
  have hforward : ∀ n : Nat, (Date.next^[n] epoch).number = n := by
    intro n
    induction n with
    | zero => decide
    | succ n ih =>
        rw [Function.iterate_succ_apply', Date.number_next, ih]
        omega
  have hback : ∀ n : Nat, (Date.prev^[n] epoch).number = -n := by
    intro n
    induction n with
    | zero => decide
    | succ n ih =>
        rw [Function.iterate_succ_apply', Date.number_prev, ih]
        omega
  cases n with
  | ofNat n => exact hforward n
  | negSucc n => exact hback (n + 1)

theorem civil_number (d : Date) : civil d.number = d :=
  Date.number_injective (number_civil d.number)

theorem civil_injective : Function.Injective civil :=
  Function.LeftInverse.injective number_civil

theorem civil_month_eq_iff {n month : Int} :
    (civil n).month = month ↔ monthStart month ≤ n ∧ n < monthStart (month + 1) := by
  rw [Date.month_eq_iff, number_civil]

/-- Days from Monday; the epoch is a Thursday. -/
def weekday (n : Int) : Int := (n + 3) % 7

end FamilyPlanner.Foundation
