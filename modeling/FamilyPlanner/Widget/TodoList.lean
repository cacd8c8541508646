import FamilyPlanner.Calendar.AllDay

/-!
# Due dates of tasks

A due date arrives as midnight UTC.  The label compares it with the midnight of
the kiosk's zone and the list with the last second of its day, so both depend on
the offsets that are in force then.
-/

namespace FamilyPlanner.Widget.TodoList

open FamilyPlanner.Foundation FamilyPlanner.Foundation.Clock FamilyPlanner.Calendar

def utc : Zone := .fixed 0

def dateText (due : Int) : String :=
  let d := dateAt utc due
  s!"{weekdayShort utc due} {d.day} {monthShort d}"

/-- `due` is a time in UTC. -/
def todoDueLabel (z : Zone) (now : Int) : Option Int → String
  | none => ""
  | some due =>
      let today := dateOf z now
      let dd := dateOf utc due
      if dd < today then "te laat"
      else if dd = today then "vandaag"
      else dateText due

def endOfToday (z : Zone) (now : Int) : Int :=
  z.date ((dateAt z now).number * day + (23 * hour + 59 * minute + 59 * second))

def helpersAt (z : Zone) (now : Int) (h : Helpers) : Helpers :=
  { h with
    todoDueLabel := todoDueLabel z now
    dueByToday := fun due => ! (endOfToday z now < due) }

def labelOn (z : Zone) (now d : Int) : String := todoDueLabel z now (known (d * day))

/-! ## The list -/

section List

variable (h : Helpers) (scope : String) (hideNoDue : Bool)

def entry (t : TodoTask) : List String := todoItems h scope hideNoDue [t]

theorem todoItems_append (before after : List TodoTask) :
    todoItems h scope hideNoDue (before ++ after) =
      todoItems h scope hideNoDue before ++ todoItems h scope hideNoDue after := by
  simp only [todoItems, List.filter_append, List.map_append]

theorem todoItems_around (before after : List TodoTask) (t : TodoTask) :
    todoItems h scope hideNoDue (before ++ t :: after) =
      todoItems h scope hideNoDue before ++ entry h scope hideNoDue t ++
        todoItems h scope hideNoDue after := by
  rw [← List.singleton_append, todoItems_append, todoItems_append, List.append_assoc]
  rfl

end List

/-! ## Labels -/

theorem weekdayShort_mem (z : Zone) (t : Int) : weekdayShort z t ∈ nlWeekday := by
  unfold weekdayShort weekdayOf
  have hlow : 0 ≤ weekday (z.dayOf t) := Int.emod_nonneg _ (by decide)
  have hhigh : weekday (z.dayOf t) < 7 := Int.emod_lt_of_pos _ (by decide)
  have hlt : (weekday (z.dayOf t)).toNat < nlWeekday.length := by
    change _ < 7
    omega
  rw [List.getD_eq_getElem?_getD, List.getElem?_eq_getElem hlt, Option.getD_some]
  exact List.getElem_mem hlt

theorem dateText_ne (due : Int) :
    dateText due ≠ "te laat" ∧ dateText due ≠ "vandaag" ∧ dateText due ≠ "" := by
  have hchars : ∀ w ∈ nlWeekday, (w ++ " ").toList ≠ "te ".toList ∧
      (w ++ " ").toList ≠ "van".toList ∧ (w ++ " ").toList.length = 3 := by decide
  obtain ⟨hlate, htoday, hlength⟩ := hchars _ (weekdayShort_mem utc due)
  have htext : (dateText due).toList.take 3 = (weekdayShort utc due ++ " ").toList := by
    change (weekdayShort utc due ++ " " ++ _ ++ _ ++ _).toList.take 3 = _
    simp only [String.append_assoc, String.toList_append] at hlength ⊢
    rw [← List.append_assoc, ← hlength, List.take_left]
  refine ⟨?_, ?_, ?_⟩ <;> intro h <;> rw [h] at htext
  · exact hlate htext.symm
  · exact htoday htext.symm
  · rw [← htext] at hlength
    cases hlength

theorem dateOf_utc (d : Int) : dateOf utc (d * day) = d * day := by
  have hwall : utc.wall (d * day) = d * day := Int.add_zero _
  have hdate : utc.date (d * day) = d * day := Int.sub_zero _
  rw [dateOf_eq, Zone.dayOf, hwall, Int.mul_ediv_cancel _ (by decide), Zone.midnight, hdate]

def zeroDate : Int := -719162

theorem known_zeroDate : known (zeroDate * day) = none := rfl

theorem known_date {d : Int} (hd : d ≠ zeroDate) : known (d * day) = some (d * day) := by
  apply if_neg
  intro hzero
  apply hd
  simp only [zeroTime, day] at hzero
  unfold zeroDate
  omega

section Label

variable {z : Zone} {now d : Int}

theorem labelOn_zeroDate (z : Zone) (now : Int) : labelOn z now zeroDate = "" := by
  rw [labelOn, known_zeroDate, todoDueLabel]

theorem labelOn_cases (hd : d ≠ zeroDate) :
    (labelOn z now d = "te laat" ∧ d * day < z.midnight (z.dayOf now)) ∨
    (labelOn z now d = "vandaag" ∧ d * day = z.midnight (z.dayOf now)) ∨
    (labelOn z now d = dateText (d * day) ∧ z.midnight (z.dayOf now) < d * day) := by
  rw [labelOn, known_date hd, todoDueLabel, dateOf_utc, dateOf_eq]
  rcases lt_trichotomy (d * day) (z.midnight (z.dayOf now)) with hlt | heq | hgt
  · exact .inl ⟨if_pos hlt, hlt⟩
  · exact .inr (.inl ⟨by simp [heq], heq⟩)
  · exact .inr (.inr ⟨by simp [not_lt_of_gt hgt, ne_of_gt hgt], hgt⟩)

theorem labelOn_late (hd : d ≠ zeroDate) :
    labelOn z now d = "te laat" ↔ d * day < z.midnight (z.dayOf now) := by
  rcases @labelOn_cases z now d hd with ⟨h, hlt⟩ | ⟨h, heq⟩ | ⟨h, hgt⟩ <;> rw [h]
  · exact iff_of_true rfl hlt
  · exact iff_of_false (by decide) (not_lt_of_ge (ge_of_eq heq))
  · exact iff_of_false (dateText_ne (d * day)).1 (not_lt_of_gt hgt)

theorem labelOn_today (hd : d ≠ zeroDate) :
    labelOn z now d = "vandaag" ↔ d * day = z.midnight (z.dayOf now) := by
  rcases @labelOn_cases z now d hd with ⟨h, hlt⟩ | ⟨h, heq⟩ | ⟨h, hgt⟩ <;> rw [h]
  · exact iff_of_false (by decide) (ne_of_lt hlt)
  · exact iff_of_true rfl heq
  · exact iff_of_false (dateText_ne (d * day)).2.1 (ne_of_gt hgt)

theorem labelOn_ne (hd : d ≠ zeroDate) : labelOn z now d ≠ "" := by
  rcases @labelOn_cases z now d hd with ⟨h, -⟩ | ⟨h, -⟩ | ⟨h, -⟩ <;> rw [h]
  · decide
  · decide
  · exact (dateText_ne (d * day)).2.2

end Label

/-! ## Dates and offsets -/

/-- How far ahead of UTC `time.Date` takes a wall time to be. -/
def ahead (z : Zone) (w : Int) : Int := w - z.date w

def lastSecond : Int := 23 * hour + 59 * minute + 59 * second

/--
The offset at the start of date `n` leaves it on the side of midnight UTC of `d`
on which `n` is of `d`, and the offset at its last second leaves this before
midnight UTC of the dates that follow.
-/
structure Aligned (z : Zone) (n d : Int) : Prop where
  past : d < n → ahead z (n * day) < (n - d) * day
  same : d = n → ahead z (n * day) = 0
  future : n < d → (n - d) * day < ahead z (n * day)
  reached : d ≤ n → ahead z (n * day + lastSecond) ≤ (n - d) * day + lastSecond
  unreached : n < d → (n - d) * day + lastSecond < ahead z (n * day + lastSecond)

def WithinDay (z : Zone) : Prop := ∀ t, -day < z.offset t ∧ z.offset t ≤ lastSecond

theorem ahead_within {z : Zone} (hz : WithinDay z) (w : Int) :
    -day < ahead z w ∧ ahead z w ≤ lastSecond := by
  obtain ⟨t, ht⟩ := z.date_offset w
  have hahead : ahead z w = z.offset t := by
    unfold ahead
    omega
  rw [hahead]
  exact hz t

/-- Of the usual offsets, the date itself needs none at its start, and the date
after it needs one that is not west of Greenwich at the end of the day before. -/
theorem aligned_iff {z : Zone} (hz : WithinDay z) (n d : Int) :
    Aligned z n d ↔ (d = n → ahead z (n * day) = 0) ∧
      (d = n + 1 → -second < ahead z (n * day + lastSecond)) := by
  have hstart := ahead_within hz (n * day)
  have hend := ahead_within hz (n * day + lastSecond)
  constructor
  · intro h
    refine ⟨h.same, ?_⟩
    intro hnext
    have hlt := h.unreached (by omega)
    subst hnext
    simp only [day, second, lastSecond, hour, minute] at hlt ⊢
    omega
  · rintro ⟨hsame, hnext⟩
    simp only [day, second, lastSecond, hour, minute] at hstart hend hsame hnext
    constructor <;> intro h <;> simp only [day, second, lastSecond, hour, minute]
    · omega
    · exact hsame h
    · omega
    · omega
    · by_cases hd : d = n + 1
      · have := hnext hd
        omega
      · omega

/-- Under `today_overdue` the task is listed if its label is one of the two words, in
every list and under either setting. -/
def Listed (h : Helpers) (z : Zone) (now d : Int) : Prop :=
  ∀ hideNoDue title before after,
    todoItems (helpersAt z now h) "today_overdue" hideNoDue
        (before ++ ⟨title, known (d * day)⟩ :: after) =
      todoItems (helpersAt z now h) "today_overdue" hideNoDue before ++
        (if labelOn z now d = "te laat" ∨ labelOn z now d = "vandaag" then
          [title ++ " · " ++ labelOn z now d] else []) ++
        todoItems (helpersAt z now h) "today_overdue" hideNoDue after

structure Judged (h : Helpers) (z : Zone) (now d : Int) : Prop where
  late : labelOn z now d = "te laat" ↔ d < z.dayOf now
  today : labelOn z now d = "vandaag" ↔ d = z.dayOf now
  listed : Listed h z now d

section Judged

variable {z : Zone} {now d : Int}

theorem endOfToday_eq (z : Zone) (now : Int) :
    endOfToday z now = z.date (z.dayOf now * day + lastSecond) := by
  rw [endOfToday, dateAt, number_civil, lastSecond]

theorem entry_zeroDate (h : Helpers) (hideNoDue : Bool) (title : String) :
    entry (helpersAt z now h) "today_overdue" hideNoDue
      ⟨title, known (zeroDate * day)⟩ = [] := by
  rw [known_zeroDate]
  cases hideNoDue <;> rfl

theorem entry_dated (hd : d ≠ zeroDate) (h : Helpers) (hideNoDue : Bool) (title : String) :
    entry (helpersAt z now h) "today_overdue" hideNoDue ⟨title, known (d * day)⟩ =
      if d * day ≤ endOfToday z now then [title ++ " · " ++ labelOn z now d] else [] := by
  have hlabel : todoDueLabel z now (some (d * day)) = labelOn z now d := by
    rw [labelOn, known_date hd]
  by_cases hend : d * day ≤ endOfToday z now <;>
    simp [entry, todoItems, known_date hd, hlabel, labelOn_ne hd, hend, helpersAt]

theorem listed_iff (h : Helpers) : Listed h z now d ↔
    (d ≠ zeroDate ∧ d * day ≤ endOfToday z now ↔
      labelOn z now d = "te laat" ∨ labelOn z now d = "vandaag") := by
  have hentry (hideNoDue : Bool) (title : String) :
      entry (helpersAt z now h) "today_overdue" hideNoDue ⟨title, known (d * day)⟩ =
        if d ≠ zeroDate ∧ d * day ≤ endOfToday z now then
          [title ++ " · " ++ labelOn z now d] else [] := by
    by_cases hd : d = zeroDate
    · rw [if_neg fun hlisted => hlisted.1 hd, hd]
      exact entry_zeroDate h hideNoDue title
    · simp only [entry_dated hd, ne_eq, hd, not_false_eq_true, true_and]
  constructor
  · intro hlisted
    have hsingle := hlisted false "" [] []
    rw [todoItems_around, List.append_left_inj, List.append_right_inj, hentry] at hsingle
    by_cases hend : d ≠ zeroDate ∧ d * day ≤ endOfToday z now <;>
      by_cases hlabel : labelOn z now d = "te laat" ∨ labelOn z now d = "vandaag"
    · exact iff_of_true hend hlabel
    · simp [if_pos hend, if_neg hlabel] at hsingle
    · simp [if_neg hend, if_pos hlabel] at hsingle
    · exact iff_of_false hend hlabel
  · intro hiff hideNoDue title before after
    simp only [todoItems_around, hentry, hiff]

theorem judged_zeroDate (h : Helpers) :
    Judged h z now zeroDate ↔ z.dayOf now < zeroDate := by
  have hlabel := labelOn_zeroDate z now
  constructor
  · intro hjudged
    have hlate := hjudged.late
    have htoday := hjudged.today
    simp only [hlabel, String.reduceEq, false_iff] at hlate htoday
    exact lt_of_le_of_ne (not_lt.mp hlate) (Ne.symm htoday)
  · intro hbefore
    refine ⟨?_, ?_, (listed_iff h).mpr ?_⟩ <;> rw [hlabel]
    · exact iff_of_false (by decide) (lt_asymm hbefore)
    · exact iff_of_false (by decide) (ne_of_gt hbefore)
    · simp

theorem judged_dated (hd : d ≠ zeroDate) (h : Helpers) :
    Judged h z now d ↔ Aligned z (z.dayOf now) d := by
  have hstart : z.midnight (z.dayOf now) =
      z.dayOf now * day - ahead z (z.dayOf now * day) := by
    rw [ahead, Zone.midnight, Int.sub_sub_self]
  have hend : endOfToday z now = z.dayOf now * day + lastSecond -
      ahead z (z.dayOf now * day + lastSecond) := by
    rw [ahead, endOfToday_eq, Int.sub_sub_self]
  have hlate := @labelOn_late z now d hd
  have htoday := @labelOn_today z now d hd
  have hlisted := @listed_iff z now d h
  simp only [hlate, htoday, hend, ne_eq, hd, not_false_eq_true, true_and] at hlisted
  rw [hstart] at hlate htoday hlisted
  constructor
  · intro hjudged
    have hpast := hlate.symm.trans hjudged.late
    have hsame := htoday.symm.trans hjudged.today
    have hreached := hlisted.mp hjudged.listed
    simp only [day] at hpast hsame hreached
    constructor <;> intro hd' <;> simp only [day] <;> omega
  · intro haligned
    obtain ⟨hpast, hsame, hfuture, hreached, hunreached⟩ := haligned
    simp only [day] at hlate htoday hlisted hpast hsame hfuture hreached hunreached
    refine ⟨hlate.trans ?_, htoday.trans ?_, hlisted.mpr ?_⟩ <;> omega

end Judged

/--
The calendar of the zone judges the due date if and only if the offsets of the
zone at the start and in the last second of the current date align it with the
midnights of UTC, which are needed for the date itself and for the next one.
-/
theorem judged_iff (h : Helpers) (z : Zone) (now d : Int) :
    (Judged h z now d ↔
      if d = zeroDate then z.dayOf now < d else Aligned z (z.dayOf now) d) ∧
    (WithinDay z → d ≠ zeroDate → (Judged h z now d ↔
      (d = z.dayOf now → ahead z (z.dayOf now * day) = 0) ∧
        (d = z.dayOf now + 1 → -second < ahead z (z.dayOf now * day + lastSecond)))) := by
  constructor
  · by_cases hd : d = zeroDate
    · subst hd
      rw [if_pos rfl]
      exact judged_zeroDate h
    · rw [if_neg hd]
      exact judged_dated hd h
  · intro hz hd
    rw [judged_dated hd, aligned_iff hz]

/-- In summer in Brussels a task that is due today carries its date instead of
`vandaag`. -/
theorem due_today_brussels : (Zone.fixed (2 * hour)).dayOf (20655 * day + 10 * hour) = 20655 ∧
    labelOn (.fixed (2 * hour)) (20655 * day + 10 * hour) 20655 = "di 21 jul" ∧
    ∀ h, ¬ Judged h (.fixed (2 * hour)) (20655 * day + 10 * hour) 20655 := by
  have hday : (Zone.fixed (2 * hour)).dayOf (20655 * day + 10 * hour) = 20655 := by decide
  have hlabel : labelOn (.fixed (2 * hour)) (20655 * day + 10 * hour) 20655 = "di 21 jul" := by
    have hcivil : civil 20655 = ⟨24318, 21, by decide, by decide⟩ :=
      civil_number ⟨24318, 21, by decide, by decide⟩
    have hutc : utc.dayOf (20655 * day) = 20655 := by decide
    rw [labelOn, known_date (by decide), todoDueLabel, dateOf_utc, dateOf_eq, hday]
    rw [if_neg (by decide), if_neg (by decide)]
    simp only [dateText, weekdayShort, weekdayOf, dateAt, hutc, hcivil]
    decide
  refine ⟨hday, hlabel, ?_⟩
  intro h hjudged
  have htoday := hjudged.today.mpr hday.symm
  rw [hlabel] at htoday
  revert htoday
  decide

end FamilyPlanner.Widget.TodoList
