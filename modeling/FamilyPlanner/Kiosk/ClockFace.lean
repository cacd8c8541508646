import FamilyPlanner.Foundation.Civil
import FamilyPlanner.Foundation.Run

/-!
# The clock face

The number of the week is counted in UTC from the first of January of the year
of its Thursday.  One chain of animation frames draws the hands of all clocks; it
stops when none is left, and the next clock starts it again.
-/

namespace FamilyPlanner.Kiosk.ClockFace

open FamilyPlanner.Foundation

/-- The day number of `Date.UTC`, which takes a year below 100 for one of the
twentieth century; months are counted from 0. -/
def dateUTC (year month day : Int) : Int :=
  monthStart (12 * (if 0 ≤ year ∧ year ≤ 99 then 1900 + year else year) + month) + day - 1

/-- From Sunday. -/
def getUTCDay (n : Int) : Int := (n + 4) % 7

def isoWeek (dt : Date) : Int :=
  let d := dateUTC dt.year (dt.month % 12) dt.day
  let day := if getUTCDay d = 0 then 7 else getUTCDay d
  let d := d + 4 - day
  let ys := dateUTC (civil d).year 0 1
  -- rounded up
  (d - ys + 1 + 6) / 7

/-- The third of January 1971 was a Sunday. -/
example : isoWeek ⟨12 * 1971, 3, by decide, by decide⟩ = 53 := by decide +kernel

/-! ## Weeks by the standard -/

/-- The Monday of the week with the fourth of January in it. -/
def weekOne (year : Int) : Int :=
  let fourth := monthStart (12 * year) + 3
  fourth - weekday fourth

theorem weekOne_lt (year : Int) : weekOne year < weekOne (year + 1) := by
  have hlong : monthStart (12 * year) + 360 ≤ monthStart (12 * (year + 1)) := by
    simp only [monthStart]
    omega
  simp only [weekOne, weekday]
  omega

theorem year_bounds (n : Int) :
    monthStart (12 * (civil n).year) ≤ n ∧ n < monthStart (12 * ((civil n).year + 1)) := by
  obtain ⟨hle, hlt⟩ := civil_month_eq_iff.mp (rfl : (civil n).month = _)
  have hfirst : 12 * (civil n).year ≤ (civil n).month := by
    unfold Date.year
    omega
  have hnext : (civil n).month + 1 ≤ 12 * ((civil n).year + 1) := by
    unfold Date.year
    omega
  exact ⟨le_trans (monthStart_strictMono.monotone hfirst) hle,
    lt_of_lt_of_le hlt (monthStart_strictMono.monotone hnext)⟩

theorem le_year {n year : Int} (h : monthStart (12 * year) ≤ n) : year ≤ (civil n).year := by
  have hlt := monthStart_strictMono.lt_iff_lt.mp (lt_of_le_of_lt h (year_bounds n).2)
  omega

theorem dateUTC_of_le {year : Int} (h : 100 ≤ year) (month day : Int) :
    dateUTC year month day = monthStart (12 * year + month) + day - 1 := by
  rw [dateUTC, if_neg (by omega)]

/-- A day is in the week of the Thursday that `isoWeek` goes to. -/
theorem weekOne_le_iff {n year : Int} :
    weekOne year ≤ n ↔ monthStart (12 * year) ≤ n - weekday n + 3 := by
  simp only [weekOne, weekday]
  omega

def thursday (n : Int) : Int := n - weekday n + 3

theorem isoWeek_eq {dt : Date} (h : 100 < dt.year) :
    isoWeek dt = (thursday dt.number -
      monthStart (12 * (civil (thursday dt.number)).year) + 1 + 6) / 7 := by
  have hmonth : 12 * dt.year + dt.month % 12 = dt.month := by
    unfold Date.year
    omega
  have hday : dateUTC dt.year (dt.month % 12) dt.day = dt.number := by
    rw [dateUTC_of_le (by omega), hmonth, Date.number]
  have hthursday : dt.number + 4 -
      (if getUTCDay dt.number = 0 then 7 else getUTCDay dt.number) = thursday dt.number := by
    simp only [getUTCDay, thursday, weekday]
    omega
  have hyear : 100 ≤ (civil (thursday dt.number)).year := by
    apply le_year
    have hlong : monthStart (12 * 100) + 3 ≤ monthStart (12 * 101) := by decide +kernel
    have hle : monthStart (12 * 101) ≤ dt.number := by
      have hfirst : monthStart (12 * 101) ≤ monthStart dt.month :=
        monthStart_strictMono.monotone (by omega)
      have hone := dt.one_le
      unfold Date.number
      omega
    simp only [thursday, weekday]
    omega
  simp only [isoWeek, hday, hthursday]
  rw [dateUTC_of_le hyear]
  simp only [Int.add_zero, Int.add_sub_cancel]

theorem weekOne_strictMono : StrictMono weekOne := strictMono_int_of_lt_succ weekOne_lt

/-- The number is that of the standard: weeks begin on Monday, are counted from the
one with the fourth of January in it, and belong to the year in which they are
counted. -/
theorem isoWeek_standard (dt : Date) (h : 100 < dt.year) :
    ∃! year, weekOne year ≤ dt.number ∧ dt.number < weekOne (year + 1) ∧
      isoWeek dt = (dt.number - weekOne year) / 7 + 1 ∧ 1 ≤ isoWeek dt ∧ isoWeek dt ≤ 53 := by
  obtain ⟨hle, hlt⟩ := year_bounds (thursday dt.number)
  have hweek := isoWeek_eq h
  generalize (civil (thursday dt.number)).year = year at hle hlt hweek
  have hyear : monthStart (12 * (year + 1)) ≤ monthStart (12 * year) + 366 := by
    simp only [monthStart]
    omega
  have hfrom : weekOne year ≤ dt.number := weekOne_le_iff.mpr hle
  have hto : dt.number < weekOne (year + 1) := lt_of_not_ge (mt weekOne_le_iff.mp (not_le.mpr hlt))
  refine ⟨year, ⟨hfrom, hto, ?_, ?_, ?_⟩, ?_⟩
  · rw [hweek]
    simp only [thursday, weekOne, weekday]
    omega
  · omega
  · omega
  · rintro other ⟨hle', hlt', -⟩
    have h₁ := weekOne_strictMono.lt_iff_lt.mp (lt_of_le_of_lt hfrom hlt')
    have h₂ := weekOne_strictMono.lt_iff_lt.mp (lt_of_le_of_lt hle' hto)
    omega

/-- The third of January 2021 was a Sunday of week 53. -/
theorem isoWeek_standard_newYear :
    ∃! year, weekOne year ≤ (⟨12 * 2021, 3, by decide, by decide⟩ : Date).number ∧
      (⟨12 * 2021, 3, by decide, by decide⟩ : Date).number < weekOne (year + 1) ∧
      isoWeek ⟨12 * 2021, 3, by decide, by decide⟩ =
        ((⟨12 * 2021, 3, by decide, by decide⟩ : Date).number - weekOne year) / 7 + 1 ∧
      1 ≤ isoWeek ⟨12 * 2021, 3, by decide, by decide⟩ ∧
      isoWeek ⟨12 * 2021, 3, by decide, by decide⟩ ≤ 53 :=
  isoWeek_standard _ (by decide)

/-! ## The hands -/

/-- A page with the stage and the picture in picture.  Elements are numbered as they
come; `told` is history, the facts of each clock that had some and the one it shows. -/
structure Page where
  created : Nat := 0
  stage : List Nat := []
  pip : List Nat := []
  clocks : List Nat := []
  animating : Bool := false
  frames : Nat := 0
  drawn : List Nat := []
  factCounter : Nat := 0
  told : List (List String × String) := []
  deriving DecidableEq, Repr

namespace Page

variable (p : Page)

def document : List Nat := p.stage ++ p.pip

def startAnim : Page :=
  if p.animating then p else { p with animating := true, frames := p.frames + 1 }

def setFact (facts : List String) : Page :=
  if facts = [] then p
  else
    { p with
      told := p.told ++ [(facts, facts.getD (p.factCounter % facts.length) "")]
      factCounter := p.factCounter + 1 }

def setupClock (el : Nat) (facts : List String) : Page :=
  startAnim { p.setFact facts with clocks := p.clocks ++ [el] }

def fpSetupClocks (els : List (Nat × List String)) : Page :=
  els.foldl (fun p el => p.setupClock el.1 el.2) p

def elements (fragment : List (List String)) : List (Nat × List String) :=
  (List.range' p.created fragment.length).zip fragment

inductive Event where
  | loadView (fragment : List (List String))
  | pipRotate (fragment : List (List String))
  | frame
  deriving Repr

def loadView (fragment : List (List String)) : Page :=
  fpSetupClocks { p with
    created := p.created + fragment.length
    stage := (p.elements fragment).map Prod.fst } (p.elements fragment)

def pipRotate (fragment : List (List String)) : Page :=
  fpSetupClocks { p with
    created := p.created + fragment.length
    pip := (p.elements fragment).map Prod.fst } (p.elements fragment)

def frame : Option Page :=
  if p.frames = 0 then none
  else
    let clocks := p.clocks.filter (· ∈ p.document)
    if clocks = [] then
      some { p with clocks := [], frames := p.frames - 1, animating := false, drawn := [] }
    else some { p with clocks := clocks, drawn := clocks }

def step : Event → Option Page
  | .loadView fragment => some (p.loadView fragment)
  | .pipRotate fragment => some (p.pipRotate fragment)
  | .frame => p.frame

def opened (fragment : List (List String)) : Page := loadView {} fragment

end Page

def faces : System Page Page.Event := ⟨Page.step⟩

namespace Page

variable {p p' : Page} {el : Nat} {todo : List Nat} {facts : List String}
  {fragment : List (List String)}

structure Moving (p : Page) (todo : List Nat) : Prop where
  frames : p.frames = if p.animating then 1 else 0
  animating : p.animating = true ↔ p.clocks ≠ []
  nodup : (p.clocks ++ todo).Nodup
  shown : ∀ el ∈ p.document, el ∈ p.clocks ++ todo
  created : ∀ el ∈ p.clocks ++ todo, el < p.created

structure Telling (p : Page) : Prop where
  counter : p.factCounter = p.told.length
  next : ∀ i (facts : List String) fact, p.told[i]? = some (facts, fact) → facts[i % facts.length]? = some fact

theorem setFact_eq (p : Page) (facts : List String) :
    p.setFact facts =
      { p with told := (p.setFact facts).told, factCounter := (p.setFact facts).factCounter } := by
  unfold setFact
  split
  · rfl
  · rfl

theorem startAnim_eq (p : Page) :
    p.startAnim =
      { p with animating := true, frames := if p.animating then p.frames else p.frames + 1 } := by
  unfold startAnim
  split
  case isTrue h => rw [← h]
  case isFalse h => rfl

theorem Moving.setupClock (h : p.Moving (el :: todo)) : (p.setupClock el facts).Moving todo := by
  have hlist : p.clocks ++ [el] ++ todo = p.clocks ++ el :: todo := by simp
  rw [Page.setupClock, setFact_eq, startAnim_eq]
  constructor
  case frames =>
      have hframes := h.frames
      dsimp only
      split at hframes
      case isTrue hanim => rw [if_pos hanim, hframes, if_pos rfl]
      case isFalse hanim => rw [if_neg hanim, hframes, if_pos rfl]
  case animating => simp
  case nodup =>
      dsimp only
      rw [hlist]
      exact h.nodup
  case shown =>
      intro el' hel'
      dsimp only
      rw [hlist]
      exact h.shown el' hel'
  case created =>
      dsimp only
      rw [hlist]
      exact h.created

theorem Moving.fpSetupClocks {els : List (Nat × List String)}
    (h : p.Moving (els.map Prod.fst)) : (p.fpSetupClocks els).Moving [] := by
  induction els generalizing p with
  | nil => exact h
  | cons el els ih => exact ih h.setupClock

theorem map_elements (p : Page) (fragment : List (List String)) :
    (p.elements fragment).map Prod.fst = List.range' p.created fragment.length := by
  rw [elements, List.map_fst_zip]
  rw [List.length_range']

theorem Moving.created_nodup (h : p.Moving []) (n : Nat) :
    (p.clocks ++ List.range' p.created n).Nodup := by
  have hnodup : p.clocks.Nodup := by simpa using h.nodup
  apply List.nodup_append.mpr ⟨hnodup, List.nodup_range', ?_⟩
  rintro el hclock _ hnew rfl
  have hlt := h.created el (List.mem_append_left _ hclock)
  have hle := (List.mem_range'_1.mp hnew).1
  omega

theorem Moving.created_lt (h : p.Moving []) {n : Nat}
    (hel : el ∈ p.clocks ++ List.range' p.created n) : el < p.created + n := by
  rcases List.mem_append.mp hel with hclock | hnew
  · have := h.created el (List.mem_append_left _ hclock)
    omega
  · exact (List.mem_range'_1.mp hnew).2

theorem Moving.loadView (h : p.Moving []) : (p.loadView fragment).Moving [] := by
  apply Moving.fpSetupClocks
  rw [map_elements]
  constructor
  case frames => exact h.frames
  case animating => exact h.animating
  case nodup => exact h.created_nodup _
  case shown =>
      intro el hel
      rcases List.mem_append.mp hel with hstage | hpip
      · exact List.mem_append_right _ hstage
      · have hclock := h.shown el (List.mem_append_right _ hpip)
        exact List.mem_append_left _ (by simpa using hclock)
  case created => exact fun el hel => h.created_lt hel

theorem Moving.pipRotate (h : p.Moving []) : (p.pipRotate fragment).Moving [] := by
  apply Moving.fpSetupClocks
  rw [map_elements]
  constructor
  case frames => exact h.frames
  case animating => exact h.animating
  case nodup => exact h.created_nodup _
  case shown =>
      intro el hel
      rcases List.mem_append.mp hel with hstage | hpip
      · have hclock := h.shown el (List.mem_append_left _ hstage)
        exact List.mem_append_left _ (by simpa using hclock)
      · exact List.mem_append_right _ hpip
  case created => exact fun el hel => h.created_lt hel

theorem frame_eq (h : p.frame = some p') :
    p.frames ≠ 0 ∧ ∃ kept, kept = p.clocks.filter (· ∈ p.document) ∧
      p' = { p with
        clocks := kept
        drawn := kept
        animating := if kept = [] then false else p.animating
        frames := if kept = [] then p.frames - 1 else p.frames } := by
  unfold frame at h
  split at h
  case isTrue => simp at h
  case isFalse hframes =>
      refine ⟨hframes, _, rfl, ?_⟩
      dsimp only at h
      split at h
      case isTrue hnone =>
          cases h
          simp [hnone]
      case isFalse hsome =>
          cases h
          simp [hsome]

theorem Moving.frame (h : p.Moving []) (hframe : p.frame = some p') : p'.Moving [] := by
  obtain ⟨hpending, kept, hkept, rfl⟩ := frame_eq hframe
  have hframes := h.frames
  have hanimating : p.animating = true := by
    by_contra hnot
    rw [if_neg hnot] at hframes
    exact hpending hframes
  rw [if_pos hanimating] at hframes
  constructor
  case frames =>
      dsimp only
      rw [hframes, hanimating]
      split
      · rfl
      · rfl
  case animating => simp [hanimating]
  case nodup =>
      have hnodup : p.clocks.Nodup := by simpa using h.nodup
      rw [List.append_nil, hkept]
      exact hnodup.filter _
  case shown =>
      intro el hel
      have hclock := h.shown el hel
      rw [List.append_nil] at hclock ⊢
      rw [hkept]
      exact List.mem_filter.mpr ⟨hclock, decide_eq_true hel⟩
  case created =>
      intro el hel
      rw [List.append_nil, hkept] at hel
      exact h.created el (List.mem_append_left _ (List.mem_filter.mp hel).1)

theorem Moving.step {e : Event} (h : p.Moving []) (hstep : p.step e = some p') :
    p'.Moving [] := by
  cases e with
  | loadView fragment =>
      cases hstep
      exact h.loadView
  | pipRotate fragment =>
      cases hstep
      exact h.pipRotate
  | frame => exact h.frame hstep

theorem Moving.opened (fragment : List (List String)) : (opened fragment).Moving [] := by
  apply Moving.loadView
  exact ⟨rfl, by simp, List.nodup_nil, by simp [document], by simp⟩

/-! ## The facts -/

theorem Telling.setFact (h : p.Telling) : (p.setFact facts).Telling := by
  unfold Page.setFact
  split
  case isTrue => exact h
  case isFalse hne =>
      constructor
      case counter =>
          have hcounter := h.counter
          simp [hcounter]
      case next =>
          intro i facts' fact hi
          have hlt : p.factCounter % facts.length < facts.length :=
            Nat.mod_lt _ (List.length_pos_iff.mpr hne)
          rcases Nat.lt_trichotomy i p.told.length with hold | rfl | hbeyond
          · rw [List.getElem?_append_left hold] at hi
            exact h.next i facts' fact hi
          · rw [List.getElem?_concat_length] at hi
            cases hi
            rw [← h.counter, List.getD_eq_getElem?_getD, List.getElem?_eq_getElem hlt]
            rfl
          · rw [List.getElem?_eq_none] at hi
            · simp at hi
            · simp
              omega

theorem Telling.of_eq (h : p.Telling) (htold : p'.told = p.told)
    (hcounter : p'.factCounter = p.factCounter) : p'.Telling := by
  constructor
  case counter => rw [hcounter, htold, h.counter]
  case next =>
      rw [htold]
      exact h.next

theorem Telling.setupClock (h : p.Telling) : (p.setupClock el facts).Telling := by
  rw [Page.setupClock, startAnim_eq]
  exact h.setFact.of_eq rfl rfl

theorem Telling.fpSetupClocks {els : List (Nat × List String)} (h : p.Telling) :
    (p.fpSetupClocks els).Telling := by
  induction els generalizing p with
  | nil => exact h
  | cons el els ih => exact ih h.setupClock

theorem Telling.step {e : Event} (h : p.Telling) (hstep : p.step e = some p') : p'.Telling := by
  cases e with
  | loadView fragment =>
      cases hstep
      exact Telling.fpSetupClocks (h.of_eq rfl rfl)
  | pipRotate fragment =>
      cases hstep
      exact Telling.fpSetupClocks (h.of_eq rfl rfl)
  | frame =>
      obtain ⟨-, kept, -, rfl⟩ := frame_eq hstep
      exact h.of_eq rfl rfl

theorem Telling.opened (fragment : List (List String)) : (opened fragment).Telling := by
  apply Telling.fpSetupClocks
  exact ⟨rfl, by simp⟩

/-- Clocks may come and go: never more than one frame is pending, one is while there is a
clock to see, and it draws each of these once.  Their facts take turns. -/
theorem hands_move (fragment : List (List String)) {es : List Event}
    (hrun : faces.run (opened fragment) es = some p) :
    p.frames ≤ 1 ∧ (p.document ≠ [] → p.frames = 1) ∧
      (∀ p', p.frame = some p' → p'.drawn.Nodup ∧ ∀ el, el ∈ p'.drawn ↔ el ∈ p.document) ∧
      ∀ i (facts : List String) fact, p.told[i]? = some (facts, fact) →
        facts[i % facts.length]? = some fact := by
  have hmoving : p.Moving [] :=
    System.run_invariant (I := fun p => p.Moving []) (fun s e s' hs hstep => hs.step hstep)
      (Moving.opened fragment) hrun
  have htelling : p.Telling :=
    System.run_invariant (fun s e s' hs hstep => hs.step hstep) (Telling.opened fragment) hrun
  have hframes := hmoving.frames
  refine ⟨?_, ?_, ?_, htelling.next⟩
  · split at hframes
    · omega
    · omega
  · intro hdocument
    obtain ⟨el, hel⟩ := List.exists_mem_of_ne_nil _ hdocument
    have hclock := hmoving.shown el hel
    rw [List.append_nil] at hclock
    rw [if_pos (hmoving.animating.mpr (List.ne_nil_of_mem hclock))] at hframes
    exact hframes
  · intro p' hframe
    obtain ⟨-, kept, hkept, rfl⟩ := frame_eq hframe
    have hnodup : p.clocks.Nodup := by simpa using hmoving.nodup
    dsimp only
    rw [hkept]
    refine ⟨hnodup.filter _, fun el => ⟨fun hel => ?_, fun hel => ?_⟩⟩
    · simpa using (List.mem_filter.mp hel).2
    · have hclock := hmoving.shown el hel
      rw [List.append_nil] at hclock
      exact List.mem_filter.mpr ⟨hclock, by simpa using hel⟩

def turns : List Event :=
  [.frame, .pipRotate [["a", "b"]], .frame, .loadView [], .frame]

theorem hands_move_turns :
    ∃ p, faces.run (opened [["a", "b"], []]) turns = some p ∧
      p.frames ≤ 1 ∧ (p.document ≠ [] → p.frames = 1) ∧
      (∀ p', p.frame = some p' → p'.drawn.Nodup ∧ ∀ el, el ∈ p'.drawn ↔ el ∈ p.document) ∧
      ∀ i (facts : List String) fact, p.told[i]? = some (facts, fact) →
        facts[i % facts.length]? = some fact := by
  obtain ⟨p, hrun⟩ := Option.isSome_iff_exists.mp
    (by decide +kernel : (faces.run (opened [["a", "b"], []]) turns).isSome)
  exact ⟨p, hrun, hands_move _ hrun⟩

end Page

end FamilyPlanner.Kiosk.ClockFace
