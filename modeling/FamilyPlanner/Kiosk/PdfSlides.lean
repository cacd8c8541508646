import FamilyPlanner.Foundation.Run
import Mathlib.Data.List.Chain

/-!
# The slideshow of a PDF

A document is shown page by page.  One timeout at a time turns the pages, the
user may step through them, and a page is drawn in the background: while one is
being drawn, a request to draw another is dropped.
-/

namespace FamilyPlanner.Kiosk

open FamilyPlanner.Foundation

/--
`pending` are the timeouts of the page with their due times, `timer` the last
one set here.  `since`, `ends`, `steps` and `drawn` are history: when the page
was last turned, how often the end was reported, how often the user stepped,
and the pages put on the canvas.
-/
structure Slides where
  interval : Nat
  fitWidth : Bool
  onEnd : Bool
  doc : Bool := false
  page : Nat := 1
  pages : Nat := 0
  pending : List (Nat × Nat) := []
  timer : Option Nat := none
  timeouts : Nat := 0
  rendering : Option (List Nat) := none
  canvas : List Nat := []
  pageno : Option Nat := none
  focused : Bool := false
  attached : Bool := true
  now : Nat := 0
  since : Nat := 0
  ends : Nat := 0
  steps : Nat := 0
  drawn : List Nat := []
  deriving DecidableEq, Repr

namespace Slides

def slideshow (st : Slides) : Bool := 0 < st.interval

/-- Milliseconds. -/
def period (st : Slides) : Nat := 1000 * max 2 st.interval

def pageNums (st : Slides) : List Nat :=
  if st.slideshow then [st.page] else (List.range st.pages).map (· + 1)

def render (st : Slides) : Slides :=
  if st.doc = false ∨ st.rendering.isSome then st
  else { st with
    rendering := some st.pageNums
    pageno := if st.slideshow then some st.page else st.pageno }

/-- The timeout set last is cleared first. -/
def scheduleSlide (st : Slides) : Slides :=
  { st with
    pending := (st.pending.filter fun t => some t.1 ≠ st.timer) ++
      [(st.timeouts, st.now + st.period)]
    timer := some st.timeouts
    timeouts := st.timeouts + 1 }

def turn (st : Slides) (page : Nat) : Slides :=
  ({ st with page, since := st.now } : Slides).render.scheduleSlide

def slide (st : Slides) : Slides :=
  if st.attached = false then st
  else if st.focused then st.scheduleSlide
  else if st.pages ≤ st.page then
    if st.onEnd then { st with ends := st.ends + 1 } else st.turn 1
  else st.turn (st.page + 1)

def loaded (st : Slides) (numPages : Nat) : Slides :=
  let st := ({ st with doc := true, pages := numPages, since := st.now } : Slides).render
  if st.slideshow then st.scheduleSlide else st

def fpPdfStep (st : Slides) (forward : Bool) : Slides :=
  if st.slideshow = false ∨ st.doc = false then st
  else
    let st := { st with steps := st.steps + 1 }
    if forward then st.turn (if st.pages ≤ st.page then 1 else st.page + 1)
    else st.turn (if st.page ≤ 1 then st.pages else st.page - 1)

def stepPage (st : Slides) (forward : Bool) : Slides :=
  let st := { st with steps := st.steps + 1 }
  st.turn (if forward then st.page + 1 else st.page - 1)

/-- `edge` is whether the page is scrolled to its end in that direction;
otherwise the step scrolls within the page. -/
def fpPdfScroll (st : Slides) (forward edge : Bool) : Slides :=
  if st.slideshow = false ∨ st.doc = false then st
  else if st.fitWidth = false then st.fpPdfStep forward
  else if edge = false then st
  else if forward then if st.page < st.pages then st.stepPage true else st
  else if 1 < st.page then st.stepPage false
  else st

inductive Input where
  | loaded (numPages : Nat)
  | timeout (id : Nat)
  | drawn (ok : Bool)
  | step (forward : Bool)
  | scroll (forward edge : Bool)
  | zoom
  | focus (focused : Bool)
  | detach
  | elapse (ms : Nat)
  deriving DecidableEq, Repr

def step (st : Slides) : Input → Option Slides
  | .loaded numPages => if st.doc then none else some (st.loaded numPages)
  | .timeout id =>
      match st.pending.find? (·.1 = id) with
      | none => none
      | some t =>
          if t.2 ≤ st.now then
            some ({ st with pending := st.pending.filter (·.1 ≠ id) } : Slides).slide
          else none
  | .drawn ok =>
      match st.rendering with
      | none => none
      | some nums =>
          if ok then
            some { st with
              rendering := none
              canvas := nums
              drawn := st.drawn ++ nums }
          else some { st with rendering := none }
  | .step forward => some (st.fpPdfStep forward)
  | .scroll forward edge => some (st.fpPdfScroll forward edge)
  | .zoom => some st.render
  | .focus focused => some { st with focused }
  | .detach => some { st with attached := false }
  | .elapse ms => some { st with now := st.now + ms }

def inputs : System Slides Input := ⟨step⟩

def setup (interval : Nat) (fitWidth onEnd : Bool) : Slides := { interval, fitWidth, onEnd }

/-! ## One timeout, within the document -/

/-- What is or was drawn are pages of the document, one at a time in a slideshow. -/
structure Shows (st : Slides) : Prop where
  blank : st.doc = false → st.rendering = none ∧ st.canvas = [] ∧ st.drawn = []
  rendering : ∀ nums, st.rendering = some nums →
    (∀ p ∈ nums, 1 ≤ p ∧ p ≤ st.pages) ∧ (st.slideshow = true → nums.length = 1)
  canvas : ∀ p ∈ st.canvas, 1 ≤ p ∧ p ≤ st.pages
  single : st.slideshow = true → st.canvas.length ≤ 1
  drawn : ∀ p ∈ st.drawn, 1 ≤ p ∧ p ≤ st.pages

structure Sound (st : Slides) : Prop where
  shows : st.Shows
  within : st.doc = true → 1 ≤ st.page ∧ st.page ≤ st.pages
  idle : st.doc = false → st.pending = [] ∧ st.ends = 0 ∧ st.page = 1
  one : ∀ t ∈ st.pending, st.pending = [t] ∧ st.timer = some t.1 ∧ st.since + st.period ≤ t.2
  started : st.since ≤ st.now
  ended : st.ends + st.pending.length ≤ st.steps + 1

variable {st st' : Slides}

@[simp] theorem render_page (st : Slides) : st.render.page = st.page := by
  unfold render
  split <;> rfl

@[simp] theorem render_pages (st : Slides) : st.render.pages = st.pages := by
  unfold render
  split <;> rfl

@[simp] theorem render_doc (st : Slides) : st.render.doc = st.doc := by
  unfold render
  split <;> rfl

@[simp] theorem render_pending (st : Slides) : st.render.pending = st.pending := by
  unfold render
  split <;> rfl

@[simp] theorem render_timer (st : Slides) : st.render.timer = st.timer := by
  unfold render
  split <;> rfl

@[simp] theorem render_interval (st : Slides) : st.render.interval = st.interval := by
  unfold render
  split <;> rfl

@[simp] theorem render_now (st : Slides) : st.render.now = st.now := by
  unfold render
  split <;> rfl

@[simp] theorem render_since (st : Slides) : st.render.since = st.since := by
  unfold render
  split <;> rfl

@[simp] theorem render_ends (st : Slides) : st.render.ends = st.ends := by
  unfold render
  split <;> rfl

@[simp] theorem render_steps (st : Slides) : st.render.steps = st.steps := by
  unfold render
  split <;> rfl

theorem Shows.render (h : st.Shows) (hwithin : st.doc = true → 1 ≤ st.page ∧ st.page ≤ st.pages) :
    st.render.Shows := by
  unfold Slides.render
  split
  · exact h
  · rename_i hguard
    have hdoc : st.doc = true := by
      by_contra hne
      exact hguard (.inl (by simpa using hne))
    refine ⟨?_, ?_, h.canvas, h.single, h.drawn⟩
    · intro hnone
      exact absurd (hdoc.symm.trans hnone) (by decide)
    · intro nums hnums
      cases hnums
      unfold pageNums
      split
      · simpa using hwithin hdoc
      · rename_i hslides
        constructor
        · intro p hp
          obtain ⟨i, hi, rfl⟩ := List.mem_map.mp hp
          rw [List.mem_range] at hi
          dsimp only
          omega
        · exact fun hslides' => absurd hslides' hslides

theorem Shows.scheduleSlide (h : st.Shows) : st.scheduleSlide.Shows := { h with }

theorem Shows.turn (h : st.Shows) {page : Nat} (hwithin : 1 ≤ page ∧ page ≤ st.pages) :
    (st.turn page).Shows := by
  have hturned : Shows { st with page, since := st.now } := { h with }
  exact (hturned.render fun _ => hwithin).scheduleSlide

theorem Shows.drawing (h : st.Shows) {nums : List Nat} (hnums : st.rendering = some nums) :
    Shows { st with rendering := none, canvas := nums, drawn := st.drawn ++ nums } := by
  obtain ⟨hwithin, hsingle⟩ := h.rendering nums hnums
  refine ⟨?_, by simp, hwithin, fun hslides => (hsingle hslides).le, ?_⟩
  · intro hdoc
    rw [(h.blank hdoc).1] at hnums
    cases hnums
  · intro p hp
    rcases List.mem_append.mp hp with hp | hp
    · exact h.drawn p hp
    · exact hwithin p hp

theorem Sound.render (h : st.Sound) : st.render.Sound := by
  obtain ⟨hshows, hwithin, hidle, hone, hstarted, hended⟩ := h
  constructor
  · exact hshows.render hwithin
  · simpa using hwithin
  · simpa using hidle
  · simpa [period] using hone
  · simpa using hstarted
  · simpa using hended

theorem pending_scheduleSlide
    (hone : ∀ t ∈ st.pending, st.pending = [t] ∧ st.timer = some t.1) :
    st.scheduleSlide.pending = [(st.timeouts, st.now + st.period)] := by
  have hcleared : (st.pending.filter fun t => some t.1 ≠ st.timer) = [] := by
    apply List.filter_eq_nil_iff.mpr
    intro t ht
    simp [(hone t ht).2]
  simp only [scheduleSlide, hcleared, List.nil_append]

theorem sound_scheduleSlide (hshows : st.Shows) (hdoc : st.doc = true)
    (hwithin : 1 ≤ st.page ∧ st.page ≤ st.pages) (hstarted : st.since ≤ st.now)
    (hone : ∀ t ∈ st.pending, st.pending = [t] ∧ st.timer = some t.1)
    (hended : st.ends ≤ st.steps) : st.scheduleSlide.Sound := by
  have hpending := pending_scheduleSlide hone
  constructor
  · exact hshows.scheduleSlide
  · exact fun _ => hwithin
  · intro hnone
    exact absurd (hdoc.symm.trans hnone) (by decide)
  · intro t ht
    rw [hpending] at ht ⊢
    rw [List.mem_singleton.mp ht]
    refine ⟨rfl, rfl, ?_⟩
    exact Nat.add_le_add_right hstarted _
  · exact hstarted
  · rw [hpending]
    exact Nat.succ_le_succ hended

theorem sound_turn {page : Nat} (hshows : st.Shows) (hdoc : st.doc = true)
    (hwithin : 1 ≤ page ∧ page ≤ st.pages)
    (hone : ∀ t ∈ st.pending, st.pending = [t] ∧ st.timer = some t.1)
    (hended : st.ends ≤ st.steps) : (st.turn page).Sound := by
  have hturned : Shows { st with page, since := st.now } := { hshows with }
  apply sound_scheduleSlide
  · exact hturned.render fun _ => hwithin
  · simpa using hdoc
  · simpa using hwithin
  · simp
  · simpa using hone
  · simpa using hended

theorem Sound.loaded (h : st.Sound) {numPages : Nat} (hpages : 0 < numPages)
    (hdoc : st.doc = false) : (st.loaded numPages).Sound := by
  obtain ⟨hpending, hends, hpage⟩ := h.idle hdoc
  obtain ⟨hrendering, hcanvas, hdrawn⟩ := h.shows.blank hdoc
  have hwithin : 1 ≤ st.page ∧ st.page ≤ numPages := by omega
  have hshows : Shows { st with doc := true, pages := numPages, since := st.now } := by
    constructor <;> simp [hrendering, hcanvas, hdrawn]
  simp only [Slides.loaded]
  split
  · apply sound_scheduleSlide
    · exact hshows.render fun _ => hwithin
    · simp
    · simpa using hwithin
    · simp
    · simp [hpending]
    · simp [hends]
  · apply Sound.render
    constructor
    · exact hshows
    · exact fun _ => hwithin
    · simp
    · simp [hpending]
    · exact Nat.le_refl _
    · simp [hpending, hends]

theorem Sound.fpPdfStep (h : st.Sound) (forward : Bool) : (st.fpPdfStep forward).Sound := by
  unfold Slides.fpPdfStep
  split
  · exact h
  · rename_i hguard
    have hdoc : st.doc = true := by
      by_contra hne
      exact hguard (.inr (by simpa using hne))
    have hwithin := h.within hdoc
    have hone : ∀ t ∈ st.pending, st.pending = [t] ∧ st.timer = some t.1 :=
      fun t ht => ⟨(h.one t ht).1, (h.one t ht).2.1⟩
    have hended : st.ends ≤ st.steps + 1 := by
      have := h.ended
      omega
    dsimp only
    split
    all_goals
      apply @sound_turn { st with steps := st.steps + 1 } _ { h.shows with } hdoc _ hone hended
      split
      all_goals
        dsimp only
        omega

theorem Sound.stepPage (h : st.Sound) (hdoc : st.doc = true) {forward : Bool}
    (hroom : if forward then st.page < st.pages else 1 < st.page) :
    (st.stepPage forward).Sound := by
  have hwithin := h.within hdoc
  apply @sound_turn { st with steps := st.steps + 1 } _ { h.shows with } hdoc
  · cases forward with
    | true =>
        have hroom : st.page < st.pages := hroom
        show 1 ≤ st.page + 1 ∧ st.page + 1 ≤ st.pages
        omega
    | false =>
        have hroom : 1 < st.page := hroom
        show 1 ≤ st.page - 1 ∧ st.page - 1 ≤ st.pages
        omega
  · exact fun t ht => ⟨(h.one t ht).1, (h.one t ht).2.1⟩
  · have := h.ended
    dsimp only
    omega

theorem Sound.fpPdfScroll (h : st.Sound) (forward edge : Bool) :
    (st.fpPdfScroll forward edge).Sound := by
  unfold Slides.fpPdfScroll
  split
  · exact h
  · rename_i hguard
    have hdoc : st.doc = true := by
      by_contra hne
      exact hguard (.inr (by simpa using hne))
    split
    · exact h.fpPdfStep forward
    · split
      · exact h
      · split
        · split
          · rename_i hroom
            exact h.stepPage hdoc hroom
          · exact h
        · split
          · rename_i hroom
            exact h.stepPage hdoc hroom
          · exact h

theorem Sound.slide (h : st.Sound) {t : Nat × Nat} (ht : t ∈ st.pending) :
    ({ st with pending := st.pending.filter (·.1 ≠ t.1) } : Slides).slide.Sound := by
  obtain ⟨hpending, htimer, hdue⟩ := h.one t ht
  have hdoc : st.doc = true := by
    by_contra hne
    have hnone := (h.idle (by simpa using hne)).1
    rw [hnone] at ht
    contradiction
  have hwithin := h.within hdoc
  have hended : st.ends ≤ st.steps := by
    have := h.ended
    rw [hpending, List.length_singleton] at this
    omega
  rw [show st.pending.filter (·.1 ≠ t.1) = [] by rw [hpending]; simp]
  unfold Slides.slide
  have hquiet (n : Nat) (hn : n ≤ st.ends + 1) :
      Slides.Sound { st with pending := [], ends := n } := by
    constructor
    · exact { h.shows with }
    · exact fun _ => hwithin
    · intro hnone
      exact absurd (hdoc.symm.trans hnone) (by decide)
    · simp
    · exact h.started
    · simp only [List.length_nil]
      omega
  split
  · exact hquiet st.ends (Nat.le_succ _)
  · split
    · exact @sound_scheduleSlide { st with pending := [] } { h.shows with } hdoc hwithin
        h.started (by simp) hended
    · split
      · split
        · exact hquiet (st.ends + 1) (Nat.le_refl _)
        · apply @sound_turn { st with pending := [] } _ { h.shows with } hdoc _ (by simp) hended
          dsimp only
          omega
      · rename_i hmore
        apply @sound_turn { st with pending := [] } _ { h.shows with } hdoc _ (by simp) hended
        dsimp only at hmore ⊢
        omega

theorem timeout_cases {id : Nat} (h : st.step (.timeout id) = some st') :
    ∃ t ∈ st.pending, t.1 = id ∧ t.2 ≤ st.now ∧
      st' = ({ st with pending := st.pending.filter (·.1 ≠ t.1) } : Slides).slide := by
  simp only [step] at h
  split at h
  · contradiction
  · rename_i t hfind
    have hid : t.1 = id := by simpa using List.find?_some hfind
    split at h
    · rename_i hdue
      cases h
      exact ⟨t, List.mem_of_find?_eq_some hfind, hid, hdue, by rw [hid]⟩
    · contradiction

/-- A document has pages. -/
def HasPages : Input → Prop
  | .loaded numPages => 0 < numPages
  | _ => True

instance : ∀ e, Decidable (HasPages e)
  | .loaded numPages => inferInstanceAs (Decidable (0 < numPages))
  | .timeout _ | .drawn _ | .step _ | .scroll _ _ | .zoom | .focus _ | .detach | .elapse _ =>
      .isTrue trivial

theorem Sound.step (h : st.Sound) {e : Input} (he : HasPages e)
    (hstep : st.step e = some st') : st'.Sound := by
  cases e with
  | loaded numPages =>
      simp only [Slides.step] at hstep
      split at hstep
      · contradiction
      · rename_i hdoc
        cases hstep
        exact h.loaded he (by simpa using hdoc)
  | timeout id =>
      obtain ⟨t, ht, -, -, rfl⟩ := timeout_cases hstep
      exact h.slide ht
  | drawn ok =>
      simp only [Slides.step] at hstep
      split at hstep
      · contradiction
      · rename_i nums hnums
        split at hstep
        all_goals
          cases hstep
          refine ⟨?_, h.within, h.idle, h.one, h.started, h.ended⟩
        · exact h.shows.drawing hnums
        · exact ⟨fun hdoc => ⟨rfl, (h.shows.blank hdoc).2⟩, by simp, h.shows.canvas,
            h.shows.single, h.shows.drawn⟩
  | step forward =>
      cases hstep
      exact h.fpPdfStep forward
  | scroll forward edge =>
      cases hstep
      exact h.fpPdfScroll forward edge
  | zoom =>
      cases hstep
      exact h.render
  | focus focused =>
      cases hstep
      exact ⟨{ h.shows with }, h.within, h.idle, h.one, h.started, h.ended⟩
  | detach =>
      cases hstep
      exact ⟨{ h.shows with }, h.within, h.idle, h.one, h.started, h.ended⟩
  | elapse ms =>
      cases hstep
      exact ⟨{ h.shows with }, h.within, h.idle, h.one, Nat.le_add_right_of_le h.started,
        h.ended⟩

theorem sound_setup (interval : Nat) (fitWidth onEnd : Bool) :
    (setup interval fitWidth onEnd).Sound := by
  constructor
  · constructor <;> simp [setup]
  all_goals simp [setup]

def Input.byHand : Input → Bool
  | .step _ | .scroll _ _ => true
  | _ => false

/-- By itself only a timeout turns the page, to the next one, or reports the end: of a
slideshow on screen that is not driven by hand and has shown the page for its time. -/
def Paced (st : Slides) (e : Input) : Prop :=
  ∀ st', e.byHand = false → st.step e = some st' →
    st'.page ≠ st.page ∨ st'.ends ≠ st.ends →
      (∃ id, e = .timeout id) ∧
        st.attached = true ∧ st.focused = false ∧ st.since + st.period ≤ st.now ∧
        st'.page = (if st'.ends ≠ st.ends then st.page
          else if st.page < st.pages then st.page + 1 else 1) ∧
        (st'.ends ≠ st.ends → st.onEnd = true ∧ st.page = st.pages)

/-- All that is neither a timeout nor the user leaves the page alone. -/
theorem page_of_step {e : Input} (hhand : e.byHand = false) (htimeout : ∀ id, e ≠ .timeout id)
    (hstep : st.step e = some st') : st'.page = st.page ∧ st'.ends = st.ends := by
  cases e with
  | loaded numPages =>
      simp only [Slides.step] at hstep
      split at hstep
      · contradiction
      · cases hstep
        unfold Slides.loaded
        dsimp only
        split
        · simp [scheduleSlide]
        · simp
  | timeout id => exact absurd rfl (htimeout id)
  | drawn ok =>
      simp only [Slides.step] at hstep
      split at hstep
      · contradiction
      · split at hstep
        all_goals
          cases hstep
          exact ⟨rfl, rfl⟩
  | step | scroll => exact absurd hhand (by simp [Input.byHand])
  | zoom =>
      cases hstep
      simp
  | focus | detach | elapse =>
      cases hstep
      exact ⟨rfl, rfl⟩

theorem Sound.paced (h : st.Sound) (e : Input) : st.Paced e := by
  intro st' hhand hstep hchanged
  obtain ⟨id, rfl⟩ : ∃ id, e = .timeout id := by
    by_contra hne
    obtain ⟨hpage, hends⟩ := page_of_step hhand (fun id he => hne ⟨id, he⟩) hstep
    exact hchanged.elim (· hpage) (· hends)
  obtain ⟨t, ht, -, hdue, rfl⟩ := timeout_cases hstep
  have hsince := (h.one t ht).2.2
  have hdoc : st.doc = true := by
    by_contra hne
    rw [(h.idle (by simpa using hne)).1] at ht
    contradiction
  have hwithin := h.within hdoc
  unfold Slides.slide at hchanged ⊢
  dsimp only at hchanged ⊢
  by_cases hattached : st.attached = false
  · simp [hattached] at hchanged
  by_cases hfocused : st.focused = true
  · simp [hattached, hfocused, scheduleSlide] at hchanged
  refine ⟨⟨id, rfl⟩, by simpa using hattached, by simpa using hfocused, by omega, ?_⟩
  by_cases hlast : st.pages ≤ st.page
  · by_cases hend : st.onEnd = true
    · have hpage : st.page = st.pages := by omega
      simp [hattached, hfocused, hend, hpage]
    · simp [hattached, hfocused, hlast, hend, turn, scheduleSlide, Nat.not_lt.mpr hlast]
  · simp [hattached, hfocused, hlast, turn, scheduleSlide, Nat.not_le.mp hlast]

/-- The page and all that is drawn are of the document, a slideshow has one page on
the canvas, one timeout is pending at most, and the end is reported once, and again
only after the user has stepped. -/
structure Orderly (st : Slides) : Prop where
  within : st.doc = true → 1 ≤ st.page ∧ st.page ≤ st.pages
  shows : st.Shows
  one : st.pending.length ≤ 1
  ended : st.ends ≤ st.steps + 1
  finished : st.ends = st.steps + 1 → st.pending = []

theorem Sound.orderly (h : st.Sound) : st.Orderly := by
  have hended := h.ended
  constructor
  · exact h.within
  · exact h.shows
  · cases hpending : st.pending with
    | nil => simp
    | cons t rest =>
        have hone := (h.one t (by simp [hpending])).1
        rw [← hpending, hone]
        simp
  · omega
  · intro hover
    apply List.length_eq_zero_iff.mp
    omega

/-- A step while the page is being drawn; the end is reported, and after two
more steps again. -/
private def stepped : List Input :=
  [.loaded 2, .elapse 4000, .scroll true true, .drawn true, .focus true, .elapse 5000,
    .timeout 1, .focus false, .elapse 5000, .timeout 2, .step true, .drawn true, .step false,
    .elapse 5000, .timeout 4]

/-- The same page again, or the next one. -/
def Follows (pages a b : Nat) : Prop := b = a ∨ b = a + 1 ∨ a = pages ∧ b = 1

/-- The user leaves the slideshow alone, and a page is drawn before the next
timeout. -/
def LeftAlone (st : Slides) : Input → Prop
  | .loaded numPages => 0 < numPages
  | .timeout _ => st.rendering = none
  | .drawn ok => ok = true
  | .step _ | .scroll _ _ => False
  | _ => True

instance (st : Slides) : ∀ e, Decidable (st.LeftAlone e)
  | .loaded numPages => inferInstanceAs (Decidable (0 < numPages))
  | .timeout _ => inferInstanceAs (Decidable (st.rendering = none))
  | .drawn ok => inferInstanceAs (Decidable (ok = true))
  | .step _ | .scroll _ _ => .isFalse id
  | .zoom | .focus _ | .detach | .elapse _ => .isTrue trivial

structure Played (st : Slides) : Prop where
  blank : st.doc = false → st.rendering = none ∧ st.drawn = [] ∧ st.page = 1 ∧ st.ends = 0 ∧
    st.pending = []
  resting : st.doc = true → st.rendering = none →
    st.canvas = [st.page] ∧ st.drawn.getLast? = some st.page
  drawing : ∀ nums, st.rendering = some nums → nums = [st.page] ∧
    (st.drawn = [] → st.page = 1) ∧ ∀ q ∈ st.drawn.getLast?, Follows st.pages q st.page
  pageno : st.doc = true → st.pageno = some st.page
  first : ∀ q ∈ st.drawn.head?, q = 1
  chain : st.drawn.IsChain (Follows st.pages)
  covered : ∀ p, 1 ≤ p → p < st.page → p ∈ st.drawn
  ended : 0 < st.ends → ∀ p, 1 ≤ p → p ≤ st.pages → p ∈ st.drawn

theorem Played.turn (h : st.Played) (hslides : st.slideshow = true) (hdoc : st.doc = true)
    (hidle : st.rendering = none) {page : Nat} (hfollows : Follows st.pages st.page page)
    (hpage : page ≤ st.page + 1) : (st.turn page).Played := by
  obtain ⟨hcanvas, hlast⟩ := h.resting hdoc hidle
  have hslides' : 0 < st.interval := by simpa [slideshow] using hslides
  have hturn : st.turn page =
      { st with
        page, since := st.now, rendering := some [page], pageno := some page,
        pending := (st.turn page).pending, timer := (st.turn page).timer,
        timeouts := (st.turn page).timeouts } := by
    simp [Slides.turn, Slides.render, scheduleSlide, pageNums, hdoc, hidle, slideshow, hslides']
  rw [hturn]
  constructor
  · intro hnone
    exact absurd (hdoc.symm.trans hnone) (by decide)
  · intro _ hnone
    cases hnone
  · intro nums hnums
    cases hnums
    refine ⟨rfl, ?_, ?_⟩
    · intro hnil
      simp only at hnil
      rw [hnil] at hlast
      cases hlast
    · intro q hq
      cases hlast.symm.trans hq
      exact hfollows
  · exact fun _ => rfl
  · exact h.first
  · exact h.chain
  · intro p hp hlt
    dsimp only at hlt
    rcases Nat.lt_or_ge p st.page with hlt' | hge
    · exact h.covered p hp hlt'
    · have heq : p = st.page := by omega
      rw [heq]
      exact List.mem_of_getLast? hlast
  · exact h.ended

theorem Played.reschedule (h : st.Played) (hdoc : st.doc = true) {pending : List (Nat × Nat)}
    {timer : Option Nat} {timeouts : Nat} :
    Played { st with pending, timer, timeouts } := by
  refine { h with blank := ?_ }
  intro hnone
  exact absurd (hdoc.symm.trans hnone) (by decide)

theorem Played.loaded (h : st.Played) (hslides : st.slideshow = true) (hdoc : st.doc = false)
    (numPages : Nat) : (st.loaded numPages).Played := by
  obtain ⟨hidle, hdrawn, hpage, hends, -⟩ := h.blank hdoc
  have hslides' : 0 < st.interval := by simpa [slideshow] using hslides
  have hloaded : st.loaded numPages =
      { st with
        doc := true, pages := numPages, since := st.now, rendering := some [st.page],
        pageno := some st.page, pending := (st.loaded numPages).pending,
        timer := (st.loaded numPages).timer, timeouts := (st.loaded numPages).timeouts } := by
    simp [Slides.loaded, Slides.render, scheduleSlide, pageNums, hidle, slideshow, hslides']
  rw [hloaded]
  constructor
  · simp
  · intro _ hnone
    cases hnone
  · intro nums hnums
    cases hnums
    refine ⟨rfl, fun _ => hpage, ?_⟩
    simp [hdrawn]
  · exact fun _ => rfl
  · exact h.first
  · simp [hdrawn]
  · intro p hp hlt
    dsimp only at hlt
    omega
  · intro hsome
    dsimp only at hsome
    omega

theorem Played.drawn (h : st.Played) {nums : List Nat} (hnums : st.rendering = some nums) :
    Played { st with rendering := none, canvas := nums, drawn := st.drawn ++ nums } := by
  obtain ⟨rfl, hfirst, hfollows⟩ := h.drawing nums hnums
  constructor
  · intro hnone
    rw [(h.blank hnone).1] at hnums
    cases hnums
  · intro _ _
    exact ⟨rfl, by simp⟩
  · intro nums hnums
    cases hnums
  · exact h.pageno
  · intro q hq
    dsimp only at hq
    cases hdrawn : st.drawn with
    | nil =>
        rw [hdrawn] at hq
        cases hq
        exact hfirst hdrawn
    | cons a rest =>
        rw [hdrawn] at hq
        exact h.first q (by rw [hdrawn]; exact hq)
  · apply List.isChain_append.mpr
    refine ⟨h.chain, List.isChain_singleton _, ?_⟩
    intro q hq p hp
    cases hp
    exact hfollows q hq
  · intro p hp hlt
    exact List.mem_append_left _ (h.covered p hp hlt)
  · intro hends p hp hle
    exact List.mem_append_left _ (h.ended hends p hp hle)

theorem Played.zoom (h : st.Played) (hslides : st.slideshow = true) : st.render.Played := by
  unfold Slides.render
  split
  · exact h
  · rename_i hguard
    have hdoc : st.doc = true := by
      by_contra hne
      exact hguard (.inl (by simpa using hne))
    have hidle : st.rendering = none := by
      by_contra hne
      exact hguard (.inr (by simpa [Option.isSome_iff_ne_none] using hne))
    obtain ⟨-, hlast⟩ := h.resting hdoc hidle
    constructor
    · intro hnone
      exact absurd (hdoc.symm.trans hnone) (by decide)
    · intro _ hnone
      cases hnone
    · intro nums hnums
      cases hnums
      refine ⟨by simp [pageNums, hslides], ?_, ?_⟩
      · intro hnil
        dsimp only at hnil
        rw [hnil] at hlast
        cases hlast
      · intro q hq
        cases hlast.symm.trans hq
        exact .inl rfl
    · exact fun _ => rfl
    · exact h.first
    · exact h.chain
    · exact h.covered
    · exact h.ended

theorem Played.slide (h : st.Played) (hsound : st.Sound) (hslides : st.slideshow = true)
    (hdoc : st.doc = true) (hidle : st.rendering = none) (pending : List (Nat × Nat)) :
    ({ st with pending } : Slides).slide.Played := by
  have hwithin := hsound.within hdoc
  obtain ⟨-, hlast⟩ := h.resting hdoc hidle
  have hquiet : Played { st with pending } := h.reschedule hdoc
  unfold Slides.slide
  split
  · exact hquiet
  · split
    · exact h.reschedule hdoc
    · split
      · rename_i hend
        have hend : st.page = st.pages := by
          dsimp only at hend
          omega
        split
        · refine { hquiet with blank := ?_, ended := ?_ }
          · intro hnone
            exact absurd (hdoc.symm.trans hnone) (by decide)
          · intro _ p hp hle
            rcases Nat.lt_or_ge p st.page with hlt | hge
            · exact h.covered p hp hlt
            · have heq : p = st.page := by
                dsimp only at hle
                omega
              rw [heq]
              exact List.mem_of_getLast? hlast
        · apply hquiet.turn hslides hdoc hidle
          · exact .inr (.inr ⟨hend, rfl⟩)
          · exact Nat.le_add_left 1 _
      · apply hquiet.turn hslides hdoc hidle
        · exact .inr (.inl rfl)
        · exact Nat.le_refl _

@[simp] theorem turn_interval (st : Slides) (page : Nat) :
    (st.turn page).interval = st.interval := by
  simp [turn, scheduleSlide]

theorem slide_interval (st : Slides) : st.slide.interval = st.interval := by
  unfold slide
  split
  · rfl
  · split
    · rfl
    · split
      · split
        · rfl
        · exact turn_interval _ _
      · exact turn_interval _ _

/-- What holds of a slideshow that is left alone. -/
structure Alone (st : Slides) : Prop where
  slides : st.slideshow = true
  sound : st.Sound
  played : st.Played

theorem LeftAlone.hasPages {e : Input} (he : st.LeftAlone e) : HasPages e := by
  cases e with
  | loaded numPages => exact he
  | timeout id => trivial
  | drawn ok => trivial
  | step forward => trivial
  | scroll forward edge => trivial
  | zoom => trivial
  | focus focused => trivial
  | detach => trivial
  | elapse ms => trivial

theorem Alone.step (h : st.Alone) {e : Input} (he : st.LeftAlone e)
    (hstep : st.step e = some st') : st'.Alone := by
  obtain ⟨hslides, hsound, hplayed⟩ := h
  have hsound' := hsound.step he.hasPages hstep
  cases e with
  | loaded numPages =>
      simp only [Slides.step] at hstep
      split at hstep
      · contradiction
      · rename_i hdoc
        cases hstep
        refine ⟨?_, hsound', hplayed.loaded hslides (by simpa using hdoc) numPages⟩
        simpa [Slides.loaded, slideshow, scheduleSlide, apply_ite] using hslides
  | timeout id =>
      obtain ⟨t, ht, -, -, rfl⟩ := timeout_cases hstep
      have hdoc : st.doc = true := by
        by_contra hne
        rw [(hsound.idle (by simpa using hne)).1] at ht
        contradiction
      refine ⟨?_, hsound', hplayed.slide hsound hslides hdoc he _⟩
      simpa [slideshow, slide_interval] using hslides
  | drawn ok =>
      cases he
      simp only [Slides.step] at hstep
      split at hstep
      · contradiction
      · rename_i nums hnums
        cases hstep
        exact ⟨hslides, hsound', hplayed.drawn hnums⟩
  | step forward => contradiction
  | scroll forward edge => contradiction
  | zoom =>
      cases hstep
      refine ⟨?_, hsound', hplayed.zoom hslides⟩
      simpa [slideshow] using hslides
  | focus focused =>
      cases hstep
      exact ⟨hslides, hsound', { hplayed with }⟩
  | detach =>
      cases hstep
      exact ⟨hslides, hsound', { hplayed with }⟩
  | elapse ms =>
      cases hstep
      exact ⟨hslides, hsound', { hplayed with }⟩

/--
The pages come on the canvas in order and none is left out, the canvas and the
page number agree on the current page while nothing is being drawn, and the
end is not reported before the last page has been seen.
-/
theorem plays_every_page {interval : Nat} (hinterval : 0 < interval) (fitWidth onEnd : Bool)
    {es : List Input} (halone : inputs.Along LeftAlone (setup interval fitWidth onEnd) es)
    (hrun : inputs.run (setup interval fitWidth onEnd) es = some st) :
    (st.doc = true → st.rendering = none →
      st.canvas = [st.page] ∧ st.pageno = some st.page) ∧
    (∀ p ∈ st.drawn.head?, p = 1) ∧ st.drawn.IsChain (Follows st.pages) ∧
    (0 < st.ends → ∀ p, 1 ≤ p → p ≤ st.pages → p ∈ st.drawn) := by
  have hs : st.Alone := by
    apply System.run_invariant_along (I := Alone) _ _ halone hrun
    · exact fun _ _ _ hu he hstep => hu.step he hstep
    · refine ⟨decide_eq_true hinterval, sound_setup _ _ _, ?_⟩
      constructor
      all_goals simp [setup]
      intro p hp hlt
      omega
  have h := hs.played
  refine ⟨?_, h.first, h.chain, h.ended⟩
  intro hdoc hidle
  exact ⟨(h.resting hdoc hidle).1, h.pageno hdoc⟩

private def watched : List Input :=
  [.loaded 3, .drawn true, .elapse 2000, .timeout 0, .zoom, .drawn true, .zoom, .elapse 1500,
    .drawn true, .focus true, .elapse 500, .timeout 1, .focus false, .elapse 2000, .timeout 2,
    .drawn true, .elapse 2000, .timeout 3]

theorem plays_every_page_watched :
    ∃ st, inputs.run (setup 1 false true) watched = some st ∧ st.ends = 1 ∧
      st.drawn = [1, 2, 2, 3] ∧
      (st.doc = true → st.rendering = none →
        st.canvas = [st.page] ∧ st.pageno = some st.page) ∧
      (∀ p ∈ st.drawn.head?, p = 1) ∧ st.drawn.IsChain (Follows st.pages) ∧
      (0 < st.ends → ∀ p, 1 ≤ p → p ≤ st.pages → p ∈ st.drawn) := by
  obtain ⟨st, hrun⟩ : ∃ st, inputs.run (setup 1 false true) watched = some st := ⟨_, rfl⟩
  refine ⟨st, hrun, ?_, ?_, plays_every_page (by decide) false true (by decide) hrun⟩
  all_goals
    cases hrun
    rfl

end Slides

end FamilyPlanner.Kiosk
