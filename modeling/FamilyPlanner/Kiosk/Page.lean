import FamilyPlanner.Foundation.Run
import FamilyPlanner.Foundation.Requests

/-!
# The stage of the kiosk page

The part of `kiosk.js` that decides what `#stage` shows: the handlers of the
stream, `loadView` with its asynchronous fetch, and the fallback timer of
advance-on-end views.  A run of the page is a list of inputs; a fetch is
answered by a later `answer`, in any order, with the fragment or with a
failure.  Times are milliseconds.
-/

namespace FamilyPlanner.Kiosk

open FamilyPlanner.Foundation

/--
What the runtime reads off a rendered fragment: `data-advance-on-end`, the
number of `.w-yt` elements, and the `data-pdf-interval` of its `.w-pdf`
elements in document order.
-/
structure Content where
  advanceOnEnd : Bool
  videos : Nat
  pdfs : List Int
  deriving DecidableEq, Repr

namespace Content

def hasVideo (c : Content) : Bool := 0 < c.videos

def hasSlideshowPdf (c : Content) : Bool :=
  match c.pdfs with
  | [] => false
  | interval :: _ => 0 < interval

def midPlay (c : Content) : Bool := c.hasVideo || c.hasSlideshowPdf

def players (c : Content) : Nat :=
  c.videos + (c.pdfs.filter (0 < ·)).length

end Content

/--
`view` is the view whose fragment `#stage` holds and `playing` the number of
its players that have not reported their end.  `loads` is history: how often
the stage was assigned a fragment.
-/
structure Stage where
  view : Option Int
  content : Content
  playing : Nat
  loads : Nat := 0
  deriving DecidableEq, Repr

/-- `fallbacks` is history: how often the fallback timer has fired. -/
structure Page where
  currentViewID : Option Int
  overrideViewID : Option Int := none
  lastDwellSecs : Int := 30
  focused : Bool := false
  stage : Stage
  fetches : Requests Int := .empty
  endFallback : Option Nat := none
  now : Nat := 0
  fallbacks : Nat := 0

/-- `ended` is a video's ENDED event or a slideshow's last page, `fallback`
the timer of `scheduleEndFallback`; both call `fpCtl("next")`. -/
inductive Input where
  | navigate (viewID : Int)
  | dwell (secs : Int)
  | refresh
  | transient (viewID : Int)
  | focus (on : Bool)
  | answer (id : Nat) (result : Option Content)
  | elapse (ms : Nat)
  | ended
  | fallback
  deriving DecidableEq, Repr

namespace Page

def asked (p : Page) : Option Int := p.overrideViewID <|> p.currentViewID

/-- `loadView` up to its first `await`. -/
def loadView (p : Page) : Option Int → Page
  | none => p
  | some id => { p with fetches := p.fetches.start id }

def fallbackSecs (p : Page) : Nat :=
  if 0 < p.lastDwellSecs then p.lastDwellSecs.toNat else 30

def scheduleEndFallback (p : Page) : Page :=
  { p with
    endFallback :=
      if p.stage.content.advanceOnEnd && !p.stage.content.hasVideo &&
          !p.stage.content.hasSlideshowPdf then
        some (p.now + 1000 * p.fallbackSecs)
      else none }

/-- `loadView` from a successful answer on. -/
def swap (p : Page) (view : Int) (c : Content) : Page :=
  { p with
    stage := ⟨some view, c, c.players, p.stage.loads + 1⟩
    focused := false }.scheduleEndFallback

def opened (view : Option Int) (c : Content) : Page :=
  { currentViewID := view
    stage := ⟨view, c, c.players, 0⟩ : Page }.scheduleEndFallback

def Reloads (p : Page) (v : Int) : Prop :=
  p.currentViewID ≠ some v ∨
    (p.overrideViewID = none ∧ p.stage.content.midPlay = false)

instance (p : Page) (v : Int) : Decidable (p.Reloads v) :=
  inferInstanceAs (Decidable (_ ∨ _))

def navigate (p : Page) (v : Int) : Page :=
  if p.currentViewID ≠ some v then
    { p with currentViewID := some v, overrideViewID := none }.loadView (some v)
  else
    match p.overrideViewID with
    | some _ => p
    | none =>
        if !p.stage.content.hasSlideshowPdf && !p.stage.content.hasVideo then
          p.loadView (some v)
        else p

def refresh (p : Page) : Page :=
  if !p.focused && !p.stage.content.hasVideo &&
      !p.stage.content.hasSlideshowPdf then
    p.loadView p.asked
  else p

def loadTransient (p : Page) (v : Int) : Page :=
  { p with overrideViewID := some v }.loadView (some v)

def step (p : Page) : Input → Option Page
  | .navigate v => some (p.navigate v)
  | .dwell secs => some { p with lastDwellSecs := secs }
  | .refresh => some p.refresh
  | .transient v => some (p.loadTransient v)
  | .focus on => some { p with focused := on }
  | .answer id none =>
      (p.fetches.finish id false).map fun (_, fetches) =>
        { p with fetches := fetches }
  | .answer id (some c) =>
      (p.fetches.finish id true).map fun (v, fetches) =>
        { p with fetches := fetches }.swap v c
  | .elapse ms => some { p with now := p.now + ms }
  | .ended =>
      if p.stage.content.advanceOnEnd && 0 < p.stage.playing then
        some { p with stage := { p.stage with playing := p.stage.playing - 1 } }
      else none
  | .fallback =>
      match p.endFallback with
      | none => none
      | some deadline =>
          if deadline ≤ p.now then
            some { p with endFallback := none, fallbacks := p.fallbacks + 1 }
          else none

end Page

def page : System Page Input := ⟨Page.step⟩

/-! ## What a step can do -/

namespace Page

@[simp] theorem loadView_some (p : Page) (v : Int) :
    p.loadView (some v) = { p with fetches := p.fetches.start v } := rfl

theorem navigate_cases (p : Page) (v : Int) :
    (p.Reloads v ∧ p.navigate v =
      { p with
        currentViewID := some v
        overrideViewID := none
        fetches := p.fetches.start v }) ∨
    (¬ p.Reloads v ∧ p.navigate v = p) := by
  by_cases hid : p.currentViewID = some v
  · cases hover : p.overrideViewID with
    | some w => right; simp [navigate, Reloads, hid, hover]
    | none =>
        cases hmid : p.stage.content.midPlay with
        | false =>
            left
            simp only [Content.midPlay, Bool.or_eq_false_iff] at hmid
            rw [← hid]
            simp [navigate, Reloads, Content.midPlay, hid, hover, hmid]
        | true =>
            right
            have hno : (!p.stage.content.hasSlideshowPdf &&
                !p.stage.content.hasVideo) = false := by
              revert hmid
              simp only [Content.midPlay]
              cases p.stage.content.hasVideo <;>
                cases p.stage.content.hasSlideshowPdf <;> simp
            simp [navigate, Reloads, hid, hover, hmid, hno]
  · left
    simp [navigate, Reloads, hid]

theorem refresh_cases (p : Page) :
    p.refresh = p ∨
      ∃ v, p.asked = some v ∧ p.refresh = { p with fetches := p.fetches.start v } := by
  unfold refresh
  split
  · cases hasked : p.asked with
    | none => exact .inl rfl
    | some v => exact .inr ⟨v, rfl, rfl⟩
  · exact .inl rfl

@[simp] theorem navigate_stage (p : Page) (v : Int) :
    (p.navigate v).stage = p.stage := by
  rcases p.navigate_cases v with ⟨-, heq⟩ | ⟨-, heq⟩ <;> rw [heq]

@[simp] theorem refresh_stage (p : Page) : p.refresh.stage = p.stage := by
  rcases p.refresh_cases with heq | ⟨v, -, heq⟩ <;> rw [heq]

theorem answer_cases {p p' : Page} {id : Nat} {result : Option Content}
    (h : p.step (.answer id result) = some p') :
    ∃ v fetches, p.fetches.finish id result.isSome = some (v, fetches) ∧
      ((result = none ∧ p' = { p with fetches := fetches }) ∨
        ∃ c, result = some c ∧ p' = { p with fetches := fetches }.swap v c) := by
  cases result with
  | none =>
      simp only [step, Option.map_eq_some_iff] at h
      obtain ⟨⟨v, fetches⟩, hfin, rfl⟩ := h
      exact ⟨v, fetches, hfin, .inl ⟨rfl, rfl⟩⟩
  | some c =>
      simp only [step, Option.map_eq_some_iff] at h
      obtain ⟨⟨v, fetches⟩, hfin, rfl⟩ := h
      exact ⟨v, fetches, hfin, .inr ⟨c, rfl, rfl⟩⟩

theorem ended_cases {p p' : Page} (h : p.step .ended = some p') :
    p.stage.content.advanceOnEnd = true ∧ 0 < p.stage.playing ∧
      p' = { p with
        stage := { p.stage with playing := p.stage.playing - 1 } } := by
  simp only [step] at h
  split at h
  · rename_i hplaying
    simp only [Bool.and_eq_true, decide_eq_true_eq] at hplaying
    exact ⟨hplaying.1, hplaying.2, by cases h; rfl⟩
  · contradiction

theorem fallback_cases {p p' : Page} (h : p.step .fallback = some p') :
    ∃ deadline, p.endFallback = some deadline ∧ deadline ≤ p.now ∧
      p' = { p with endFallback := none, fallbacks := p.fallbacks + 1 } := by
  simp only [step] at h
  split at h
  · contradiction
  · rename_i deadline harmed
    split at h
    · exact ⟨deadline, harmed, ‹_›, by cases h; rfl⟩
    · contradiction

theorem step_loads {p p' : Page} {e : Input} (h : p.step e = some p') :
    p.stage.loads ≤ p'.stage.loads := by
  cases e with
  | navigate v =>
      cases h
      exact Nat.le_of_eq (by rw [navigate_stage])
  | refresh =>
      cases h
      exact Nat.le_of_eq (by rw [refresh_stage])
  | answer id result =>
      obtain ⟨v, fetches, -, ⟨-, rfl⟩ | ⟨c, -, rfl⟩⟩ := answer_cases h
      · exact Nat.le_refl _
      · exact Nat.le_succ _
  | ended =>
      obtain ⟨-, -, rfl⟩ := ended_cases h
      exact Nat.le_refl _
  | fallback =>
      obtain ⟨_, -, -, rfl⟩ := fallback_cases h
      exact Nat.le_refl _
  | _ =>
      cases h
      exact Nat.le_refl _

/-! ## The stage shows what was last asked for -/

def ShowsAsked (p : Page) : Prop :=
  p.fetches.pending = [] → ∀ v, p.fetches.newest = some (v, some true) →
    p.stage.view = p.asked

/-- A successful answer does not come after the newest fetch has succeeded,
unless it is for the same view. -/
def AnswersInOrder (p : Page) : Input → Prop
  | .answer id (some _) => ∀ v, (id, v) ∈ p.fetches.pending →
      p.fetches.InOrder id v
  | _ => True

instance (p : Page) (e : Input) : Decidable (p.AnswersInOrder e) :=
  match e with
  | .answer id (some _) =>
      decidable_of_iff (∀ f ∈ p.fetches.pending, f.1 = id →
          p.fetches.InOrder id f.2)
        ⟨fun h v hv => h (id, v) hv rfl,
          fun h f hf hid => h f.2 (by rw [← hid]; exact hf)⟩
  | .answer _ none | .navigate _ | .dwell _ | .refresh | .transient _
  | .focus _ | .elapse _ | .ended | .fallback => .isTrue trivial

/-- The newest fetch is for the view the page is to show, and the stage is no
older than it. -/
structure Current (p : Page) : Prop where
  asks : ∀ v, p.fetches.newest.map Prod.fst = some v → p.asked = some v
  fresh : p.fetches.Fresh p.stage.view

theorem current_opened (view : Option Int) (c : Content) :
    (opened view c).Current where
  asks := by
    intro v hv
    cases hv
  fresh := Requests.fresh_empty _

theorem Current.started {p q : Page} {v : Int} (hasked : q.asked = some v)
    (hfetches : q.fetches = p.fetches.start v) : q.Current where
  asks := by
    intro w hw
    rw [hfetches] at hw
    cases hw
    exact hasked
  fresh := by
    rw [hfetches]
    exact Requests.fresh_start _ _ _

theorem Current.frame {p q : Page} (hp : p.Current) (hasked : q.asked = p.asked)
    (hfetches : q.fetches = p.fetches) (hview : q.stage.view = p.stage.view) :
    q.Current where
  asks := by rw [hasked, hfetches]; exact hp.asks
  fresh := by rw [hfetches, hview]; exact hp.fresh

theorem Current.step {p p' : Page} {e : Input} (hp : p.Current)
    (horder : p.AnswersInOrder e) (h : p.step e = some p') : p'.Current := by
  cases e with
  | navigate v =>
      cases h
      rcases p.navigate_cases v with ⟨-, heq⟩ | ⟨-, heq⟩
      · rw [heq]
        exact Current.started (p := p) (v := v) rfl rfl
      · rw [heq]
        exact hp
  | dwell secs =>
      cases h
      exact hp.frame rfl rfl rfl
  | refresh =>
      cases h
      rcases p.refresh_cases with heq | ⟨v, hasked, heq⟩
      · rw [heq]
        exact hp
      · rw [heq]
        exact Current.started (p := p) (v := v) hasked rfl
  | transient v =>
      cases h
      exact Current.started (p := p) (v := v) rfl rfl
  | focus on =>
      cases h
      exact hp.frame rfl rfl rfl
  | answer id result =>
      obtain ⟨v, fetches, hfin, ⟨rfl, rfl⟩ | ⟨c, rfl, rfl⟩⟩ := answer_cases h
      · refine ⟨?_, hp.fresh.finish_failed hfin⟩
        intro w hw
        rw [Requests.finish_newest_asked hfin] at hw
        exact hp.asks w hw
      · refine ⟨?_, Requests.fresh_finish_ok hfin
          (horder v (Requests.finish_eq_some hfin).1)⟩
        intro w hw
        have hsame := Requests.finish_newest_asked hfin
        exact hp.asks w (hsame.symm.trans hw)
  | elapse ms =>
      cases h
      exact hp.frame rfl rfl rfl
  | ended =>
      obtain ⟨-, -, rfl⟩ := ended_cases h
      exact hp.frame rfl rfl rfl
  | fallback =>
      obtain ⟨_, -, -, rfl⟩ := fallback_cases h
      exact hp.frame rfl rfl rfl

theorem Current.showsAsked {p : Page} (hp : p.Current) : p.ShowsAsked := by
  intro _ v hv
  rw [hp.fresh v hv]
  exact (hp.asks v (by rw [hv]; rfl)).symm

/--
In every run in which no successful answer follows a newer one, the stage
holds the fragment that was asked for last.
-/
theorem showsAsked_of_answersInOrder {view : Option Int} {c : Content}
    {p : Page} {es : List Input} (hrun : page.run (opened view c) es = some p)
    (horder : page.Along AnswersInOrder (opened view c) es) : p.ShowsAsked :=
  Current.showsAsked (System.run_invariant_along
    (fun _ _ _ hp ho hstep => hp.step ho hstep) (current_opened view c)
    horder hrun)

private def plain : Content := ⟨false, 0, []⟩

private def overlap (first second : Nat) : List Input :=
  [.refresh, .navigate 2, .answer first (some plain), .answer second (some plain)]

theorem showsAsked_of_answersInOrder_overlap :
    ∃ p, page.run (opened (some 1) plain) (overlap 0 1) = some p ∧
      p.ShowsAsked := by
  have hrun : page.run (opened (some 1) plain) (overlap 0 1) = some _ := rfl
  exact ⟨_, hrun, showsAsked_of_answersInOrder hrun (by decide)⟩

theorem slow_refresh_shows_old_view :
    ∃ p, page.run (opened (some 1) plain) (overlap 1 0) = some p ∧
      ¬ p.ShowsAsked :=
  ⟨_, rfl, fun h => absurd (h rfl 2 rfl) (by decide)⟩

end Page

end FamilyPlanner.Kiosk
