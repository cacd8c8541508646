import FamilyPlanner.Kiosk.Page

/-!
# The fallback timer of advance-on-end views

On an advance-on-end view whose fragment has nothing that reports an end the
page itself advances after the dwell.  Every fragment put on stage arms that
timer anew, the fragments of the periodic refresh included.
-/

namespace FamilyPlanner.Kiosk

open FamilyPlanner.Foundation

def Content.FallsBack (c : Content) : Prop :=
  c.advanceOnEnd = true ∧ c.hasVideo = false ∧ c.hasSlideshowPdf = false

instance (c : Content) : Decidable c.FallsBack :=
  inferInstanceAs (Decidable (_ ∧ _))

namespace Page

/-- The inputs of a page while the view `v` with dwell `d` stays current and
is not paused; its fragments have nothing that reports an end. -/
def OnView (v : Int) (d : Nat) (p : Page) : Input → Prop
  | .navigate w => w = v
  | .dwell secs => secs = d ∧ 0 < d
  | .transient _ => False
  | .answer id (some c) => (∀ w, (id, w) ∈ p.fetches.pending → w = v) ∧ c.FallsBack
  | _ => True

/-- A fragment without an end of its own has just been put on stage: rendered
inline into the page, or fetched. -/
def JustShown (p : Page) : Prop :=
  (∃ (view : Option Int) (c : Content), c.FallsBack ∧ p = opened view c) ∨
    ∃ (p₀ : Page) (id : Nat) (c : Content),
      c.FallsBack ∧ p₀.step (.answer id (some c)) = some p

/-- The timer is armed no later than `d` seconds after `t₀`, or it has fired
since its count stood at `n₀`. -/
structure Timely (t₀ d n₀ : Nat) (p : Page) : Prop where
  since : n₀ ≤ p.fallbacks
  due : ∀ deadline, p.endFallback = some deadline → deadline ≤ t₀ + 1000 * d
  armed : p.endFallback = none → n₀ < p.fallbacks

/-- A fragment arrives while the dwell the page was told last still fits
between now and the end of the `d` seconds from `t₀`. -/
def ArrivesInTime (t₀ d : Nat) (p : Page) : Input → Prop
  | .answer _ (some _) => p.now + 1000 * p.fallbackSecs ≤ t₀ + 1000 * d
  | _ => True

instance (t₀ d : Nat) (p : Page) (e : Input) :
    Decidable (p.ArrivesInTime t₀ d e) :=
  match e with
  | .answer _ (some _) => inferInstanceAs (Decidable (_ ≤ _))
  | .answer _ none | .navigate _ | .dwell _ | .refresh | .transient _
  | .focus _ | .elapse _ | .ended | .fallback => .isTrue trivial

theorem scheduleEndFallback_fallsBack {p : Page}
    (hc : p.stage.content.FallsBack) :
    p.scheduleEndFallback.endFallback = some (p.now + 1000 * p.fallbackSecs) := by
  obtain ⟨hend, hvideo, hpdf⟩ := hc
  simp [scheduleEndFallback, hend, hvideo, hpdf]

theorem answer_endFallback {id : Nat} {c : Content} {p p' : Page}
    (hc : c.FallsBack) (h : p.step (.answer id (some c)) = some p') :
    p'.now = p.now ∧ p'.fallbackSecs = p.fallbackSecs ∧
      p'.fallbacks = p.fallbacks ∧
      p'.endFallback = some (p.now + 1000 * p.fallbackSecs) := by
  obtain ⟨v, fetches, -, ⟨hnone, -⟩ | ⟨c', hc', rfl⟩⟩ := answer_cases h
  · cases hnone
  · cases hc'
    exact ⟨rfl, rfl, rfl, scheduleEndFallback_fallsBack hc⟩

theorem JustShown.endFallback {p : Page} (h : p.JustShown) :
    p.endFallback = some (p.now + 1000 * p.fallbackSecs) := by
  rcases h with ⟨view, c, hc, rfl⟩ | ⟨p₀, id, c, hc, hstep⟩
  · exact scheduleEndFallback_fallsBack hc
  · obtain ⟨hnow, hsecs, -, harmed⟩ := answer_endFallback hc hstep
    rw [hnow, hsecs, harmed]

theorem timely_iff_of_armed {t₀ d n₀ deadline : Nat} {p : Page}
    (hn : n₀ ≤ p.fallbacks) (harmed : p.endFallback = some deadline) :
    p.Timely t₀ d n₀ ↔ deadline ≤ t₀ + 1000 * d := by
  constructor
  · intro htimely
    exact htimely.due deadline harmed
  · intro hdue
    refine ⟨hn, ?_, by simp [harmed]⟩
    intro t ht
    rw [harmed, Option.some.injEq] at ht
    exact ht ▸ hdue

theorem Timely.frame {t₀ d n₀ : Nat} {p q : Page} (hp : p.Timely t₀ d n₀)
    (harmed : q.endFallback = p.endFallback) (hfired : q.fallbacks = p.fallbacks) :
    q.Timely t₀ d n₀ where
  since := hfired ▸ hp.since
  due := harmed ▸ hp.due
  armed := by rw [harmed, hfired]; exact hp.armed

theorem Timely.fired {t₀ d n₀ : Nat} {p : Page} (hp : p.Timely t₀ d n₀) :
    ({ p with endFallback := none, fallbacks := p.fallbacks + 1 } : Page).Timely
      t₀ d n₀ where
  since := Nat.le_succ_of_le hp.since
  due := by simp
  armed := fun _ => Nat.lt_succ_of_le hp.since

theorem Timely.step_iff {t₀ d n₀ : Nat} {v : Int} {p p' : Page} {e : Input}
    (hp : p.Timely t₀ d n₀) (hview : p.OnView v d e) (h : p.step e = some p') :
    p'.Timely t₀ d n₀ ↔ p.ArrivesInTime t₀ d e := by
  cases e with
  | answer id result =>
      cases result with
      | some c =>
          obtain ⟨-, -, hfired, harmed⟩ := answer_endFallback hview.2 h
          exact timely_iff_of_armed (hfired ▸ hp.since) harmed
      | none =>
          obtain ⟨w, fetches, -, ⟨-, rfl⟩ | ⟨c, hc, -⟩⟩ := answer_cases h
          · exact iff_of_true (hp.frame rfl rfl) trivial
          · cases hc
  | navigate w =>
      cases h
      refine iff_of_true ?_ trivial
      rcases p.navigate_cases w with ⟨-, heq⟩ | ⟨-, heq⟩ <;> rw [heq]
      · exact hp.frame rfl rfl
      · exact hp
  | dwell secs =>
      cases h
      exact iff_of_true (hp.frame rfl rfl) trivial
  | refresh =>
      cases h
      refine iff_of_true ?_ trivial
      rcases p.refresh_cases with heq | ⟨w, -, heq⟩ <;> rw [heq]
      · exact hp
      · exact hp.frame rfl rfl
  | transient w => exact hview.elim
  | focus on =>
      cases h
      exact iff_of_true (hp.frame rfl rfl) trivial
  | elapse ms =>
      cases h
      exact iff_of_true (hp.frame rfl rfl) trivial
  | ended =>
      obtain ⟨-, -, rfl⟩ := ended_cases h
      exact iff_of_true (hp.frame rfl rfl) trivial
  | fallback =>
      obtain ⟨_, -, -, rfl⟩ := fallback_cases h
      exact iff_of_true hp.fired trivial

/--
A view with dwell `d` has just been shown and stays current.  Its fallback
stays within `d` seconds of that moment exactly when the dwell the page had
been told by then is at most `d` and every later fragment arrives in time.
-/
theorem timely_iff_arrivesInTime {d : Nat} {v : Int} {p q : Page}
    {es : List Input} (hshown : p.JustShown)
    (hview : page.Along (OnView v d) p es) (hrun : page.run p es = some q) :
    page.Always (Timely p.now d p.fallbacks) p es ↔
      p.fallbackSecs ≤ d ∧ page.Along (ArrivesInTime p.now d) p es := by
  have hstart : p.Timely p.now d p.fallbacks ↔ p.fallbackSecs ≤ d := by
    rw [timely_iff_of_armed (Nat.le_refl _) hshown.endFallback]
    omega
  have hiff : p.Timely p.now d p.fallbacks →
      (page.Always (Timely p.now d p.fallbacks) p es ↔
        page.Along (ArrivesInTime p.now d) p es) := fun htimely =>
    System.always_iff_along (fun _ _ _ hp hd hs => hp.step_iff hd hs)
      htimely hview hrun
  constructor
  · intro halways
    exact ⟨hstart.mp halways.start, (hiff halways.start).mp halways⟩
  · rintro ⟨hsecs, halong⟩
    exact (hiff (hstart.mpr hsecs)).mpr halong

private def agenda : Content := ⟨true, 0, []⟩

private def told (d : Int) : Page :=
  { (opened (some 1) ⟨false, 0, []⟩).navigate 2 with lastDwellSecs := d }

theorem timely_of_short_dwell :
    ∃ p q, (told 20).step (.answer 0 (some agenda)) = some p ∧
      page.run p [.elapse 20000, .fallback, .elapse 10000, .refresh] = some q ∧
      page.Always (Timely p.now 20 p.fallbacks) p
        [.elapse 20000, .fallback, .elapse 10000, .refresh] := by
  refine ⟨_, _, rfl, rfl, ?_⟩
  refine (timely_iff_arrivesInTime (v := 2) ?_ ?_ rfl).mpr ⟨by decide, by decide⟩
  · exact Or.inr ⟨told 20, 0, agenda, by decide, rfl⟩
  · exact ⟨trivial, fun _ _ => ⟨trivial, fun _ _ =>
      ⟨trivial, fun _ _ => ⟨trivial, fun _ _ => trivial⟩⟩⟩⟩

/-- With a dwell of 60 seconds the refresh after 30 defers the fallback. -/
theorem refresh_defers_the_fallback :
    ∃ p q, (told 60).step (.answer 0 (some agenda)) = some p ∧
      page.run p [.elapse 30000, .refresh, .answer 1 (some agenda)] = some q ∧
      ¬ q.Timely p.now 60 p.fallbacks := by
  refine ⟨_, _, rfl, rfl, ?_⟩
  intro htimely
  exact absurd (htimely.due 90000 rfl) (by decide)

end Page

end FamilyPlanner.Kiosk
