import FamilyPlanner.Foundation.Run

/-!
# The nightly reload of the kiosk page

`maybeNightlyReload` runs on every `tick()` of the page.  Its guard
`reloadedToday` is a page variable, so it is lost with the page that
`location.reload()` replaces.  A run is a sequence of page loads and ticks on
a non-decreasing local clock, counted in seconds from a local midnight; the
first tick of a page is the synchronous one made while `kiosk.js` loads.
-/

namespace FamilyPlanner.Kiosk

open FamilyPlanner.Foundation

def getHours (now : Nat) : Nat := now / 3600 % 24

/-- The calendar day of a clock reading, counted from the first midnight. -/
def night (now : Nat) : Nat := now / 86400

def reloadHour : Nat := 4

/--
`reloadedToday` is the variable of the open page, `none` before the first
load.  `clock` and `reloads` are history: the latest clock reading and the
readings at which `location.reload()` was called.
-/
structure Browser where
  reloadedToday : Option Bool := none
  clock : Nat := 0
  reloads : List Nat := []
  deriving DecidableEq, Repr

namespace Browser

def maybeNightlyReload (b : Browser) (reloadedToday : Bool) (now : Nat) :
    Browser :=
  if getHours now = reloadHour then
    if !reloadedToday then
      { b with reloadedToday := some true, reloads := b.reloads ++ [now] }
    else { b with reloadedToday := some true }
  else { b with reloadedToday := some false }

end Browser

inductive PageEvent where
  | load (now : Nat)
  | tick (now : Nat)
  deriving DecidableEq, Repr

def PageEvent.now : PageEvent → Nat
  | .load now => now
  | .tick now => now

def Browser.step (b : Browser) (e : PageEvent) : Option Browser :=
  if e.now < b.clock then none
  else
    let b := { b with clock := e.now }
    match e with
    | .load now => some (b.maybeNightlyReload false now)
    | .tick now =>
        match b.reloadedToday with
        | none => none
        | some reloadedToday => some (b.maybeNightlyReload reloadedToday now)

def pages : System Browser PageEvent := ⟨Browser.step⟩

/--
`location.reload()` is called at most once between any two consecutive
moments at which the local hour is not 4.
-/
def Browser.OncePerNight (b : Browser) : Prop :=
  ∀ before after,
    getHours before ≠ reloadHour → getHours after ≠ reloadHour →
    (∀ t, before < t → t < after → getHours t = reloadHour) →
    (b.reloads.filter fun t => before < t ∧ t < after).length ≤ 1

/--
The page comes back late: it is not loaded in the reload hour of a night in
which `location.reload()` has been called already.
-/
def ReturnsLate (b : Browser) : PageEvent → Prop
  | .load now => getHours now = reloadHour → ∀ r ∈ b.reloads, night r ≠ night now
  | .tick _ => True

/-! ## What one step does -/

theorem Browser.step_cases {b b' : Browser} {e : PageEvent}
    (h : b.step e = some b') :
    b.clock ≤ e.now ∧ b'.clock = e.now ∧
    ((getHours e.now ≠ reloadHour ∧ b'.reloadedToday = some false ∧
        b'.reloads = b.reloads) ∨
      (getHours e.now = reloadHour ∧ b'.reloadedToday = some true ∧
        ((b'.reloads = b.reloads ∧ b.reloadedToday = some true ∧
            e = .tick e.now) ∨
          (b'.reloads = b.reloads ++ [e.now] ∧
            (e = .load e.now ∨ b.reloadedToday = some false))))) := by
  unfold Browser.step at h
  split at h
  · contradiction
  · rename_i hclock
    refine ⟨Nat.le_of_not_lt hclock, ?_⟩
    cases e with
    | load now =>
        simp only [Option.some.injEq] at h
        subst h
        by_cases hhour : getHours now = reloadHour <;>
          simp [Browser.maybeNightlyReload, PageEvent.now, hhour]
    | tick now =>
        cases hflag : b.reloadedToday with
        | none => simp [hflag] at h
        | some flag =>
            simp only [hflag, Option.some.injEq] at h
            subst h
            by_cases hhour : getHours now = reloadHour <;> cases flag <;>
              simp [Browser.maybeNightlyReload, PageEvent.now, hhour]

theorem Browser.step_reloads_extend {b b' : Browser} {e : PageEvent}
    (h : b.step e = some b') : b.reloads <+: b'.reloads := by
  obtain ⟨-, -, h⟩ := Browser.step_cases h
  rcases h with ⟨-, -, h⟩ | ⟨-, -, ⟨h, -⟩ | ⟨h, -⟩⟩
  · exact h ▸ List.prefix_refl _
  · exact h ▸ List.prefix_refl _
  · exact h ▸ List.prefix_append _ _

theorem run_reloads_extend {b b' : Browser} {es : List PageEvent}
    (h : pages.run b es = some b') : b.reloads <+: b'.reloads := by
  refine System.run_invariant (I := fun c => b.reloads <+: c.reloads)
    ?_ (List.prefix_refl _) h
  intro c e c' hc hstep
  exact hc.trans (Browser.step_reloads_extend hstep)

/-! ## Nights -/

theorem getHours_between {r c t : Nat} (hr : getHours r = reloadHour)
    (ht : getHours t = reloadHour) (hn : night r = night t)
    (hrc : r ≤ c) (hct : c ≤ t) :
    getHours c = reloadHour := by
  simp only [getHours, night, reloadHour] at *
  omega

def DistinctNights (reloads : List Nat) : Prop :=
  reloads.Pairwise fun r t => night r ≠ night t

theorem night_eq_of_between {before after r t : Nat}
    (hall : ∀ t, before < t → t < after → getHours t = reloadHour)
    (hr : before < r ∧ r < after) (ht : before < t ∧ t < after) :
    night r = night t := by
  have hrh := hall r hr.1 hr.2
  have hth := hall t ht.1 ht.2
  -- the first reading of the next hour would lie between them
  have hnext : ∀ s, before < s → s < after →
      ¬ before < (s / 3600 + 1) * 3600 ∨ ¬ (s / 3600 + 1) * 3600 < after := by
    intro s hs hs'
    by_contra hcon
    push Not at hcon
    have := hall _ hcon.1 hcon.2
    have := hall s hs hs'
    simp only [getHours, reloadHour] at *
    omega
  have h₁ := hnext r hr.1 hr.2
  have h₂ := hnext t ht.1 ht.2
  simp only [getHours, night, reloadHour] at *
  omega

theorem oncePerNight_iff {b : Browser}
    (hhour : ∀ r ∈ b.reloads, getHours r = reloadHour) :
    b.OncePerNight ↔ DistinctNights b.reloads := by
  constructor
  · intro honce
    unfold DistinctNights
    rw [List.pairwise_iff_forall_sublist]
    intro r t hsub hnight
    have hr := hhour r (hsub.subset (by simp))
    have ht := hhour t (hsub.subset (by simp))
    obtain ⟨before, hbefore⟩ : ∃ before, before = night r * 86400 + 14399 := ⟨_, rfl⟩
    have hwindow : ∀ s, getHours s = reloadHour → night s = night r →
        before < s ∧ s < before + 3601 := by
      simp only [getHours, night, reloadHour] at hbefore ⊢
      omega
    have hlen := honce before (before + 3601)
      (by simp only [getHours, reloadHour]; omega)
      (by simp only [getHours, reloadHour]; omega)
      (by intro s hs hs'; simp only [getHours, reloadHour]; omega)
    have hfil := hsub.filter fun s => decide (before < s ∧ s < before + 3601)
    have hpair : [r, t].filter (fun s =>
        decide (before < s ∧ s < before + 3601)) = [r, t] := by
      rw [List.filter_eq_self]
      intro s hs
      rw [decide_eq_true_eq]
      rcases List.mem_pair.mp hs with rfl | rfl
      · exact hwindow _ hr rfl
      · exact hwindow _ ht hnight.symm
    rw [hpair] at hfil
    have htwo : 2 ≤ 1 := Nat.le_trans hfil.length_le hlen
    omega
  · intro hdistinct before after _ _ hall
    have hfil := hdistinct.filter fun t => decide (before < t ∧ t < after)
    match hlist : b.reloads.filter fun t => decide (before < t ∧ t < after) with
    | [] => simp
    | [_] => simp
    | r :: t :: rest =>
        rw [hlist] at hfil
        have hr : r ∈ b.reloads.filter fun t => decide (before < t ∧ t < after) := by
          rw [hlist]
          exact List.mem_cons_self
        have ht : t ∈ b.reloads.filter fun t => decide (before < t ∧ t < after) := by
          rw [hlist]
          exact List.mem_cons_of_mem _ List.mem_cons_self
        have hne := List.rel_of_pairwise_cons hfil (List.mem_cons_self)
        exact absurd (night_eq_of_between hall
          (by simpa using (List.mem_filter.mp hr).2)
          (by simpa using (List.mem_filter.mp ht).2)) hne

/-! ## Runs -/

/--
What every run keeps: reloads are past readings of the reload hour, and a
page whose guard is armed was last seen outside that hour.
-/
structure Browser.Consistent (b : Browser) : Prop where
  past : ∀ r ∈ b.reloads, r ≤ b.clock
  hour : ∀ r ∈ b.reloads, getHours r = reloadHour
  armed : b.reloadedToday = some false → getHours b.clock ≠ reloadHour

theorem Browser.Consistent.initial : ({} : Browser).Consistent := by
  constructor <;> simp

theorem Browser.Consistent.step {b b' : Browser} {e : PageEvent}
    (hb : b.Consistent) (h : b.step e = some b') : b'.Consistent := by
  obtain ⟨hclock, hnow, h⟩ := Browser.step_cases h
  have hpast : ∀ r ∈ b.reloads, r ≤ e.now := fun r hr =>
    Nat.le_trans (hb.past r hr) hclock
  rcases h with ⟨hhour, hflag, hreloads⟩ |
    ⟨hhour, hflag, ⟨hreloads, -⟩ | ⟨hreloads, -⟩⟩
  · constructor
    · simpa [hreloads, hnow] using hpast
    · simpa [hreloads] using hb.hour
    · intro _
      rwa [hnow]
  · constructor
    · simpa [hreloads, hnow] using hpast
    · simpa [hreloads] using hb.hour
    · simp [hflag]
  · constructor
    · intro r hr
      rw [hreloads] at hr
      rcases List.mem_append.mp hr with hr | hr
      · rw [hnow]
        exact hpast r hr
      · simp only [List.mem_singleton] at hr
        exact Nat.le_of_eq (hr.trans hnow.symm)
    · intro r hr
      rw [hreloads] at hr
      rcases List.mem_append.mp hr with hr | hr
      · exact hb.hour r hr
      · simp only [List.mem_singleton] at hr
        rwa [hr]
    · simp [hflag]

theorem Browser.Consistent.step_distinct {b b' : Browser} {e : PageEvent}
    (hb : b.Consistent) (hd : DistinctNights b.reloads)
    (hlate : ReturnsLate b e) (h : b.step e = some b') :
    DistinctNights b'.reloads := by
  obtain ⟨hclock, -, h⟩ := Browser.step_cases h
  rcases h with ⟨-, -, hreloads⟩ | ⟨hhour, -, ⟨hreloads, -⟩ | ⟨hreloads, hwhy⟩⟩
  · rwa [hreloads]
  · rwa [hreloads]
  · rw [hreloads]
    unfold DistinctNights
    rw [List.pairwise_append]
    refine ⟨hd, List.pairwise_singleton _ _, ?_⟩
    intro r hr t ht
    simp only [List.mem_singleton] at ht
    subst ht
    rcases hwhy with hload | harmed
    · rw [hload] at hlate
      exact hlate hhour r hr
    · intro hnight
      exact hb.armed harmed (getHours_between (hb.hour r hr) hhour hnight
        (hb.past r hr) hclock)

theorem returnsLate_of_distinct {b b' : Browser} {e : PageEvent}
    (h : b.step e = some b') (hd : DistinctNights b'.reloads) :
    ReturnsLate b e := by
  cases e with
  | tick now => trivial
  | load now =>
      intro hhour r hr
      obtain ⟨-, -, h⟩ := Browser.step_cases h
      rcases h with ⟨hother, -⟩ | ⟨-, -, ⟨-, -, htick⟩ | ⟨hreloads, -⟩⟩
      · exact absurd hhour hother
      · cases htick
      · rw [hreloads] at hd
        exact (List.pairwise_append.mp hd).2.2 r hr now (by simp [PageEvent.now])

theorem distinct_iff_returnsLate {b b' : Browser} {es : List PageEvent}
    (hb : b.Consistent) (hd : DistinctNights b.reloads)
    (hrun : pages.run b es = some b') :
    DistinctNights b'.reloads ↔ pages.Along ReturnsLate b es := by
  constructor
  · intro hd'
    induction es generalizing b with
    | nil => trivial
    | cons e es ih =>
        obtain ⟨m, hstep, hrest⟩ := System.run_cons_eq_some.mp hrun
        have hm : DistinctNights m.reloads :=
          hd'.sublist (run_reloads_extend hrest).sublist
        refine ⟨returnsLate_of_distinct hstep hm, ?_⟩
        intro m' hstep'
        rw [hstep] at hstep'
        cases hstep'
        exact ih (hb.step hstep) hm hrest
  · intro hlate
    have hinv := System.run_invariant_along
      (I := fun c : Browser => c.Consistent ∧ DistinctNights c.reloads)
      (fun c e c' hc hl hstep =>
        ⟨hc.1.step hstep, hc.1.step_distinct hc.2 hl hstep⟩)
      ⟨hb, hd⟩ hlate hrun
    exact hinv.2

/--
In every run from an empty browser the page is reloaded at most once a night
exactly when it never comes back within the hour of a night whose reload has
been made.
-/
theorem oncePerNight_iff_returnsLate {b : Browser} {es : List PageEvent}
    (hrun : pages.run {} es = some b) :
    b.OncePerNight ↔ pages.Along ReturnsLate {} es := by
  have hb : b.Consistent :=
    System.run_invariant (fun _ _ _ hc hstep => hc.step hstep)
      Browser.Consistent.initial hrun
  rw [oncePerNight_iff hb.hour]
  exact distinct_iff_returnsLate Browser.Consistent.initial
    List.Pairwise.nil hrun

theorem oncePerNight_iff_returnsLate_reboot :
    ({ reloadedToday := some false, clock := 18000, reloads := [14400] } :
        Browser).OncePerNight ↔
      pages.Along ReturnsLate {} [.load 10, .tick 14400, .load 18000] :=
  oncePerNight_iff_returnsLate (by decide)

/-- A page that is back one second after its reload reloads again. -/
theorem reloads_twice_in_one_night :
    ∃ b, pages.run {} [.load 10, .tick 14400, .load 14401] = some b ∧
      ¬ b.OncePerNight := by
  refine ⟨⟨some true, 14401, [14400, 14401]⟩, by decide, ?_⟩
  intro honce
  have := honce 14399 18000 (by decide) (by decide)
    (by intro t h h'; simp only [getHours, reloadHour]; omega)
  revert this
  decide

end FamilyPlanner.Kiosk
