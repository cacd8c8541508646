import FamilyPlanner.Server.Edits
import FamilyPlanner.Session.Session

/-!
# After the end of the content

A fragment whose players have ended plays nothing any more, and the server has
suspended its timer: only the `navigate` that answers the end report can bring
life back to the stage, by making the page fetch a fragment.
-/

namespace FamilyPlanner

open FamilyPlanner.Foundation FamilyPlanner.Rotation FamilyPlanner.Server
open FamilyPlanner.Kiosk

namespace Session

/-- Once an answer to an end report has been handled and no fetch is in flight,
the stage holds a later fragment than the one that ended. -/
def Replayed (s : Session) : Prop :=
  s.page.fetches.pending = [] → ∀ load ∈ s.answered, load < s.page.stage.loads

/--
A `navigate` that answers the end of the fragment on stage makes the page
fetch, and no fetch fails while that fragment is still there.
-/
def Replays (s : Session) : Act → Prop
  | .deliver => ∀ v stamp wire, s.device.wire = (.navigate v, stamp) :: wire →
      ∀ p ∈ s.applied, p.1 = s.page.stage.loads → p.2 ≤ stamp → s.page.Reloads v
  | .input (.answer _ none) => s.page.stage.loads ∉ s.answered
  | _ => True

instance (s : Session) (a : Act) : Decidable (s.Replays a) :=
  match a with
  | .deliver =>
      match hwire : s.device.wire with
      | (.navigate v, stamp) :: _ =>
          decidable_of_iff (∀ p ∈ s.applied, p.1 = s.page.stage.loads →
            p.2 ≤ stamp → s.page.Reloads v) (by simp [Replays, hwire])
      | [] | (.dwell _, _) :: _ | (.refresh _, _) :: _ | (.config, _) :: _
      | (.names, _) :: _ | (.pip, _) :: _ | (.version, _) :: _
      | (.cmd _, _) :: _ | (.chime, _) :: _ => .isTrue (by simp [Replays, hwire])
  | .input (.answer _ none) => inferInstanceAs (Decidable (_ ∉ _))
  | .input (.answer _ (some _)) | .input (.navigate _) | .input (.dwell _)
  | .input .refresh | .input (.transient _) | .input (.focus _)
  | .input (.elapse _) | .input .ended | .input .fallback
  | .wake _ | .loop | .press _ | .call _ => .isTrue trivial

/-- Reports are about fragments that have been on stage, and an answered one
that is still there is about to be replaced. -/
structure Progress (s : Session) : Prop where
  reports : ∀ c ∈ s.calls, ∀ r, c.report = some r → r.load ≤ s.page.stage.loads
  applied : ∀ p ∈ s.applied, p.1 ≤ s.page.stage.loads
  answered : ∀ load ∈ s.answered, load < s.page.stage.loads ∨
    (load = s.page.stage.loads ∧ s.page.fetches.pending ≠ [])

variable {suspends : Int → Bool} {s s' : Session}

theorem Progress.replayed (hs : s.Progress) : s.Replayed := by
  intro hidle load hload
  rcases hs.answered load hload with hlt | ⟨-, hbusy⟩
  · exact hlt
  · exact absurd hidle hbusy

theorem Progress.page {page : Page} (hs : s.Progress)
    (hloads : page.stage.loads = s.page.stage.loads)
    (hfetches : s.page.fetches.pending ≠ [] → page.fetches.pending ≠ []) :
    ({ s with page := page } : Session).Progress where
  reports := by
    show ∀ c ∈ s.calls, ∀ r, c.report = some r → r.load ≤ page.stage.loads
    rw [hloads]
    exact hs.reports
  applied := by
    show ∀ p ∈ s.applied, p.1 ≤ page.stage.loads
    rw [hloads]
    exact hs.applied
  answered := by
    intro load hload
    rcases hs.answered load hload with hlt | ⟨heq, hbusy⟩
    · exact .inl (hloads ▸ hlt)
    · exact .inr ⟨heq.trans hloads.symm, hfetches hbusy⟩

theorem start_pending (r : Requests Int) (v : Int) : (r.start v).pending ≠ [] := by
  simp [Requests.start]

theorem refresh_pending (p : Page) (h : p.fetches.pending ≠ []) :
    p.refresh.fetches.pending ≠ [] := by
  rcases p.refresh_cases with heq | ⟨v, -, heq⟩ <;> rw [heq]
  · exact h
  · exact start_pending _ v

theorem Progress.deliver {e : Event} {stamp : Nat} {wire : List (Event × Nat)}
    (hs : s.Progress) (hwire : s.device.wire = (e, stamp) :: wire)
    (hreplays : s.Replays .deliver) :
    ({ s with device := { s.device with wire := wire } }.handle stamp e).Progress := by
  have hbase : ({ s with device := { s.device with wire := wire } } :
      Session).Progress := ⟨hs.reports, hs.applied, hs.answered⟩
  cases e with
  | navigate v =>
      have hloads : (s.page.navigate v).stage.loads = s.page.stage.loads := by
        rw [Page.navigate_stage]
      have hkeep : s.page.fetches.pending ≠ [] →
          (s.page.navigate v).fetches.pending ≠ [] := by
        intro hbusy
        rcases s.page.navigate_cases v with ⟨-, heq⟩ | ⟨-, heq⟩ <;> rw [heq]
        · exact start_pending _ v
        · exact hbusy
      have hpage := hbase.page hloads hkeep
      refine ⟨hpage.reports, hpage.applied, ?_⟩
      intro load hload
      rcases List.mem_append.mp hload with hload | hload
      · exact hpage.answered load hload
      · -- this `navigate` answers the report
        obtain ⟨p, hp, rfl⟩ := List.mem_map.mp hload
        obtain ⟨hmem, hstamp⟩ := List.mem_filter.mp hp
        rcases Nat.lt_or_eq_of_le (hs.applied p hmem) with hlt | heq
        · exact .inl (hloads ▸ hlt)
        · refine .inr ⟨heq.trans hloads.symm, ?_⟩
          have hreloads := hreplays v stamp wire hwire p hmem heq (by simpa using hstamp)
          rcases s.page.navigate_cases v with ⟨-, hnav⟩ | ⟨hno, -⟩
          · show (s.page.navigate v).fetches.pending ≠ []
            rw [hnav]
            exact start_pending _ v
          · exact absurd hreloads hno
  | dwell secs => exact hbase.page rfl id
  | refresh data =>
      have hloads : s.page.refresh.stage.loads = s.page.stage.loads := by
        rw [Page.refresh_stage]
      exact hbase.page hloads (refresh_pending s.page)
  | _ => exact hbase

theorem Progress.input {e : Input} {page : Page} (hs : s.Progress)
    (hreplays : s.Replays (.input e)) (hlocal : isLocal e = true)
    (hpage : s.page.step e = some page) :
    ({ s with page := page } : Session).Progress := by
  cases e with
  | navigate v => cases hlocal
  | dwell secs => cases hlocal
  | refresh => cases hlocal
  | transient v =>
      cases hpage
      exact hs.page rfl fun _ => start_pending _ v
  | focus on =>
      cases hpage
      exact hs.page rfl id
  | elapse ms =>
      cases hpage
      exact hs.page rfl id
  | ended =>
      obtain ⟨-, -, rfl⟩ := Page.ended_cases hpage
      exact hs.page rfl id
  | fallback =>
      obtain ⟨_, -, -, rfl⟩ := Page.fallback_cases hpage
      exact hs.page rfl id
  | answer id result =>
      obtain ⟨v, fetches, -, ⟨rfl, rfl⟩ | ⟨c, rfl, rfl⟩⟩ := Page.answer_cases hpage
      · refine ⟨hs.reports, hs.applied, ?_⟩
        intro load hload
        rcases hs.answered load hload with hlt | ⟨rfl, -⟩
        · exact .inl hlt
        · exact absurd hload hreplays
      · have hle : ∀ load, load ≤ s.page.stage.loads →
            load < s.page.stage.loads + 1 := fun load => Nat.lt_succ_of_le
        refine ⟨fun c hc r hr => Nat.le_of_lt (hle _ (hs.reports c hc r hr)),
          fun p hp => Nat.le_of_lt (hle _ (hs.applied p hp)), ?_⟩
        intro load hload
        rcases hs.answered load hload with hlt | ⟨heq, -⟩
        · exact .inl (hle _ (Nat.le_of_lt hlt))
        · exact .inl (hle _ (Nat.le_of_eq heq))

theorem mem_applies {report : Option EndReport} {o : Op} {moves : Nat}
    {p : Nat × Nat} (h : p ∈ applies report o moves) :
    ∃ r, report = some r ∧ p.1 = r.load := by
  unfold applies at h
  split at h
  · rename_i r
    rw [List.mem_singleton.mp h]
    exact ⟨r, rfl, rfl⟩
  · cases h

theorem Progress.step {a : Act} (hs : s.Progress) (ha : s.Replays a)
    (h : s.step suspends a = some s') : s'.Progress := by
  cases a with
  | wake w =>
      obtain ⟨notify, rfl⟩ := wake_cases h
      exact ⟨hs.reports, hs.applied, hs.answered⟩
  | loop =>
      obtain ⟨o, next, -, rfl⟩ := loop_cases h
      exact ⟨hs.reports, hs.applied, hs.answered⟩
  | press c =>
      cases h
      refine ⟨?_, hs.applied, hs.answered⟩
      apply forall_started hs.reports
      intro r hr
      cases hr
  | call i =>
      obtain ⟨report, o, next, hcall, rfl⟩ := call_cases h
      have hmem := List.mem_of_getElem? hcall
      refine ⟨?_, ?_, hs.answered⟩
      · exact forall_resumed hs.reports i fun r hr => hs.reports _ hmem r hr
      · intro p hp
        rcases List.mem_append.mp hp with hp | hp
        · exact hs.applied p hp
        · obtain ⟨r, hr, hload⟩ := mem_applies hp
          exact hload ▸ hs.reports _ hmem r hr
  | deliver =>
      obtain ⟨e, stamp, wire, hwire, rfl⟩ := deliver_cases h
      exact hs.deliver hwire ha
  | input e =>
      obtain ⟨page, hlocal, hpage, rfl⟩ := input_cases h
      have hnew := hs.input ha hlocal hpage
      have hle : s.page.stage.loads ≤ page.stage.loads := Page.step_loads hpage
      refine ⟨?_, hnew.applied, hnew.answered⟩
      intro c hc r hr
      rcases List.mem_append.mp hc with hc | hc
      · exact hnew.reports c hc r hr
      · rw [mem_reported hc] at hr
        cases hr
        exact hle

/--
In every run in which each answer to an end report makes the page fetch, and
no such fetch fails, finished content does not stay on stage.
-/
theorem replayed_of_replays {items : List Item} {page : Page} {as : List Act}
    {t : Session}
    (hrun : (session suspends).run (start suspends items page) as = some t)
    (hreplays : (session suspends).Along Replays (start suspends items page) as) :
    t.Replayed := by
  have hstart : (start suspends items page).Progress :=
    ⟨by simp [start], by simp [start], by simp [start]⟩
  exact (System.run_invariant_along (fun _ _ _ hs ha hstep => hs.step ha hstep)
    hstart hreplays hrun).replayed

/-! ## Which view answers -/

/--
The loop's answer to an end report names the item after the one under the
cursor: in a playlist with one item, or with two adjacent items for one view,
the view whose content has ended.
-/
theorem answer_names_next {d : Device} {it : Item}
    (hit : d.state.items[(d.state.index + 1) % d.state.items.length]? = some it) :
    Stream.sent (Stream.serve suspends .notify (Device.exec .next d).2) =
      Stream.sent d ++ Stream.currentEvents it d.state.paused := by
  have hpos : 0 < d.state.items.length := by
    by_contra hempty
    simp [List.length_eq_zero_iff.mp (Nat.eq_zero_of_not_pos hempty)] at hit
  have hshown : (Device.exec .next d).2.state.shown = some it := by
    show d.state.next.shown = some it
    rw [State.InRange.shown_eq (State.inRange_next _) rfl, ← hit]
    simp [State.next, hpos]
  exact (Stream.serve_notify (State.inRange_next _) hshown).2

private def playing (items : List Item) : Session :=
  start (fun _ => true) items (Page.opened (some 1) ⟨true, 1, []⟩)

private def reportAndAnswer : List Act :=
  List.replicate 11 .loop ++ [.deliver, .input .ended, .call 0, .call 0,
    .wake .notify] ++ List.replicate 5 .loop ++ List.replicate 7 .deliver

theorem replayed_with_two_views :
    ∃ t, (session fun _ => true).run
        (playing [⟨1, 60 * second⟩, ⟨2, 60 * second⟩])
        (reportAndAnswer ++ [.input (.answer 0 (some ⟨false, 0, []⟩))]) = some t ∧
      t.answered = [0] ∧ t.Replayed := by
  have hrun : (session fun _ => true).run
      (playing [⟨1, 60 * second⟩, ⟨2, 60 * second⟩])
      (reportAndAnswer ++ [.input (.answer 0 (some ⟨false, 0, []⟩))]) = some _ := rfl
  exact ⟨_, hrun, rfl, replayed_of_replays hrun (by decide)⟩

theorem single_view_freezes :
    ∃ t, (session fun _ => true).run (playing [⟨1, 60 * second⟩]) reportAndAnswer =
        some t ∧ ¬ t.Replayed ∧ t.page.stage.playing = 0 ∧
      t.page.endFallback = none ∧ t.page.fetches.pending = [] :=
  ⟨_, rfl, fun h => absurd (h rfl 0 (by decide)) (by decide), rfl, rfl, rfl⟩

end Session

end FamilyPlanner
