import FamilyPlanner.Kiosk.Page

/-!
# The corner playlist

The picture-in-picture corner of `kiosk.js` rotates its own playlist on the
page: `pipRotate` clears the pending timer, fetches the next view, and the
completion of the fetch swaps the body and sets the next timer.  Several
fetches can be in flight; they complete in any order.
-/

namespace FamilyPlanner.Kiosk

open FamilyPlanner.Foundation

structure PipItem where
  id : Int
  dwell : Int
  onEnd : Bool
  deriving DecidableEq, Repr

/--
`kpip` says whether the page has the corner element.  `kpipBody` is `none`
while the body element does not exist, else the view whose fragment it holds.
`timers` are the pending timers with their delays in milliseconds and
`pipTimer` is the one the variable of that name refers to.
-/
structure Corner where
  kpip : Bool
  kpipBody : Option (Option Int) := none
  pipItems : List PipItem := []
  pipIdx : Nat := 0
  pipTimer : Option Nat := none
  timers : List (Nat × Int) := []
  timersSet : Nat := 0
  fetches : Requests PipItem := .empty

/-- `pip` carries the parsed payload, `none` for `null`; `next` is also the
end of a video or slideshow in the corner. -/
inductive CornerInput where
  | pip (items : Option (List PipItem))
  | next
  | prev
  | timer (id : Nat)
  | answer (id : Nat) (result : Option Content)
  deriving DecidableEq, Repr

namespace Corner

def clearTimer (c : Corner) : Corner :=
  { c with timers := c.timers.filter fun t => some t.1 ≠ c.pipTimer }

def setTimer (c : Corner) (ms : Int) : Corner :=
  { c with
    timers := c.timers ++ [(c.timersSet, ms)]
    pipTimer := some c.timersSet
    timersSet := c.timersSet + 1 }

/-- `(i % n + n) % n` with the truncated remainder of the page's language. -/
def wrap (i : Int) (n : Nat) : Nat := ((i.tmod n + n).tmod n).toNat

def pipRotate (c : Corner) (i : Int) : Corner :=
  match c.kpipBody, c.pipItems[wrap i c.pipItems.length]? with
  | some _, some item =>
      let c := { c with pipIdx := wrap i c.pipItems.length }.clearTimer
      { c with fetches := c.fetches.start item }
  | _, _ => c

def pipNext (c : Corner) : Corner := c.pipRotate (c.pipIdx + 1)

def pipPrev (c : Corner) : Corner := c.pipRotate (c.pipIdx - 1)

def pipStart (c : Corner) (items : Option (List PipItem)) : Corner :=
  let c := { c with pipItems := items.getD [] }.clearTimer
  if !c.kpip then c
  else if c.pipItems = [] then { c with kpipBody := none }
  else { c with kpipBody := some (c.kpipBody.getD none) }.pipRotate 0

def retry (c : Corner) : Corner := c.setTimer 10000

def complete (c : Corner) (item : PipItem) : Option Content → Corner
  | none => c.retry
  | some content =>
      match c.kpipBody with
      -- assigning to the `innerHTML` of a missing body throws
      | none => c.retry
      | some _ =>
          let c := { c with kpipBody := some (some item.id) }
          if item.onEnd && (content.hasVideo || content.hasSlideshowPdf) then c
          else c.setTimer (max 3 item.dwell * 1000)

def step (c : Corner) : CornerInput → Option Corner
  | .pip items => some (if items = some c.pipItems then c else c.pipStart items)
  | .next => some c.pipNext
  | .prev => some c.pipPrev
  | .timer id =>
      if id ∈ c.timers.map Prod.fst then
        some { c with timers := c.timers.filter (·.1 ≠ id) }.pipNext
      else none
  | .answer id result =>
      (c.fetches.finish id result.isSome).map fun (item, fetches) =>
        { c with fetches := fetches }.complete item result

end Corner

def corner : System Corner CornerInput := ⟨Corner.step⟩

namespace Corner

/-! ## The cursor wraps -/

theorem wrap_lt (i : Int) {n : Nat} (hn : 0 < n) : wrap i n < n := by
  have h₁ := Int.tmod_lt_of_pos i (show (0 : Int) < n by omega)
  have h₂ := Int.lt_tmod_of_pos i (show (0 : Int) < n by omega)
  have h₃ := Int.tmod_lt_of_pos (i.tmod n + n) (show (0 : Int) < n by omega)
  have h₄ := Int.tmod_nonneg (n : Int) (show (0 : Int) ≤ i.tmod n + n by omega)
  simp only [wrap]
  omega

@[simp] theorem wrap_zero (n : Nat) : wrap 0 n = 0 := by
  simp [wrap]

/-! ## What holds of the corner -/

/-- At most one timer is pending, and once the newest fetch has succeeded and
nothing is in flight the body shows the current item. -/
def Settled (c : Corner) : Prop :=
  c.timers.length ≤ 1 ∧
    (c.fetches.pending = [] →
      ∀ item, c.fetches.newest = some (item, some true) →
        c.kpipBody.join = c.pipItems[c.pipIdx]?.map PipItem.id)

def CompletesNewest (c : Corner) : CornerInput → Prop
  | .answer id _ => id + 1 = c.fetches.started
  | _ => True

instance (c : Corner) (e : CornerInput) : Decidable (c.CompletesNewest e) :=
  match e with
  | .answer _ _ => inferInstanceAs (Decidable (_ = _))
  | .pip _ | .next | .prev | .timer _ => .isTrue trivial

structure Timed (c : Corner) : Prop where
  known : ∀ t ∈ c.timers, some t.1 = c.pipTimer
  single : c.timers.length ≤ 1
  waiting : ∀ item, c.fetches.newest = some (item, none) → c.timers = []

/-- The newest fetch is for the current item, and the body is no older. -/
structure Tracked (c : Corner) : Prop where
  absent : c.kpip = false → c.kpipBody = none ∧ c.fetches.newest = none
  bare : c.kpipBody = none → c.pipItems = [] ∨ c.fetches.newest = none
  asks : ∀ shown, c.kpipBody = some shown →
    c.pipItems ≠ [] ∧
      c.fetches.newest.map Prod.fst = c.pipItems[c.pipIdx]?
  fresh : ∀ shown, c.kpipBody = some shown →
    ∀ item, c.fetches.newest = some (item, some true) → shown = some item.id

theorem pipRotate_cases (c : Corner) (i : Int) :
    (c.pipRotate i = c ∧ (c.kpipBody = none ∨ c.pipItems = [])) ∨
      ∃ shown item, c.kpipBody = some shown ∧
        c.pipItems[wrap i c.pipItems.length]? = some item ∧
        c.pipRotate i =
          { c with
            pipIdx := wrap i c.pipItems.length
            timers := c.clearTimer.timers
            fetches := c.fetches.start item } := by
  cases hbody : c.kpipBody with
  | none => exact .inl ⟨by simp [pipRotate, hbody], .inl rfl⟩
  | some shown =>
      by_cases hnil : c.pipItems = []
      · exact .inl ⟨by simp [pipRotate, hnil], .inr hnil⟩
      · have hlt := wrap_lt i (List.length_pos_of_ne_nil hnil)
        refine .inr ⟨shown, _, rfl, List.getElem?_eq_getElem hlt, ?_⟩
        simp [pipRotate, hbody, List.getElem?_eq_getElem hlt, clearTimer]

theorem pipStart_cases (c : Corner) (items : Option (List PipItem)) :
    (c.kpip = false ∧ c.pipStart items =
      { c with pipItems := items.getD [], timers := c.clearTimer.timers }) ∨
    (c.kpip = true ∧ items.getD [] = [] ∧ c.pipStart items =
      { c with
        pipItems := [], timers := c.clearTimer.timers, kpipBody := none }) ∨
    (c.kpip = true ∧ ∃ item shown, (items.getD [])[0]? = some item ∧
      c.pipStart items =
        { c with
          pipItems := items.getD []
          pipIdx := 0
          timers := c.clearTimer.timers
          kpipBody := some shown
          fetches := c.fetches.start item }) := by
  cases hkpip : c.kpip with
  | false => exact .inl ⟨rfl, by simp [pipStart, clearTimer, hkpip]⟩
  | true =>
      right
      match hitems : items.getD [] with
      | [] => exact .inl ⟨rfl, rfl, by simp [pipStart, clearTimer, hkpip, hitems]⟩
      | item :: rest =>
          refine .inr ⟨rfl, item, c.kpipBody.getD none, rfl, ?_⟩
          simp [pipStart, pipRotate, clearTimer, hkpip, hitems, List.filter_filter]

theorem answer_cases {c c' : Corner} {id : Nat} {result : Option Content}
    (h : c.step (.answer id result) = some c') :
    ∃ item fetches,
      c.fetches.finish id result.isSome = some (item, fetches) ∧
        c' = { c with fetches := fetches }.complete item result := by
  simp only [step, Option.map_eq_some_iff] at h
  obtain ⟨⟨item, fetches⟩, hfin, rfl⟩ := h
  exact ⟨item, fetches, hfin, rfl⟩

theorem timer_cases {c c' : Corner} {id : Nat} (h : c.step (.timer id) = some c') :
    c' = { c with timers := c.timers.filter (·.1 ≠ id) }.pipNext := by
  simp only [step] at h
  split at h
  · cases h; rfl
  · contradiction

theorem complete_cases (c : Corner) (item : PipItem) (result : Option Content) :
    ∃ timers pipTimer timersSet, c.complete item result =
        { c with
          timers := c.timers ++ timers
          pipTimer := pipTimer
          timersSet := timersSet
          kpipBody :=
            if result.isSome then c.kpipBody.map fun _ => some item.id
            else c.kpipBody } ∧
      timers.length ≤ 1 ∧ ∀ t ∈ timers, some t.1 = pipTimer := by
  cases result with
  | none => exact ⟨[(c.timersSet, 10000)], _, _, rfl, Nat.le_refl 1, by simp⟩
  | some content =>
      cases hbody : c.kpipBody with
      | none =>
          refine ⟨[(c.timersSet, 10000)], some c.timersSet, c.timersSet + 1, ?_,
            Nat.le_refl 1, by simp⟩
          simp [complete, hbody, retry, setTimer]
      | some shown =>
          simp only [complete, hbody]
          split
          · exact ⟨[], c.pipTimer, c.timersSet, by simp, Nat.zero_le 1, by simp⟩
          · exact ⟨[(c.timersSet, _)], some c.timersSet, c.timersSet + 1, rfl,
              Nat.le_refl 1, by simp⟩

/-! ## Timers -/

theorem Timed.clear {c : Corner} (hc : c.Timed) : c.clearTimer.timers = [] := by
  simp only [clearTimer, List.filter_eq_nil_iff, decide_eq_true_eq, not_not]
  exact hc.known

theorem timed_of_nil {c : Corner} (h : c.timers = []) : c.Timed where
  known := by simp [h]
  single := by simp [h]
  waiting := fun _ _ => h

theorem Timed.pipRotate {c : Corner} (hc : c.Timed) (i : Int) :
    (c.pipRotate i).Timed := by
  rcases c.pipRotate_cases i with ⟨heq, -⟩ | ⟨_, _, -, -, heq⟩
  · rw [heq]
    exact hc
  · exact timed_of_nil (by rw [heq]; exact hc.clear)

theorem Timed.pipStart {c : Corner} (hc : c.Timed) (items : Option (List PipItem)) :
    (c.pipStart items).Timed := by
  apply timed_of_nil
  rcases c.pipStart_cases items with
    ⟨-, heq⟩ | ⟨-, -, heq⟩ | ⟨-, _, _, -, heq⟩ <;> rw [heq] <;> exact hc.clear

theorem Timed.step {c c' : Corner} {e : CornerInput} (hc : c.Timed)
    (hnewest : c.CompletesNewest e) (h : c.step e = some c') : c'.Timed := by
  cases e with
  | pip items =>
      cases h
      split
      · exact hc
      · exact hc.pipStart items
  | next =>
      cases h
      exact hc.pipRotate _
  | prev =>
      cases h
      exact hc.pipRotate _
  | timer id =>
      rw [timer_cases h]
      refine Timed.pipRotate ⟨?_, ?_, ?_⟩ _
      · intro t ht
        exact hc.known t (List.mem_of_mem_filter ht)
      · exact Nat.le_trans (List.length_filter_le _ _) hc.single
      · intro item hitem
        simp [hc.waiting item hitem]
  | answer id result =>
      obtain ⟨item, fetches, hfin, rfl⟩ := answer_cases h
      obtain ⟨hmem, -, -, hanswered⟩ := Requests.finish_eq_some hfin
      have hnone := hc.waiting item (Requests.newest_of_pending hmem hnewest)
      rw [if_pos (show id + 1 = c.fetches.started from hnewest)] at hanswered
      obtain ⟨timers, pipTimer, timersSet, heq, hlen, hknown⟩ :=
        complete_cases { c with fetches := fetches } item result
      rw [heq]
      refine ⟨?_, ?_, ?_⟩
      · simpa [hnone] using hknown
      · simpa [hnone] using hlen
      · simp [hanswered]

/-! ## The body -/

theorem Tracked.pipRotate {c : Corner} (hc : c.Tracked) (i : Int) :
    (c.pipRotate i).Tracked := by
  rcases c.pipRotate_cases i with ⟨heq, -⟩ | ⟨shown, item, hbody, hitem, heq⟩
  · rw [heq]
    exact hc
  · rw [heq]
    refine ⟨?_, ?_, ?_, ?_⟩
    · intro habsent
      rw [(hc.absent habsent).1] at hbody
      cases hbody
    · simp [hbody]
    · intro _ _
      refine ⟨?_, hitem.symm⟩
      intro hnil
      simp [show c.pipItems = [] from hnil] at hitem
    · intro _ _ it hit
      simp at hit

theorem Tracked.pipStart {c : Corner} (hc : c.Tracked)
    (items : Option (List PipItem)) : (c.pipStart items).Tracked := by
  rcases c.pipStart_cases items with
    ⟨hkpip, heq⟩ | ⟨hkpip, -, heq⟩ | ⟨hkpip, item, shown, hitem, heq⟩ <;>
    rw [heq]
  · obtain ⟨hbody, hnewest⟩ := hc.absent hkpip
    refine ⟨hc.absent, fun _ => .inr hnewest, ?_, ?_⟩ <;> simp [hbody]
  · exact ⟨by simp [hkpip], by simp, by simp, by simp⟩
  · refine ⟨by simp [hkpip], by simp, ?_, by simp⟩
    intro _ _
    refine ⟨?_, hitem.symm⟩
    intro hnil
    simp [show items.getD [] = [] from hnil] at hitem

theorem Tracked.step {c c' : Corner} {e : CornerInput} (hc : c.Tracked)
    (hnewest : c.CompletesNewest e) (h : c.step e = some c') : c'.Tracked := by
  cases e with
  | pip items =>
      cases h
      split
      · exact hc
      · exact hc.pipStart items
  | next =>
      cases h
      exact hc.pipRotate _
  | prev =>
      cases h
      exact hc.pipRotate _
  | timer id =>
      rw [timer_cases h]
      refine Tracked.pipRotate (c := { c with timers := _ }) ?_ _
      exact ⟨hc.absent, hc.bare, hc.asks, hc.fresh⟩
  | answer id result =>
      obtain ⟨item, fetches, hfin, rfl⟩ := answer_cases h
      obtain ⟨hmem, -, -, hanswered⟩ := Requests.finish_eq_some hfin
      have hasked := Requests.finish_newest_asked hfin
      have hout := Requests.newest_of_pending hmem hnewest
      rw [if_pos (show id + 1 = c.fetches.started from hnewest)] at hanswered
      obtain ⟨timers, pipTimer, timersSet, heq, -, -⟩ :=
        complete_cases { c with fetches := fetches } item result
      rw [heq]
      refine ⟨?_, ?_, ?_, ?_⟩
      · intro habsent
        rw [(hc.absent habsent).2] at hout
        cases hout
      · intro hbody
        have hbare : c.kpipBody = none := by
          cases hok : result.isSome <;> simpa [hok] using hbody
        refine .inl ((hc.bare hbare).resolve_right ?_)
        simp [hout]
      · intro shown hbody
        obtain ⟨old, hold⟩ : ∃ old, c.kpipBody = some old := by
          cases hbare : c.kpipBody with
          | none => simp [hbare] at hbody
          | some old => exact ⟨old, rfl⟩
        exact ⟨(hc.asks old hold).1, hasked.trans (hc.asks old hold).2⟩
      · intro shown hbody it hit
        obtain ⟨rfl, hok⟩ : item = it ∧ result.isSome = true := by
          simpa [hanswered] using hit
        obtain ⟨_, -, rfl⟩ : ∃ old, c.kpipBody = some old ∧ some item.id = shown := by
          simpa [hok] using hbody
        rfl

/-! ## Runs -/

theorem settled_of_tracked {c : Corner} (ht : c.Timed) (hc : c.Tracked) :
    c.Settled := by
  refine ⟨ht.single, ?_⟩
  intro _ item hitem
  cases hbody : c.kpipBody with
  | none =>
      have hnil := (hc.bare hbody).resolve_right (by simp [hitem])
      simp [hnil]
  | some shown =>
      have hasks := (hc.asks shown hbody).2
      rw [hitem] at hasks
      rw [hc.fresh shown hbody item hitem, ← hasks]
      rfl

/--
In every run in which only the newest fetch ever completes, the corner keeps
one timer at most and comes to show its current item.
-/
theorem settled_of_completesNewest {kpip : Bool} {c : Corner}
    {es : List CornerInput} (hrun : corner.run { kpip := kpip } es = some c)
    (hnewest : corner.Along CompletesNewest { kpip := kpip } es) :
    c.Settled := by
  have hinv := System.run_invariant_along
    (I := fun c : Corner => c.Timed ∧ c.Tracked)
    (fun _ _ _ hc hn hstep => ⟨hc.1.step hn hstep, hc.2.step hn hstep⟩)
    ⟨timed_of_nil rfl, ⟨by simp, by simp, by simp, by simp⟩⟩ hnewest hrun
  exact settled_of_tracked hinv.1 hinv.2

private def two : List PipItem := [⟨1, 20, false⟩, ⟨2, 20, false⟩]

theorem settled_after_retry :
    ∃ c, corner.run { kpip := true }
        [.pip (some two), .answer 0 none, .timer 0, .answer 1 (some ⟨false, 0, []⟩)] =
          some c ∧ c.Settled := by
  have hrun : corner.run { kpip := true }
      [.pip (some two), .answer 0 none, .timer 0,
        .answer 1 (some ⟨false, 0, []⟩)] = some _ := rfl
  exact ⟨_, hrun, settled_of_completesNewest hrun (by decide)⟩

/-- A step to the next item overtakes the first fetch: two timers are pending,
and the body shows the item that was left. -/
theorem overtaken_fetch_leaves_two_timers :
    ∃ c, corner.run { kpip := true }
        [.pip (some two), .next, .answer 1 (some ⟨false, 0, []⟩),
          .answer 0 (some ⟨false, 0, []⟩)] = some c ∧
      c.timers.length = 2 ∧ c.kpipBody.join = some 1 ∧ ¬ c.Settled := by
  refine ⟨_, rfl, rfl, rfl, ?_⟩
  intro hsettled
  exact absurd hsettled.1 (by decide)

end Corner

end FamilyPlanner.Kiosk
