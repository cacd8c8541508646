import FamilyPlanner.Foundation.Run

/-!
# The reload after a redeploy

Each start of the server has a boot id, which is sent to every page that
connects.  A page keeps the first id it is sent and reloads at another.  By
which start it was served itself, it is never told.
-/

namespace FamilyPlanner.Kiosk.Redeploy

open FamilyPlanner.Foundation

/--
`stream` is the server at the other end of the open stream and `wire` what is on
its way to the page.  `html` and `told` are history: the start that has served
the page, and the ids it was sent.
-/
structure Page where
  html : Nat
  bootID : Option Nat := none
  reloading : Bool := false
  stream : Option Nat := none
  wire : List Nat := []
  told : List Nat := []
  deriving DecidableEq, Repr

def Page.onVersion (p : Page) (v : Nat) : Page :=
  match p.bootID with
  | none => { p with bootID := some v }
  | some b => if v ≠ b then { p with reloading := true } else p

structure Host where
  bootID : Nat
  page : Option Page := none
  deriving DecidableEq, Repr

/--
A start at a later time, a load for whatever reason, a connection, the loss of
one with all but the first `n` events on their way, and a version event.
-/
inductive Event where
  | start (now : Nat)
  | load
  | connect
  | lost (n : Nat)
  | version
  deriving DecidableEq, Repr

def Host.step (s : Host) : Event → Option Host
  | .start now =>
      if s.bootID < now then
        some { bootID := now, page := s.page.map fun p => { p with stream := none } }
      else none
  | .load => some { s with page := some { html := s.bootID } }
  | .connect =>
      match s.page with
      | none => none
      | some p =>
          if p.stream = none then
            some { s with page := some { p with
              stream := some s.bootID
              wire := p.wire ++ [s.bootID] } }
          else none
  | .lost n =>
      some { s with page := s.page.map fun p =>
        { p with stream := none, wire := p.wire.take n } }
  | .version =>
      match s.page with
      | none => none
      | some p =>
          match p.wire with
          | [] => none
          | v :: wire =>
              some { s with page := some (({ p with wire, told := p.told ++ [v] }).onVersion v) }

def host : System Host Event := ⟨Host.step⟩

/-! ## What a page knows -/

structure Page.Sound (boot : Nat) (p : Page) : Prop where
  first : p.bootID = p.told.head?
  reloads : p.reloading = true ↔ ∃ v ∈ p.told, p.bootID ≠ some v
  served : p.html ≤ boot
  sent : ∀ v ∈ p.told ++ p.wire, p.html ≤ v ∧ v ≤ boot
  latest : ∀ b ∈ p.stream, b = boot ∧ (p.told ++ p.wire).getLast? = some b

variable {s s' : Host} {p : Page} {boot : Nat}

theorem Page.Sound.load (boot : Nat) : Page.Sound boot { html := boot } := by
  constructor <;> simp

theorem Page.Sound.start (hp : p.Sound boot) {now : Nat} (hnow : boot < now) :
    Page.Sound now { p with stream := none } := by
  constructor
  · exact hp.first
  · exact hp.reloads
  · exact Nat.le_of_lt (Nat.lt_of_le_of_lt hp.served hnow)
  · intro v hv
    obtain ⟨hlow, hhigh⟩ := hp.sent v hv
    exact ⟨hlow, Nat.le_of_lt (Nat.lt_of_le_of_lt hhigh hnow)⟩
  · intro b hb
    cases hb

theorem Page.Sound.connect (hp : p.Sound boot) :
    Page.Sound boot { p with stream := some boot, wire := p.wire ++ [boot] } := by
  constructor
  · exact hp.first
  · exact hp.reloads
  · exact hp.served
  · intro v hv
    rw [← List.append_assoc] at hv
    rcases List.mem_append.mp hv with hv | hv
    · exact hp.sent v hv
    · rw [List.mem_singleton.mp hv]
      exact ⟨hp.served, Nat.le_refl boot⟩
  · intro b hb
    cases hb
    refine ⟨rfl, ?_⟩
    rw [← List.append_assoc, List.getLast?_concat]

theorem Page.Sound.lost (hp : p.Sound boot) (n : Nat) :
    Page.Sound boot { p with stream := none, wire := p.wire.take n } := by
  constructor
  · exact hp.first
  · exact hp.reloads
  · exact hp.served
  · intro v hv
    apply hp.sent v
    rcases List.mem_append.mp hv with hv | hv
    · exact List.mem_append_left _ hv
    · exact List.mem_append_right _ (List.mem_of_mem_take hv)
  · intro b hb
    cases hb

theorem Page.Sound.version (hp : p.Sound boot) {v : Nat} {wire : List Nat}
    (hwire : p.wire = v :: wire) :
    Page.Sound boot (({ p with wire, told := p.told ++ [v] }).onVersion v) := by
  have hmoved : p.told ++ [v] ++ wire = p.told ++ p.wire := by
    rw [hwire, List.append_assoc]
    rfl
  have hsent := hp.sent
  have hlatest := hp.latest
  rw [← hmoved] at hsent hlatest
  cases hfirst : p.told with
  | nil =>
      have hnone : p.bootID = none := by
        rw [hp.first, hfirst]
        rfl
      have hquiet : p.reloading = false := by
        rw [← Bool.not_eq_true, hp.reloads, hfirst]
        simp
      rw [hfirst] at hsent hlatest
      simp only [Page.onVersion, hnone]
      constructor
      · rfl
      · simp [hquiet]
      · exact hp.served
      · exact hsent
      · exact hlatest
  | cons b told =>
      have hsome : p.bootID = some b := by
        rw [hp.first, hfirst]
        rfl
      have hbefore := hp.reloads
      rw [hfirst, hsome] at hbefore
      rw [hfirst] at hsent hlatest
      simp only [Page.onVersion, hsome]
      split
      · rename_i hne
        constructor
        · rfl
        · simp only [true_iff]
          exact ⟨v, by simp, fun heq => hne (Option.some.inj heq).symm⟩
        · exact hp.served
        · exact hsent
        · exact hlatest
      · rename_i heq
        have heq : v = b := not_not.mp heq
        constructor
        · rfl
        · rw [hbefore]
          simp [heq]
        · exact hp.served
        · exact hsent
        · exact hlatest

def Host.Sound (s : Host) : Prop := ∀ p ∈ s.page, p.Sound s.bootID

theorem Host.Sound.step (hs : s.Sound) {e : Event} (h : s.step e = some s') : s'.Sound := by
  cases e with
  | start now =>
      simp only [Host.step] at h
      split at h
      · rename_i hnow
        cases h
        intro p hp
        obtain ⟨p, hpage, rfl⟩ := Option.map_eq_some_iff.mp hp
        exact (hs p hpage).start hnow
      · cases h
  | load =>
      cases h
      intro p hp
      cases hp
      exact Page.Sound.load s.bootID
  | connect =>
      simp only [Host.step] at h
      split at h
      · cases h
      · rename_i p hpage
        split at h
        · cases h
          intro q hq
          cases hq
          exact (hs p hpage).connect
        · cases h
  | lost n =>
      cases h
      intro p hp
      obtain ⟨p, hpage, rfl⟩ := Option.map_eq_some_iff.mp hp
      exact (hs p hpage).lost n
  | version =>
      simp only [Host.step] at h
      split at h
      · cases h
      · rename_i p hpage
        split at h
        · cases h
        · rename_i v wire hwire
          cases h
          intro q hq
          cases hq
          exact (hs p hpage).version hwire

/--
Whatever restarts, loads and lost connections: a page reloads only when the
server was started again after it had served the page; and a connected page
that has handled what it was sent reloads, or comes from the running server
exactly if the first id it was sent is that of the start it was served by.
-/
theorem reloads_after_redeploy {es : List Event}
    (hrun : host.run { bootID := boot } es = some s) (hpage : s.page = some p) :
    (p.reloading = true → p.html < s.bootID) ∧
      (p.stream ≠ none → p.wire = [] → p.reloading = true ∨
        (p.html = s.bootID ↔ p.told.head? = some p.html)) := by
  have hsound : s.Sound := by
    apply System.run_invariant (fun _ _ _ hs hstep => hs.step hstep) _ hrun
    intro p hp
    cases hp
  have hp := hsound p hpage
  constructor
  · intro hreloading
    obtain ⟨v, hv, hne⟩ := hp.reloads.mp hreloading
    rw [hp.first] at hne
    obtain ⟨b, told, htold⟩ := List.exists_cons_of_ne_nil (List.ne_nil_of_mem hv)
    have hfirst := hp.sent b (by simp [htold])
    have hother := hp.sent v (List.mem_append_left _ hv)
    have hapart : b ≠ v := by
      rintro rfl
      exact hne (by rw [htold]; rfl)
    omega
  · intro hstream hwire
    obtain ⟨b, hb⟩ := Option.ne_none_iff_exists'.mp hstream
    obtain ⟨rfl, hlast⟩ := hp.latest b hb
    rw [hwire, List.append_nil] at hlast
    have hmem := List.mem_of_getLast? hlast
    by_cases hreloading : p.reloading = true
    · exact .inl hreloading
    · right
      have hsame : p.told.head? = some s.bootID := by
        by_contra hne
        rw [← hp.first] at hne
        exact hreloading (hp.reloads.mpr ⟨_, hmem, hne⟩)
      rw [hsame, Option.some.injEq]
      exact eq_comm

/-- The server is started again before the page first connects, and once more later. -/
private def deploys : List Event :=
  [.load, .start 20, .connect, .version, .lost 0, .connect, .version, .start 30, .connect,
    .version]

theorem reloads_after_redeploy_twice :
    (∃ s, host.run { bootID := 10 } (deploys.take 4) = some s ∧
      ∃ p, s.page = some p ∧ p.reloading = false ∧ p.html ≠ s.bootID) ∧
    ∃ s, host.run { bootID := 10 } deploys = some s ∧
      ∃ p, s.page = some p ∧ p.reloading = true ∧ p.html < s.bootID := by
  constructor
  · have hrun : host.run { bootID := 10 } (deploys.take 4) = some {
        bootID := 20
        page := some { html := 10, bootID := some 20, stream := some 20, told := [20] } } := rfl
    refine ⟨_, hrun, _, rfl, rfl, ?_⟩
    intro hsame
    rcases (reloads_after_redeploy hrun rfl).2 (by decide) rfl with hreloading | hiff
    · cases hreloading
    · exact absurd (hiff.mp hsame) (by decide)
  · have hrun : host.run { bootID := 10 } deploys = some {
        bootID := 30
        page := some {
          html := 10
          bootID := some 20
          reloading := true
          stream := some 30
          told := [20, 20, 30] } } := rfl
    exact ⟨_, hrun, _, rfl, rfl, (reloads_after_redeploy hrun rfl).1 rfl⟩

end FamilyPlanner.Kiosk.Redeploy
