import FamilyPlanner.Broker.Rows
import FamilyPlanner.Foundation.Run
import Mathlib.Data.List.Chain

/-!
# The cadence of the background refresh

`refreshExpired` lists the widgets whose row of the cache is missing or has
expired and refreshes them one after the other.  How far apart the attempts for
one widget are is decided by what the previous one has written to `expires_at`.
-/

namespace FamilyPlanner.Broker

open FamilyPlanner.Foundation FamilyPlanner.Widget

variable {P D : Type}

/-! ## The interval of a widget -/

def effectiveInterval (b : Broker P D) (env : Env P D) (w : World D)
    (wgt : WidgetRow) : Duration :=
  let sources := (b.sourcesFor wgt.id).alone env.exec w
  ((refreshCap sources.1 : Program P D Duration).alone env.exec sources.2).1

theorem exec_settings (env : Env P D) (c : Call P D) (w : World D) :
    (env.exec c w).2.store.settings = w.store.settings := by
  cases c <;> simp only [Env.exec, World.write_store, World.called_store]
  all_goals
    split <;> rfl

theorem alone_settings {α : Type} (p : Program P D α) (env : Env P D) (w : World D) :
    (p.alone env.exec w).2.store.settings = w.store.settings := by
  induction p generalizing w with
  | ret a => rfl
  | call c next ih => exact (ih _ _).trans (exec_settings env c w)

theorem globalRefreshInterval_congr (env : Env P D) {w v : World D}
    (h : v.store.settings = w.store.settings) :
    ((globalRefreshInterval : Program P D Int).alone env.exec v).1 =
      ((globalRefreshInterval : Program P D Int).alone env.exec w).1 := by
  have hread : (env.exec (.getSetting "refresh_interval_secs") v).1 =
      (env.exec (.getSetting "refresh_interval_secs") w).1 := by
    simp only [Env.exec, h]
  simp only [globalRefreshInterval, Prog.alone_call, Prog.alone_ret, hread]

theorem refreshCap_congr (env : Env P D) (sources : List SourceInput)
    {w v : World D} (h : v.store.settings = w.store.settings) :
    ((refreshCap sources : Program P D Duration).alone env.exec v).1 =
      ((refreshCap sources : Program P D Duration).alone env.exec w).1 := by
  unfold refreshCap
  split
  · rfl
  · simp only [Prog.alone_bind, Prog.alone_ret, globalRefreshInterval_congr env h]

def providerTTL (b : Broker P D) (env : Env P D) (w : World D) (wgt : WidgetRow) :
    Duration :=
  match b.typ wgt.type with
  | none => 0
  | some newProvider =>
      match newProvider wgt.configJson ((b.sourcesFor wgt.id).alone env.exec w).1 with
      | .error _ => 0
      | .ok prov =>
          match env.fetch prov with
          | .error _ => 0
          | .ok (_, ttl) => ttl

def lifetime (b : Broker P D) (env : Env P D) (w : World D) (wgt : WidgetRow) : Duration :=
  if 0 < effectiveInterval b env w wgt then effectiveInterval b env w wgt
  else if providerTTL b env w wgt ≤ 0 then seconds 30
  else providerTTL b env w wgt

theorem obtained_lifetime {b : Broker P D} {env : Env P D} {w : World D}
    {wgt : WidgetRow} {js : DataJson D} {ttl : Duration}
    (h : b.obtained env w wgt = .ok (js, ttl)) : ttl = lifetime b env w wgt := by
  unfold obtained obtain at h
  unfold lifetime effectiveInterval providerTTL
  cases htyp : b.typ wgt.type with
  | none => simp [htyp] at h
  | some newProvider =>
      simp only [htyp, Prog.alone_bind] at h
      generalize (b.sourcesFor wgt.id).alone env.exec w = sources at h ⊢
      cases hprov : newProvider wgt.configJson sources.1 with
      | error err => simp [hprov] at h
      | ok prov =>
          simp only [hprov, Prog.alone_call] at h
          cases hfetch : env.fetch prov with
          | error err => simp [Env.exec, hfetch, Prog.alone_bind] at h
          | ok fetched =>
              simp only [Env.exec, hfetch, Prog.alone_bind] at h
              cases hjson : fetched.1.bind b.marshalError with
              | some err => simp [hjson] at h
              | none =>
                  -- the cap is read from the settings that were there at first
                  have hcap := refreshCap_congr env sources.1
                    (w := sources.2) (v := ((recordSourcesHealth none sources.1 :
                      Program P D Unit).alone env.exec sources.2.called).2)
                    (alone_settings _ env _)
                  simp only [hjson, Prog.alone_bind, hcap, Prog.alone_ret,
                    Except.ok.injEq, Prod.mk.injEq] at h
                  simp only [hprov, hfetch]
                  exact h.2.symm

theorem obtained_ttl {b : Broker P D} {env : Env P D} {w : World D} {wgt : WidgetRow}
    {js : DataJson D} {ttl : Duration} (h : b.obtained env w wgt = .ok (js, ttl))
    (hpos : 0 < effectiveInterval b env w wgt) :
    ttl = effectiveInterval b env w wgt :=
  (obtained_lifetime h).trans (if_pos hpos)

/-! ## The loop of the broker -/

/-- The store keeps times in seconds. -/
def resolution : Duration := 1000000000

/-- What an attempt does to `expires_at`: `kept` leaves it as it was. -/
inductive Outcome where
  | stored
  | error
  | kept
  deriving DecidableEq, Repr

/-- An attempt of `refreshExpired`, from the start of `RefreshWidget` to the
reading of the clock by which it sets `expires_at`. -/
structure Attempt where
  widgetID : Int
  start : Int
  finish : Int
  interval : Duration
  outcome : Outcome
  deriving DecidableEq, Repr

def Attempt.wait (a : Attempt) : Duration :=
  match a.outcome with
  | .stored => a.interval
  | .error => seconds Broker.interval
  | .kept => 0

/-- `attempts` is history. -/
structure Loop (D : Type) where
  world : World D
  widgets : Widgets
  now : Int := 0
  pending : List Int := []
  attempts : List Attempt := []

namespace Loop

/--
`edit` changes the widgets, the sources with their links, and the settings.
`scan` and `attempt` say whether their query fails.
-/
inductive Act (P D : Type) where
  | elapse (ns : Nat)
  | edit (widgets : Widgets) (dataSources : Int → Option DataSource)
      (widgetSources : List WidgetSource) (settings : String → Option String)
  | scan (failed : Bool)
  | attempt (failed : Bool) (env : Env P D)

def expired (w : World D) (now : Int) (id : Int) : Bool :=
  match w.cacheRow id with
  | none => true
  | some row => row.expiresAt ≤ now / resolution

def listExpiredWidgetIDs (s : Loop D) : List Int :=
  s.widgets.ids.filter (expired s.world s.now)

def outcome (b : Broker P D) (env : Env P D) (w : World D) (row : WidgetRow) :
    Outcome :=
  match b.obtained env w row with
  | .ok _ => if env.faults.upsertWidgetCache then .kept else .stored
  | .error _ =>
      match (if env.faults.getWidgetCache then none else w.cacheRow row.id) with
      | some _ => .kept
      | none => if env.faults.upsertWidgetCache then .kept else .error

def attempted (b : Broker P D) (s : Loop D) (env : Env P D) (row : WidgetRow) :
    Attempt where
  widgetID := row.id
  start := s.now
  finish := env.now
  interval := effectiveInterval b env s.world row
  outcome := outcome b env s.world row

def refresh (b : Broker P D) (s : Loop D) (env : Env P D) (row : WidgetRow) :
    Loop D :=
  { s with
    world := b.refreshed env s.world row
    now := env.now
    attempts := s.attempts ++ [attempted b s env row] }

def step (b : Broker P D) (s : Loop D) : Act P D → Option (Loop D)
  | .elapse ns => some { s with now := s.now + ns }
  | .edit widgets dataSources widgetSources settings =>
      some { s with
        widgets := widgets
        world := { s.world with
          store := ⟨s.world.store.widgetCache, dataSources, widgetSources, settings⟩ } }
  | .scan failed =>
      match s.pending with
      | _ :: _ => none
      | [] => some (if failed then s else { s with pending := s.listExpiredWidgetIDs })
  | .attempt failed env =>
      match s.pending with
      | [] => none
      | id :: pending =>
          match (if failed then none else s.widgets.get id) with
          | none => some { s with pending := pending }
          | some row =>
              -- the clock does not go back during the refresh
              if s.now ≤ env.now then
                some (refresh b { s with pending := pending } env row)
              else none

def acts (b : Broker P D) : System (Loop D) (Act P D) := ⟨step b⟩

def idle (store : Store D) (widgets : Widgets) : Loop D where
  world := ⟨store, 0⟩
  widgets := widgets

/-! ## Attempts for one widget -/

def attemptsFor (s : Loop D) (id : Int) : List Attempt :=
  s.attempts.filter (·.widgetID = id)

def Waits (a a' : Attempt) : Prop := a.finish + a.wait < a'.start + resolution

instance (a a' : Attempt) : Decidable (Waits a a') :=
  inferInstanceAs (Decidable (_ < _))

/-- `row` is about the cache, `due` about what the scan has found expired. -/
structure Spaced (s : Loop D) : Prop where
  distinct : s.pending.Nodup
  past : ∀ a ∈ s.attempts, a.finish ≤ s.now
  row : ∀ id, ∀ a ∈ (s.attemptsFor id).getLast?, 0 < a.wait →
    ∃ row, s.world.cacheRow id = some row ∧ row.expiresAt = stamp a.finish a.wait
  due : ∀ id ∈ s.pending, ∀ a ∈ (s.attemptsFor id).getLast?,
    a.finish + a.wait < s.now + resolution
  apart : ∀ id, (s.attemptsFor id).IsChain Waits

variable {b : Broker P D} {s s' : Loop D} {env : Env P D} {row : WidgetRow}

theorem attemptsFor_refresh (b : Broker P D) (s : Loop D) (env : Env P D)
    (row : WidgetRow) (id : Int) :
    (refresh b s env row).attemptsFor id =
      s.attemptsFor id ++ if row.id = id then [attempted b s env row] else [] := by
  by_cases hid : row.id = id
  · simp [attemptsFor, refresh, attempted, List.filter_append, hid]
  · simp [attemptsFor, refresh, attempted, List.filter_append, hid]

theorem getLast?_attemptsFor_refresh (b : Broker P D) (s : Loop D) (env : Env P D)
    (row : WidgetRow) (id : Int) :
    ((refresh b s env row).attemptsFor id).getLast? =
      if row.id = id then some (attempted b s env row)
      else (s.attemptsFor id).getLast? := by
  rw [attemptsFor_refresh]
  by_cases hid : row.id = id
  · simp [hid]
  · simp [hid]

theorem expiresAt_of_wait (b : Broker P D) (s : Loop D) (env : Env P D)
    (row : WidgetRow) (hwait : 0 < (attempted b s env row).wait) :
    ∃ cached, (refresh b s env row).world.cacheRow row.id = some cached ∧
      cached.expiresAt = stamp env.now (attempted b s env row).wait := by
  simp only [Attempt.wait, attempted, outcome] at hwait ⊢
  cases hobtained : b.obtained env s.world row with
  | ok fetched =>
      obtain ⟨at_, hrow⟩ := refreshed_of_ok hobtained
      cases hfault : env.faults.upsertWidgetCache with
      | true => simp [hobtained, hfault] at hwait
      | false =>
          simp only [hobtained, hfault, Bool.false_eq_true, if_false] at hwait hrow ⊢
          rw [obtained_ttl hobtained hwait] at hrow
          exact ⟨_, hrow, rfl⟩
  | error msg =>
      obtain ⟨at_, hrow⟩ := refreshed_of_error hobtained
      cases hread : if env.faults.getWidgetCache then none
          else s.world.cacheRow row.id with
      | some cached => simp [hobtained, hread] at hwait
      | none =>
          cases hfault : env.faults.upsertWidgetCache with
          | true => simp [hobtained, hread, hfault] at hwait
          | false =>
              simp only [hread, hfault, Bool.false_eq_true, if_false] at hrow ⊢
              exact ⟨_, hrow, rfl⟩

theorem Spaced.refresh {pending : List Int} (hs : s.Spaced)
    (hpending : s.pending = row.id :: pending) (hclock : s.now ≤ env.now) :
    (Loop.refresh b { s with pending := pending } env row).Spaced := by
  have hdistinct := hs.distinct
  rw [hpending, List.nodup_cons] at hdistinct
  constructor
  · exact hdistinct.2
  · intro a ha
    show a.finish ≤ env.now
    rcases List.mem_append.mp ha with ha | ha
    · have hpast := hs.past a ha
      omega
    · cases List.mem_singleton.mp ha
      exact Int.le_refl _
  · intro id a ha hwait
    rw [getLast?_attemptsFor_refresh] at ha
    by_cases hid : row.id = id
    · rw [if_pos hid] at ha
      cases ha
      rw [← hid]
      exact expiresAt_of_wait b _ env row hwait
    · rw [if_neg hid] at ha
      obtain ⟨cached, hcached, hexpires⟩ := hs.row id a ha hwait
      exact ⟨cached, (refreshed_cacheRow_of_ne b env _ hid).trans hcached, hexpires⟩
  · intro id hid a ha
    have hne : row.id ≠ id := by
      rintro rfl
      exact hdistinct.1 hid
    rw [getLast?_attemptsFor_refresh, if_neg hne] at ha
    have hdue := hs.due id (hpending ▸ List.mem_cons_of_mem _ hid) a ha
    show a.finish + a.wait < env.now + resolution
    omega
  · intro id
    rw [attemptsFor_refresh]
    by_cases hid : row.id = id
    · rw [if_pos hid]
      apply (hs.apart id).append (List.isChain_singleton _)
      intro a ha a' ha'
      cases ha'
      exact hs.due id (by rw [hpending, hid]; exact List.mem_cons_self) a ha
    · rw [if_neg hid, List.append_nil]
      exact hs.apart id

theorem lt_of_expired {finish wait now : Int} {id : Int} {w : World D}
    {cached : CacheRow D} (hcached : w.cacheRow id = some cached)
    (hexpires : cached.expiresAt = stamp finish wait)
    (hexpired : expired w now id = true) : finish + wait < now + resolution := by
  simp only [expired, hcached, hexpires, stamp, decide_eq_true_eq] at hexpired
  unfold resolution at hexpired ⊢
  omega

theorem Spaced.scan (hs : s.Spaced) :
    Spaced { s with pending := s.listExpiredWidgetIDs } := by
  refine ⟨?_, hs.past, hs.row, ?_, hs.apart⟩
  · exact s.widgets.primaryKey.filter _
  · intro id hid a ha
    show a.finish + a.wait < s.now + resolution
    by_cases hwait : 0 < a.wait
    · obtain ⟨cached, hcached, hexpires⟩ := hs.row id a ha hwait
      exact lt_of_expired hcached hexpires (List.mem_filter.mp hid).2
    · have hpast := hs.past a (List.mem_of_mem_filter (List.mem_of_getLast? ha))
      have hresolution : (0 : Int) < resolution := by decide
      have hle : a.wait ≤ 0 := Int.not_lt.mp hwait
      calc a.finish + a.wait ≤ s.now + 0 := Int.add_le_add hpast hle
        _ < s.now + resolution := Int.add_lt_add_left hresolution s.now

theorem Spaced.skip {id : Int} {pending : List Int} (hs : s.Spaced)
    (hpending : s.pending = id :: pending) :
    Spaced { s with pending := pending } := by
  have hdistinct := hs.distinct
  rw [hpending, List.nodup_cons] at hdistinct
  refine ⟨hdistinct.2, hs.past, hs.row, ?_, hs.apart⟩
  intro id' hid'
  exact hs.due id' (hpending ▸ List.mem_cons_of_mem _ hid')

theorem Spaced.step {a : Act P D} (hs : s.Spaced)
    (h : (acts b).step s a = some s') : s'.Spaced := by
  cases a with
  | elapse ns =>
      cases h
      refine ⟨hs.distinct, ?_, hs.row, ?_, hs.apart⟩
      · intro a ha
        have hpast := hs.past a ha
        show a.finish ≤ s.now + ns
        omega
      · intro id hid a ha
        have hdue := hs.due id hid a ha
        show a.finish + a.wait < s.now + ns + resolution
        omega
  | edit widgets dataSources widgetSources settings =>
      cases h
      exact ⟨hs.distinct, hs.past, hs.row, hs.due, hs.apart⟩
  | scan failed =>
      simp only [acts, Loop.step] at h
      split at h
      · contradiction
      · cases h
        split
        · exact hs
        · exact hs.scan
  | attempt failed env =>
      simp only [acts, Loop.step] at h
      split at h
      · contradiction
      · rename_i id pending hpending
        split at h
        · cases h
          exact hs.skip hpending
        · rename_i row hrow
          split at h
          · rename_i hclock
            cases h
            have hid : row.id = id := by
              cases failed with
              | true => cases hrow
              | false => exact Widgets.get_id hrow
            rw [← hid] at hpending
            exact hs.refresh hpending hclock
          · contradiction

/-! ## Attempts that leave the row as it was -/

theorem expired_mono {w w' : World D} {now now' : Int} {id : Int}
    (hrow : (w'.cacheRow id).map (·.expiresAt) = (w.cacheRow id).map (·.expiresAt))
    (hnow : now ≤ now') (h : expired w now id = true) : expired w' now' id = true := by
  unfold expired at *
  cases hcached : w.cacheRow id with
  | none =>
      have hnone : w'.cacheRow id = none := by simpa [hcached] using hrow
      simp [hnone]
  | some row =>
      obtain ⟨row', hrow', hexpires⟩ : ∃ row', w'.cacheRow id = some row' ∧
          row'.expiresAt = row.expiresAt := by
        simpa [hcached, Option.map_eq_some_iff] using hrow
      simp only [hcached, hrow', hexpires, decide_eq_true_eq] at h ⊢
      unfold resolution at *
      omega

theorem expiresAt_of_kept (b : Broker P D) (s : Loop D) (env : Env P D)
    (row : WidgetRow) (hkept : (attempted b s env row).outcome = .kept) :
    ((refresh b s env row).world.cacheRow row.id).map (·.expiresAt) =
      (s.world.cacheRow row.id).map (·.expiresAt) := by
  simp only [attempted, outcome] at hkept
  cases hobtained : b.obtained env s.world row with
  | ok fetched =>
      obtain ⟨at_, hrow⟩ := refreshed_of_ok hobtained
      cases hfault : env.faults.upsertWidgetCache with
      | true => simp [refresh, hrow, hfault]
      | false => simp [hobtained, hfault] at hkept
  | error msg =>
      obtain ⟨at_, hrow⟩ := refreshed_of_error hobtained
      cases hread : if env.faults.getWidgetCache then none
          else s.world.cacheRow row.id with
      | some cached =>
          have hcached : s.world.cacheRow row.id = some cached := by
            split at hread
            · cases hread
            · exact hread
          rw [hread] at hrow
          simp only [refresh, hrow]
          rw [hcached]
          split <;> rfl
      | none =>
          cases hfault : env.faults.upsertWidgetCache with
          | true => simp [refresh, hrow, hread, hfault]
          | false => simp [hobtained, hread, hfault] at hkept

/-- What is to be tried, and what was tried and left as it was, is expired. -/
structure Due (s : Loop D) : Prop where
  pending : ∀ id ∈ s.pending, expired s.world s.now id = true
  again : ∀ id, ∀ a ∈ (s.attemptsFor id).getLast?, a.outcome = .kept →
    expired s.world s.now id = true

theorem Due.refresh {pending : List Int} (hs : s.Due) (hdistinct : s.pending.Nodup)
    (hpending : s.pending = row.id :: pending) (hclock : s.now ≤ env.now) :
    (Loop.refresh b { s with pending := pending } env row).Due := by
  rw [hpending, List.nodup_cons] at hdistinct
  have hother : ∀ id, row.id ≠ id → expired s.world s.now id = true →
      expired (b.refreshed env s.world row) env.now id = true := by
    intro id hid
    apply expired_mono _ hclock
    rw [refreshed_cacheRow_of_ne b env _ hid]
  constructor
  · intro id hid
    have hne : row.id ≠ id := by
      rintro rfl
      exact hdistinct.1 hid
    exact hother id hne (hs.pending id (hpending ▸ List.mem_cons_of_mem _ hid))
  · intro id a ha hkept
    rw [getLast?_attemptsFor_refresh] at ha
    by_cases hid : row.id = id
    · rw [if_pos hid] at ha
      cases ha
      rw [← hid]
      apply expired_mono (expiresAt_of_kept b _ env row hkept) hclock
      exact hs.pending row.id (hpending ▸ List.mem_cons_self)
    · rw [if_neg hid] at ha
      exact hother id hid (hs.again id a ha hkept)

theorem Due.step {a : Act P D} (hs : s.Due) (hspaced : s.Spaced)
    (h : (acts b).step s a = some s') : s'.Due := by
  cases a with
  | elapse ns =>
      cases h
      have hnow : s.now ≤ s.now + ns := by omega
      constructor
      · intro id hid
        exact expired_mono rfl hnow (hs.pending id hid)
      · intro id a ha hkept
        exact expired_mono rfl hnow (hs.again id a ha hkept)
  | edit widgets dataSources widgetSources settings =>
      cases h
      exact ⟨hs.pending, hs.again⟩
  | scan failed =>
      simp only [acts, Loop.step] at h
      split at h
      · contradiction
      · cases h
        split
        · exact hs
        · exact ⟨fun id hid => (List.mem_filter.mp hid).2, hs.again⟩
  | attempt failed env =>
      simp only [acts, Loop.step] at h
      split at h
      · contradiction
      · rename_i id pending hpending
        split at h
        · cases h
          exact ⟨fun id' hid' => hs.pending id' (hpending ▸ List.mem_cons_of_mem _ hid'),
            hs.again⟩
        · rename_i row hrow
          split at h
          · rename_i hclock
            cases h
            have hid : row.id = id := by
              cases failed with
              | true => cases hrow
              | false => exact Widgets.get_id hrow
            rw [← hid] at hpending
            exact hs.refresh hspaced.distinct hpending hclock
          · contradiction

theorem idle_spaced (store : Store D) (widgets : Widgets) :
    (idle store widgets).Spaced ∧ (idle store widgets).Due := by
  constructor
  · constructor <;> simp [idle, attemptsFor]
  · constructor <;> simp [idle, attemptsFor]

/--
Between the end of one attempt for a widget and the start of the next lies the
interval of the widget if the first has stored what it fetched, and that of the
broker if it has written the row of a first error.  An attempt that leaves the
row's expiry as it was has the next scan list the widget again.
-/
theorem attempts_wait {store : Store D} {widgets : Widgets} {es : List (Act P D)}
    (hrun : (acts b).run (idle store widgets) es = some s) (id : Int) :
    (s.attemptsFor id).IsChain Waits ∧
      (∀ a ∈ (s.attemptsFor id).getLast?, a.outcome = .kept → id ∈ s.widgets.ids →
        id ∈ s.listExpiredWidgetIDs) ∧
      ∀ failed env s' a, (acts b).step s (.attempt failed env) = some s' →
        s'.attempts = s.attempts ++ [a] → a.widgetID = id → a.outcome = .kept →
        (s'.world.cacheRow id).map (·.expiresAt) =
          (s.world.cacheRow id).map (·.expiresAt) := by
  have hs : s.Spaced ∧ s.Due := by
    apply System.run_invariant (I := fun u => u.Spaced ∧ u.Due) _
      (idle_spaced store widgets) hrun
    rintro u e v ⟨hspaced, hdue⟩ hstep
    exact ⟨hspaced.step hstep, hdue.step hspaced hstep⟩
  refine ⟨hs.1.apart id, ?_, ?_⟩
  · intro a ha hkept hid
    exact List.mem_filter.mpr ⟨hid, hs.2.again id a ha hkept⟩
  · rintro failed env s' a hstep hattempts rfl hkept
    simp only [acts, Loop.step] at hstep
    split at hstep
    · contradiction
    · split at hstep
      · cases hstep
        simp at hattempts
      · rename_i row _
        split at hstep
        · cases hstep
          obtain rfl : attempted b s env row = a := by
            simpa [Loop.refresh, attempted] using hattempts
          exact expiresAt_of_kept b _ env row hkept
        · contradiction

/-! ## An unreachable source -/

private def feed : Broker ConfigJson Unit where
  typ := fun _ => some fun config _ => .ok config
  marshalError := fun _ => none
  openSecret := fun _ => none
  sealSecret := fun _ => none

private def news : Store Unit where
  widgetCache := fun _ => none
  dataSources := fun _ => some
    { type := .rss, config := {}, secretCiphertext := "", oauthStatus := ""
      accessExpiry := none, lastSync := none, lastError := "", health := ""
      refreshIntervalSecs := 900 }
  widgetSources := [⟨1, 1, "", "", ""⟩]
  settings := fun _ => none

private def headlines : Widgets := ⟨[⟨1, "rss", .object []⟩], by decide⟩

private def answering (secs : Int) (ok : Bool) : Env ConfigJson Unit where
  now := seconds secs
  dbNow := fun _ => secs
  fetch := fun _ => if ok then .ok (some (), 0) else .error "timeout"
  freshToken := fun _ _ _ => .error ⟨none, ""⟩
  faults := {}

private def tick (secs : Int) (ok : Bool) : List (Act ConfigJson Unit) :=
  [.scan false, .attempt false (answering secs ok)]

/-- The answer is kept for the interval; the failure after it is tried again. -/
theorem attempts_wait_after_answer :
    ∃ s, (acts feed).run (idle news headlines)
        (tick 0 true ++ [.elapse 900000000000] ++ tick 901 false) = some s ∧
      s.attemptsFor 1 = [⟨1, 0, 0, seconds 900, .stored⟩,
        ⟨1, seconds 900, seconds 901, seconds 900, .kept⟩] ∧
      (s.attemptsFor 1).IsChain Waits ∧ 1 ∈ s.listExpiredWidgetIDs := by
  obtain ⟨s, hrun⟩ : ∃ s, (acts feed).run (idle news headlines)
      (tick 0 true ++ [.elapse 900000000000] ++ tick 901 false) = some s := ⟨_, rfl⟩
  obtain ⟨hwaits, hagain, -⟩ := attempts_wait hrun 1
  have hattempts : s.attemptsFor 1 = [⟨1, 0, 0, seconds 900, .stored⟩,
      ⟨1, seconds 900, seconds 901, seconds 900, .kept⟩] := by
    cases hrun
    rfl
  refine ⟨s, hrun, hattempts, hwaits, ?_⟩
  apply hagain ⟨1, seconds 900, seconds 901, seconds 900, .kept⟩
  · rw [hattempts]
    rfl
  · rfl
  · cases hrun
    decide

/-- A source of which every fetch fails is tried at every scan, whatever its
interval. -/
theorem failures_ignore_interval :
    ∃ es s, (acts feed).run (idle news headlines) es = some s ∧
      s.attemptsFor 1 = [⟨1, 0, 0, seconds 900, .error⟩,
        ⟨1, seconds 10, seconds 10, seconds 900, .kept⟩,
        ⟨1, seconds 20, seconds 20, seconds 900, .kept⟩] ∧
      ¬ (s.attemptsFor 1).IsChain fun a a' =>
        a.start + a.interval < a'.start + resolution := by
  refine ⟨tick 0 false ++ [.elapse 10000000000] ++ tick 10 false ++
    [.elapse 10000000000] ++ tick 20 false, _, rfl, rfl, ?_⟩
  intro h
  exact absurd h.rel (by decide)

end Loop

end FamilyPlanner.Broker
