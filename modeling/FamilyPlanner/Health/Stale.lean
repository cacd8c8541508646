import FamilyPlanner.Broker.Cadence
import FamilyPlanner.Health.Assess

/-!
# Stale data of a healthy system

A widget counts as stale an hour after its last fetch.  When it is fetched again
depends on the lifetime that the broker gives its row, and on the next scan.
-/

namespace FamilyPlanner.Health

open FamilyPlanner.Foundation FamilyPlanner.Widget FamilyPlanner.Broker

variable {P D : Type}

/-! ## The form -/

def maxRefreshMinutes : Int := 1440

/-- The interval of a source in seconds from its form, 0 for the global one;
`none` leaves the stored one. -/
def sourceRefreshInterval (refreshMinutes : String) : Option Int :=
  match atoi refreshMinutes with
  | none => none
  | some m =>
      if 0 ≤ m then some ((if maxRefreshMinutes < m then maxRefreshMinutes else m) * 60)
      else none

/-! ## The system -/

/-- `due` is the time of the next scan. -/
structure Watch (D : Type) where
  loop : Loop D
  due : Int

/-- `refresh` is one outside of the scan: a widget is shown or edited. -/
inductive Act (P D : Type) where
  | loop (a : Loop.Act P D)
  | refresh (id : Int) (env : Env P D)

namespace Watch

def period : Duration := seconds Broker.interval

def step (b : Broker P D) (s : Watch D) : Act P D → Option (Watch D)
  | .loop (.scan failed) =>
      (Loop.step b s.loop (.scan failed)).map fun loop => ⟨loop, s.due + period⟩
  | .loop a => (Loop.step b s.loop a).map fun loop => ⟨loop, s.due⟩
  | .refresh id env =>
      match s.loop.widgets.get id with
      | none => none
      | some wgt =>
          if s.loop.now ≤ env.now then
            some { s with
              loop := { s.loop with
                world := b.refreshed env s.loop.world wgt
                now := env.now } }
          else none

def acts (b : Broker P D) : System (Watch D) (Act P D) := ⟨step b⟩

def start (store : Store D) (widgets : Widgets) (now : Int) : Watch D :=
  ⟨{ world := ⟨store, 0⟩, widgets := widgets, now := now }, now⟩

/-- The fetch of a refresh succeeds at once, and its row is written. -/
def Answered (b : Broker P D) (s : Loop D) (env : Env P D) (wgt : WidgetRow) : Prop :=
  env.now = s.now ∧ (∀ n, env.dbNow n = s.now / resolution) ∧
    env.faults.upsertWidgetCache = false ∧ ∃ fetched, b.obtained env s.world wgt = .ok fetched

/-- The scan runs every 10 s, and every fetch succeeds at once.  A widget that is
added has no row in the cache. -/
def Healthy (b : Broker P D) (s : Watch D) : Act P D → Prop
  | .loop (.elapse ns) => s.loop.pending = [] ∧ s.loop.now + ns ≤ s.due
  | .loop (.edit widgets _ _ _) =>
      ∀ id ∈ widgets.ids, id ∉ s.loop.widgets.ids → s.loop.world.cacheRow id = none
  | .loop (.scan failed) => failed = false ∧ s.loop.now = s.due
  | .loop (.attempt failed env) => failed = false ∧
      ∀ id ∈ s.loop.pending.head?, ∀ wgt ∈ s.loop.widgets.get id, Answered b s.loop env wgt
  | .refresh id env => ∀ wgt ∈ s.loop.widgets.get id, Answered b s.loop env wgt

def refreshAt (due expiresAt : Int) : Int :=
  due + period * max 0 ((expiresAt - due / resolution + 9) / 10)

/-- The row that is written now is refreshed within an hour. -/
def InTime (b : Broker P D) (s : Watch D) (env : Env P D) (wgt : WidgetRow) : Prop :=
  refreshAt s.due (stamp s.loop.now (lifetime b env s.loop.world wgt)) ≤
    s.loop.now / resolution * resolution + staleAfter

instance (b : Broker P D) (s : Watch D) (env : Env P D) (wgt : WidgetRow) :
    Decidable (InTime b s env wgt) := inferInstanceAs (Decidable (_ ≤ _))

def Timely (b : Broker P D) (s : Watch D) : Act P D → Prop
  | .loop (.attempt _ env) =>
      ∀ id ∈ s.loop.pending.head?, ∀ wgt ∈ s.loop.widgets.get id, InTime b s env wgt
  | .refresh id env => ∀ wgt ∈ s.loop.widgets.get id, InTime b s env wgt
  | _ => True

instance (b : Broker P D) (s : Watch D) : (a : Act P D) → Decidable (Timely b s a)
  | .loop (.attempt _ env) => inferInstanceAs
      (Decidable (∀ id ∈ s.loop.pending.head?, ∀ wgt ∈ s.loop.widgets.get id, InTime b s env wgt))
  | .refresh id env => inferInstanceAs
      (Decidable (∀ wgt ∈ s.loop.widgets.get id, InTime b s env wgt))
  | .loop (.elapse _) | .loop (.edit ..) | .loop (.scan _) => .isTrue trivial

/-! ## The next refresh -/

theorem le_refreshAt (due expiresAt : Int) : due ≤ refreshAt due expiresAt := by
  have hperiod : period = 10000000000 := by decide
  simp only [refreshAt, hperiod]
  omega

theorem refreshAt_of_expired {due expiresAt : Int} (h : expiresAt ≤ due / resolution) :
    refreshAt due expiresAt = due := by
  have hperiod : period = 10000000000 := by decide
  simp only [refreshAt, hperiod]
  omega

theorem refreshAt_next {due expiresAt : Int} (h : due / resolution < expiresAt) :
    refreshAt (due + period) expiresAt = refreshAt due expiresAt := by
  have hperiod : period = 10000000000 := by decide
  simp only [refreshAt, hperiod]
  unfold resolution at h ⊢
  omega

/-- Any lifetime up to 59 minutes and 49 seconds is in time. -/
theorem inTime_of_le {b : Broker P D} {s : Watch D} {env : Env P D} {wgt : WidgetRow}
    (hdue : s.loop.now ≤ s.due) (hperiod : s.due ≤ s.loop.now + period)
    (h : lifetime b env s.loop.world wgt ≤ seconds 3589) : InTime b s env wgt := by
  have hperiod' : period = 10000000000 := by decide
  have hhour : staleAfter = 3600000000000 := by decide
  have hlife : seconds 3589 = 3589000000000 := by decide
  unfold InTime
  rw [hlife] at h
  generalize lifetime b env s.loop.world wgt = ttl at h ⊢
  change @LE.le Int _ ttl 3589000000000 at h
  simp only [refreshAt, stamp, hperiod', hhour] at hperiod ⊢
  unfold resolution
  omega

/-! ## Rows that are refreshed in time -/

/-- A row that no scan has found expired yet is refreshed within an hour of its
fetch; one that was found expired is not older than an hour. -/
structure Prompt (s : Watch D) : Prop where
  due : s.loop.now ≤ s.due
  waiting : ∀ id ∈ s.loop.widgets.ids, id ∉ s.loop.pending →
    ∀ row ∈ s.loop.world.cacheRow id,
      refreshAt s.due row.expiresAt ≤ row.fetchedAt * resolution + staleAfter
  expired : ∀ id ∈ s.loop.widgets.ids, id ∈ s.loop.pending →
    ∀ row ∈ s.loop.world.cacheRow id, s.loop.now ≤ row.fetchedAt * resolution + staleAfter

variable {b : Broker P D} {s s' : Watch D} {env : Env P D} {wgt : WidgetRow}

theorem Prompt.fresh (hs : s.Prompt) {id : Int} (hid : id ∈ s.loop.widgets.ids)
    {row : CacheRow D} (hrow : s.loop.world.cacheRow id = some row) :
    s.loop.now ≤ row.fetchedAt * resolution + staleAfter := by
  by_cases hpending : id ∈ s.loop.pending
  · exact hs.expired id hid hpending row hrow
  · calc s.loop.now ≤ s.due := hs.due
      _ ≤ refreshAt s.due row.expiresAt := le_refreshAt _ _
      _ ≤ row.fetchedAt * resolution + staleAfter := hs.waiting id hid hpending row hrow

theorem Answered.row (h : Answered b s.loop env wgt) :
    ∃ js, (b.refreshed env s.loop.world wgt).cacheRow wgt.id =
      some ⟨js, s.loop.now / resolution,
        stamp s.loop.now (lifetime b env s.loop.world wgt), .ok, ""⟩ := by
  obtain ⟨hnow, hdb, hfault, ⟨js, ttl⟩, hobtained⟩ := h
  obtain ⟨n, hrow⟩ := refreshed_of_ok_at hobtained
  rw [hfault, hdb, hnow, obtained_lifetime hobtained] at hrow
  exact ⟨js, hrow⟩

theorem Prompt.refreshed (hs : s.Prompt) (hanswered : Answered b s.loop env wgt)
    (htime : InTime b s env wgt) {loop : Loop D}
    (hworld : loop.world = b.refreshed env s.loop.world wgt) (hnow : loop.now = env.now)
    (hwidgets : loop.widgets = s.loop.widgets) (hsub : loop.pending ⊆ s.loop.pending)
    (hrest : ∀ id ∈ s.loop.pending, id ∉ loop.pending → id = wgt.id) :
    Prompt ⟨loop, s.due⟩ := by
  have hsame : loop.now = s.loop.now := hnow.trans hanswered.1
  obtain ⟨js, hrow⟩ := hanswered.row
  rw [← hworld] at hrow
  have hother (id : Int) (hid : wgt.id ≠ id) :
      loop.world.cacheRow id = s.loop.world.cacheRow id := by
    rw [hworld]
    exact refreshed_cacheRow_of_ne b env _ hid
  refine ⟨?_, ?_, ?_⟩
  · rw [hsame]
    exact hs.due
  · intro id hid hpending row hcached
    rw [hwidgets] at hid
    by_cases hwgt : wgt.id = id
    · rw [← hwgt, hrow] at hcached
      cases hcached
      exact htime
    · rw [hother id hwgt] at hcached
      exact hs.waiting id hid (fun h => hwgt (hrest id h hpending).symm) row hcached
  · intro id hid hpending row hcached
    rw [hwidgets] at hid
    rw [hsame]
    by_cases hwgt : wgt.id = id
    · rw [← hwgt, hrow] at hcached
      cases hcached
      have hhour : staleAfter = 3600000000000 := by decide
      simp only [hhour]
      unfold resolution
      omega
    · rw [hother id hwgt] at hcached
      exact hs.expired id hid (hsub hpending) row hcached

theorem mem_listExpired {l : Loop D} {id : Int} (hid : id ∈ l.widgets.ids) {row : CacheRow D}
    (hrow : l.world.cacheRow id = some row) :
    id ∈ l.listExpiredWidgetIDs ↔ row.expiresAt ≤ l.now / resolution := by
  rw [Loop.listExpiredWidgetIDs, List.mem_filter, and_iff_right hid, Loop.expired, hrow,
    decide_eq_true_eq]

theorem Prompt.scan (hs : s.Prompt) (hidle : s.loop.pending = []) (hdue : s.loop.now = s.due) :
    Prompt ⟨{ s.loop with pending := s.loop.listExpiredWidgetIDs }, s.due + period⟩ := by
  have hperiod : period = 10000000000 := by decide
  have hwaiting (id : Int) (hid : id ∈ s.loop.widgets.ids) (row : CacheRow D)
      (hrow : s.loop.world.cacheRow id = some row) :=
    hs.waiting id hid (by simp [hidle]) row hrow
  refine ⟨?_, ?_, ?_⟩
  · have hle := hs.due
    simp only [hperiod]
    omega
  · intro id hid hpending row hrow
    have hfuture : s.due / resolution < row.expiresAt := by
      have hnot := mt (mem_listExpired (l := s.loop) hid hrow).mpr hpending
      rw [hdue] at hnot
      omega
    rw [refreshAt_next hfuture]
    exact hwaiting id hid row hrow
  · intro id hid hpending row hrow
    have hpast : row.expiresAt ≤ s.due / resolution := by
      rw [← hdue]
      exact (mem_listExpired (l := s.loop) hid hrow).mp hpending
    have hle := hwaiting id hid row hrow
    rw [refreshAt_of_expired hpast, ← hdue] at hle
    exact hle

theorem not_mem_ids {t : Widgets} {id : Int} (h : t.get id = none) : id ∉ t.ids := by
  intro hid
  obtain ⟨r, hr, rfl⟩ := List.mem_map.mp hid
  have hne := List.find?_eq_none.mp h r hr
  simp at hne

theorem Prompt.skip (hs : s.Prompt) {id : Int} {pending : List Int}
    (hpending : s.loop.pending = id :: pending) (hget : s.loop.widgets.get id = none) :
    Prompt ⟨{ s.loop with pending := pending }, s.due⟩ := by
  refine ⟨hs.due, ?_, ?_⟩
  · intro id' hid' hwaiting row hrow
    apply hs.waiting id' hid' _ row hrow
    rw [hpending, List.mem_cons, not_or]
    refine ⟨?_, hwaiting⟩
    rintro rfl
    exact not_mem_ids hget hid'
  · intro id' hid' hexpired row hrow
    apply hs.expired id' hid' _ row hrow
    rw [hpending]
    exact List.mem_cons_of_mem _ hexpired

theorem Prompt.edited (hs : s.Prompt) {loop : Loop D} (hnow : loop.now = s.loop.now)
    (hpending : loop.pending = s.loop.pending)
    (hrows : loop.world.cacheRow = s.loop.world.cacheRow)
    (hnew : ∀ id ∈ loop.widgets.ids, id ∉ s.loop.widgets.ids →
      s.loop.world.cacheRow id = none) : Prompt ⟨loop, s.due⟩ := by
  have hold (id : Int) (hid : id ∈ loop.widgets.ids) (row : CacheRow D)
      (hrow : s.loop.world.cacheRow id = some row) : id ∈ s.loop.widgets.ids := by
    by_contra hadded
    rw [hnew id hid hadded] at hrow
    cases hrow
  refine ⟨by rw [hnow]; exact hs.due, ?_, ?_⟩ <;> simp only [hnow, hpending]
  · intro id hid hwaiting row hrow
    rw [hrows] at hrow
    exact hs.waiting id (hold id hid row hrow) hwaiting row hrow
  · intro id hid hexpired row hrow
    rw [hrows] at hrow
    exact hs.expired id (hold id hid row hrow) hexpired row hrow

theorem Prompt.attempted (hs : s.Prompt) {pending : List Int}
    (hpending : s.loop.pending = wgt.id :: pending) (hanswered : Answered b s.loop env wgt)
    (htime : InTime b s env wgt) {loop : Loop D}
    (hworld : loop.world = b.refreshed env s.loop.world wgt) (hnow : loop.now = env.now)
    (hwidgets : loop.widgets = s.loop.widgets) (hrest : loop.pending = pending) :
    Prompt ⟨loop, s.due⟩ := by
  apply hs.refreshed hanswered htime hworld hnow hwidgets
  · rw [hpending, hrest]
    exact List.subset_cons_self _ _
  · intro id hid hdone
    rw [hpending, List.mem_cons] at hid
    rw [hrest] at hdone
    exact hid.resolve_right hdone

theorem Prompt.step {a : Act P D} (hs : s.Prompt) (hhealthy : Healthy b s a)
    (htimely : Timely b s a) (h : (acts b).step s a = some s') : s'.Prompt := by
  cases a with
  | refresh id env =>
      simp only [acts, Watch.step] at h
      split at h
      · cases h
      · rename_i wgt hwgt
        split at h
        · cases h
          exact hs.refreshed (hhealthy wgt hwgt) (htimely wgt hwgt) rfl rfl rfl
            (List.Subset.refl _) fun id' h h' => absurd h h'
        · cases h
  | loop a =>
      cases a with
      | elapse ns =>
          cases h
          obtain ⟨hidle, hdue⟩ := hhealthy
          refine ⟨hdue, hs.waiting, ?_⟩
          intro id _ hpending
          simp [hidle] at hpending
      | edit widgets dataSources widgetSources settings =>
          cases h
          exact hs.edited rfl rfl rfl hhealthy
      | scan failed =>
          obtain ⟨rfl, hdue⟩ := hhealthy
          simp only [acts, Watch.step, Loop.step] at h
          split at h
          · cases h
          · rename_i hidle
            cases h
            exact hs.scan hidle hdue
      | attempt failed env =>
          obtain ⟨rfl, hanswered⟩ := hhealthy
          simp only [acts, Watch.step, Loop.step] at h
          split at h
          · cases h
          · rename_i id pending hpending
            have hhead : id ∈ s.loop.pending.head? := by simp [hpending]
            cases hget : s.loop.widgets.get id with
            | none =>
                simp only [Bool.false_eq_true, if_false, hget, Option.map_some] at h
                cases h
                exact hs.skip hpending hget
            | some wgt =>
                simp only [Bool.false_eq_true, if_false, hget] at h
                split at h
                · cases h
                  have hid := Widgets.get_id hget
                  exact hs.attempted (hid.symm ▸ hpending) (hanswered id hhead wgt hget)
                    (htimely id hhead wgt hget) rfl rfl rfl rfl
                · cases h

/--
In every run in which each fetch succeeds at once and the scan comes every 10 s,
no widget is ever reported as stale, provided that the scan after the expiry of
each row that is written comes within an hour of its fetch.
-/
theorem never_stale {store : Store D} {widgets : Widgets} {now : Int} {es : List (Act P D)}
    (hstored : ∀ id ∈ widgets.ids, ∀ row ∈ store.widgetCache id,
      refreshAt now row.expiresAt ≤ row.fetchedAt * resolution + staleAfter)
    (hsteps : (acts b).Along (fun s a => Healthy b s a ∧ Timely b s a)
      (start store widgets now) es)
    (hrun : (acts b).run (start store widgets now) es = some s) (name : Int → String)
    (dataSources : Option (List (String × DataSource))) :
    ∀ i ∈ (buildHealth dataSources
      (some (listWidgetHealth name s.loop.widgets s.loop.world.cacheRow)) s.loop.now).issues,
      i.kind ≠ .stale := by
  have hs : s.Prompt := by
    apply System.run_invariant_along (I := Prompt) _ _ hsteps hrun
    · intro s a s' hs hc h
      exact hs.step hc.1 hc.2 h
    · exact ⟨Int.le_refl _, fun id hid _ => hstored id hid, fun id _ hpending => by cases hpending⟩
  intro i hi
  rcases mem_assess.mp hi with ⟨src, -, hissue⟩ | ⟨w, hw, hissue⟩
  · exact Source.kind_ne_stale hissue
  · intro hkind
    obtain ⟨t, ht, hold⟩ := Widget.old_of_stale hissue hkind
    obtain ⟨r, hr, rfl⟩ := List.mem_map.mp hw
    obtain ⟨row, hrow, rfl⟩ := Option.map_eq_some_iff.mp ht
    have hid : r.id ∈ s.loop.widgets.ids :=
      List.mem_map_of_mem ((List.mem_insertionSort _).mp hr)
    exact absurd (hs.fresh hid hrow) (Int.not_le.mpr hold)

/-! ## An interval of two hours -/

def ticks (P D : Type) : Nat → List (Act P D)
  | 0 => []
  | n + 1 => .loop (.elapse 10000000000) :: .loop (.scan false) :: ticks P D n

def later (s : Watch D) (n : Nat) : Watch D :=
  ⟨{ s.loop with now := s.loop.now + 10000000000 * n }, s.due + 10000000000 * n⟩

theorem later_succ (s : Watch D) (n : Nat) : (s.later 1).later n = s.later (n + 1) := by
  have hadd (t : Int) : t + 10000000000 * (1 : Nat) + 10000000000 * (n : Nat) =
      t + 10000000000 * (n + 1 : Nat) := by omega
  simp only [later, hadd]

theorem scan_later (b : Broker P D) (hidle : s.loop.pending = [])
    (hlive : ∀ id ∈ s.loop.widgets.ids, ∃ row, s.loop.world.cacheRow id = some row ∧
      s.loop.now / resolution + 10 < row.expiresAt) :
    (acts b).step ⟨{ s.loop with now := s.loop.now + 10000000000 }, s.due⟩
      (.loop (.scan false)) = some (s.later 1) := by
  have hnone : Loop.listExpiredWidgetIDs
      { s.loop with now := s.loop.now + 10000000000 } = [] := by
    rw [Loop.listExpiredWidgetIDs, List.filter_eq_nil_iff]
    intro id hid
    obtain ⟨row, hrow, hlater⟩ := hlive id hid
    have hfuture : (s.loop.now + 10000000000) / resolution < row.expiresAt := by
      unfold resolution at hlater ⊢
      omega
    rw [Loop.expired, hrow]
    simpa using hfuture
  have hperiod : period = 10000000000 := by decide
  simp only [acts, Watch.step, Loop.step, hidle, Bool.false_eq_true, if_false]
  rw [← hidle, hnone, ← hidle, later, hperiod]
  rfl

theorem run_ticks (b : Broker P D) (n : Nat) (hidle : s.loop.pending = [])
    (hdue : s.due = s.loop.now + 10000000000)
    (hlive : ∀ id ∈ s.loop.widgets.ids, ∃ row, s.loop.world.cacheRow id = some row ∧
      s.loop.now / resolution + 10 * n < row.expiresAt) :
    (acts b).run s (ticks P D n) = some (s.later n) ∧
      (acts b).Along (Healthy b) s (ticks P D n) := by
  induction n generalizing s with
  | zero => simp [ticks, later]
  | succ n ih =>
      have hscan := scan_later b hidle (fun id hid => by
        obtain ⟨row, hrow, hlater⟩ := hlive id hid
        exact ⟨row, hrow, by omega⟩)
      have hrest : (acts b).run (s.later 1) (ticks P D n) = some ((s.later 1).later n) ∧
          (acts b).Along (Healthy b) (s.later 1) (ticks P D n) := by
        apply ih (s := s.later 1)
        · exact hidle
        · simp only [later]
          omega
        · intro id hid
          obtain ⟨row, hrow, hlater⟩ := hlive id hid
          refine ⟨row, hrow, ?_⟩
          simp only [later]
          unfold resolution at hlater ⊢
          omega
      obtain ⟨hrun, halong⟩ := hrest
      constructor
      · rw [ticks, System.run_cons_eq_some]
        refine ⟨_, rfl, ?_⟩
        rw [System.run_cons_eq_some]
        refine ⟨_, hscan, ?_⟩
        rw [hrun, later_succ]
      · refine ⟨⟨hidle, by omega⟩, ?_⟩
        rintro _ ⟨⟩
        refine ⟨⟨rfl, by simp only; omega⟩, ?_⟩
        intro s₂ h₂
        cases hscan.symm.trans h₂
        exact halong

private def feed : Broker ConfigJson Unit where
  typ := fun _ => some fun config _ => .ok config
  marshalError := fun _ => none
  openSecret := fun _ => none
  sealSecret := fun _ => none

private def news (refreshIntervalSecs : Int) : Store Unit where
  widgetCache := fun _ => none
  dataSources := fun _ => some
    { type := .rss, config := {}, secretCiphertext := "", oauthStatus := ""
      accessExpiry := none, lastSync := none, lastError := "", health := ""
      refreshIntervalSecs := refreshIntervalSecs }
  widgetSources := [⟨1, 1, "", "", ""⟩]
  settings := fun _ => none

private theorem headlines_key :
    ([⟨1, "rss", .object []⟩] : List WidgetRow).map WidgetRow.id |>.Nodup := by
  decide

private def headlines : Widgets := ⟨[⟨1, "rss", .object []⟩], headlines_key⟩

private def answering (secs : Int) : Env ConfigJson Unit where
  now := secs * resolution
  dbNow := fun _ => secs
  fetch := fun _ => .ok (some (), 0)
  freshToken := fun _ _ _ => .error ⟨none, ""⟩
  faults := {}

theorem never_stale_quarter :
    ∃ s, (acts feed).run (start (news 900) headlines 0) [.loop (.scan false),
        .loop (.attempt false (answering 0)), .loop (.elapse 7000000000),
        .refresh 1 (answering 7)] = some s ∧
      ∀ i ∈ (buildHealth none (some (listWidgetHealth (fun _ => "News") s.loop.widgets
        s.loop.world.cacheRow)) s.loop.now).issues, i.kind ≠ .stale := by
  obtain ⟨s, hrun⟩ : ∃ s, (acts feed).run (start (news 900) headlines 0) [.loop (.scan false),
      .loop (.attempt false (answering 0)), .loop (.elapse 7000000000),
      .refresh 1 (answering 7)] = some s := ⟨_, rfl⟩
  refine ⟨s, hrun, never_stale ?_ ?_ hrun (fun _ => "News") none⟩
  · intro id _ row hrow
    cases hrow
  · refine ⟨⟨⟨rfl, rfl⟩, trivial⟩, ?_⟩
    rintro _ ⟨⟩
    refine ⟨⟨⟨rfl, ?_⟩, by decide⟩, ?_⟩
    · rintro _ ⟨⟩ _ ⟨⟩
      exact ⟨rfl, fun _ => rfl, rfl, _, rfl⟩
    rintro _ ⟨⟩
    refine ⟨⟨⟨rfl, by decide⟩, trivial⟩, ?_⟩
    rintro _ ⟨⟩
    refine ⟨⟨?_, by decide⟩, fun _ _ => trivial⟩
    rintro _ ⟨⟩
    exact ⟨rfl, fun _ => rfl, rfl, _, rfl⟩

/-- The form takes 120 minutes; the widget is stale after an hour. -/
theorem stale_after_hour : sourceRefreshInterval "120" = some 7200 ∧
    ∃ es s, (acts feed).run (start (news 7200) headlines 0) es = some s ∧
      (acts feed).Along (Healthy feed) (start (news 7200) headlines 0) es ∧
      ∃ i ∈ (buildHealth none (some (listWidgetHealth (fun _ => "News") s.loop.widgets
        s.loop.world.cacheRow)) s.loop.now).issues, i.kind = .stale := by
  obtain ⟨s, hfirst, hidle, hdue, hwidgets, hrow, hnow⟩ : ∃ s,
      (acts feed).run (start (news 7200) headlines 0)
        [.loop (.scan false), .loop (.attempt false (answering 0))] = some s ∧
      s.loop.pending = [] ∧ s.due = s.loop.now + 10000000000 ∧ s.loop.widgets = headlines ∧
      s.loop.world.cacheRow 1 = some ⟨.value (), 0, 7200, .ok, ""⟩ ∧ s.loop.now = 0 :=
    ⟨_, rfl, rfl, rfl, rfl, rfl, rfl⟩
  have hlive : ∀ id ∈ s.loop.widgets.ids, ∃ row, s.loop.world.cacheRow id = some row ∧
      s.loop.now / resolution + 10 * (361 : Nat) < row.expiresAt := by
    intro id hid
    rw [hwidgets] at hid
    obtain rfl : id = 1 := by simpa [headlines, Widgets.ids] using hid
    refine ⟨_, hrow, ?_⟩
    rw [hnow]
    decide
  obtain ⟨hticks, hhealthy⟩ := run_ticks feed 361 hidle hdue hlive
  refine ⟨by decide, [.loop (.scan false), .loop (.attempt false (answering 0))] ++
    ticks ConfigJson Unit 361, s.later 361, ?_, ?_, ?_⟩
  · rw [System.run_append hfirst]
    exact hticks
  · refine ⟨⟨rfl, rfl⟩, ?_⟩
    rintro _ ⟨⟩
    refine ⟨⟨rfl, ?_⟩, ?_⟩
    · rintro _ ⟨⟩ _ ⟨⟩
      exact ⟨rfl, fun _ => rfl, rfl, _, rfl⟩
    · intro s' hs'
      cases hfirst.symm.trans hs'
      exact hhealthy
  · refine ⟨⟨.warn, .stale, "News", "News: verouderd"⟩, ?_, rfl⟩
    rw [buildHealth, mem_assess]
    have hlist : listWidgetHealth (fun _ => "News") (s.later 361).loop.widgets
        (s.later 361).loop.world.cacheRow = [⟨"News", some .ok, some 0⟩] := by
      simp only [later, hwidgets]
      simp [listWidgetHealth, headlines, hrow]
    have hlate : (s.later 361).loop.now = 3610000000000 := by
      simp [later, hnow]
    refine Or.inr ⟨⟨"News", some .ok, some 0⟩, ?_, ?_⟩
    · simp [hlist]
    · rw [hlate]
      decide

end Watch

end FamilyPlanner.Health
