import FamilyPlanner.Broker.Broker

/-!
# What the broker's calls do

The tables the broker reads and writes, the answers from outside during one
`RefreshWidget`, and which of its calls to the store fail.  Running the program
against these gives the effect of a refresh on the row of the cache.
-/

namespace FamilyPlanner.Broker

open FamilyPlanner.Foundation FamilyPlanner.Widget

structure DataSource where
  type : SourceType
  config : SourceConfig
  secretCiphertext : String
  oauthStatus : String
  accessExpiry : Option Int
  lastSync : Option Int
  lastError : String
  health : String
  refreshIntervalSecs : Int
  deriving DecidableEq, Repr

structure WidgetSource where
  widgetID : Int
  dataSourceID : Int
  filter : String
  resource : String
  color : String
  deriving DecidableEq, Repr

/-- The rows of `widget_sources` are in the order of `position` and `id`. -/
structure Store (D : Type) where
  widgetCache : Int → Option (CacheRow D)
  dataSources : Int → Option DataSource
  widgetSources : List WidgetSource
  settings : String → Option String

namespace Store

variable {D : Type}

def listWidgetSources (s : Store D) (widgetID : Int) : List SourceRow :=
  (s.widgetSources.filter (·.widgetID = widgetID)).filterMap fun ws =>
    (s.dataSources ws.dataSourceID).map fun ds =>
      ⟨ws.dataSourceID, ws.filter, ws.resource, ws.color, ds.type, ds.config,
        ds.secretCiphertext, ds.refreshIntervalSecs⟩

def updateDataSource (s : Store D) (id : Int) (f : DataSource → DataSource) :
    Store D :=
  { s with dataSources :=
      Function.update s.dataSources id ((s.dataSources id).map f) }

def upsertWidgetCache (s : Store D) (id : Int) (row : CacheRow D) : Store D :=
  { s with widgetCache := Function.update s.widgetCache id (some row) }

def markWidgetCacheStale (s : Store D) (id : Int) (errorMsg : String) : Store D :=
  { s with widgetCache :=
      Function.update s.widgetCache id ((s.widgetCache id).map fun row =>
        { row with status := .stale, errorMsg := errorMsg }) }

@[simp] theorem updateDataSource_widgetCache (s : Store D) (id : Int)
    (f : DataSource → DataSource) :
    (s.updateDataSource id f).widgetCache = s.widgetCache := rfl

@[simp] theorem upsertWidgetCache_self (s : Store D) (id : Int)
    (row : CacheRow D) :
    (s.upsertWidgetCache id row).widgetCache id = some row := by
  simp [upsertWidgetCache]

@[simp] theorem markWidgetCacheStale_self (s : Store D) (id : Int)
    (errorMsg : String) :
    (s.markWidgetCacheStale id errorMsg).widgetCache id =
      (s.widgetCache id).map fun row =>
        { row with status := .stale, errorMsg := errorMsg } := by
  simp [markWidgetCacheStale]

end Store

/-- The store calls that fail during a refresh; those on `data_sources` by the
number of calls made before. -/
structure Faults where
  listWidgetSources : Bool := false
  getSetting : Bool := false
  getWidgetCache : Bool := false
  markWidgetCacheStale : Bool := false
  upsertWidgetCache : Bool := false
  dataSources : Nat → Bool := fun _ => false

/--
What a refresh meets.  `now` is the reading of `b.now`, `dbNow` that of the
store's `datetime('now')`; calls made more than once are answered by the number
of calls made before.
-/
structure Env (P D : Type) where
  now : Int
  dbNow : Nat → Int
  fetch : P → Except String (Option D × Duration)
  freshToken : Nat → SourceType → Token → Except OAuthError Token
  faults : Faults

structure World (D : Type) where
  store : Store D
  calls : Nat

namespace World

variable {D : Type}

def called (w : World D) : World D := { w with calls := w.calls + 1 }

def write (w : World D) (fault : Bool) (f : Store D → Store D) : World D :=
  if fault then w.called else { w.called with store := f w.store }

abbrev cacheRow (w : World D) (id : Int) : Option (CacheRow D) :=
  w.store.widgetCache id

@[simp] theorem called_store (w : World D) : w.called.store = w.store := rfl

theorem write_store (w : World D) (fault : Bool) (f : Store D → Store D) :
    (w.write fault f).store = if fault then w.store else f w.store := by
  cases fault <;> rfl

end World

variable {P D : Type}

/-- An `UPDATE` or `DELETE` of no row succeeds, a `SELECT ... :one` of none fails. -/
def Env.exec (env : Env P D) : (c : Call P D) → World D → Call.Res c × World D
  | .listWidgetSources widgetID, w =>
      (if env.faults.listWidgetSources then none
        else some (w.store.listWidgetSources widgetID), w.called)
  | .updateDataSourceSecret cipher oauthStatus id, w =>
      ((), w.write (env.faults.dataSources w.calls) fun s =>
        s.updateDataSource id fun ds =>
          { ds with secretCiphertext := cipher, oauthStatus := oauthStatus })
  | .updateDataSourceHealth accessExpiry lastError health id, w =>
      ((), w.write (env.faults.dataSources w.calls) fun s =>
        s.updateDataSource id fun ds =>
          { ds with
            accessExpiry := accessExpiry, lastError := lastError, health := health })
  | .markDataSourceSynced id, w =>
      ((), w.write (env.faults.dataSources w.calls) fun s =>
        s.updateDataSource id fun ds =>
          { ds with lastSync := some (env.dbNow w.calls) })
  | .getSetting key, w =>
      (if env.faults.getSetting then none else w.store.settings key, w.called)
  | .getWidgetCache widgetID, w =>
      (if env.faults.getWidgetCache then none else w.cacheRow widgetID, w.called)
  | .markWidgetCacheStale errorMsg widgetID, w =>
      ((), w.write env.faults.markWidgetCacheStale fun s =>
        s.markWidgetCacheStale widgetID errorMsg)
  | .upsertWidgetCache widgetID dataJson expiresAt status errorMsg, w =>
      ((), w.write env.faults.upsertWidgetCache fun s =>
        s.upsertWidgetCache widgetID
          ⟨dataJson, env.dbNow w.calls, expiresAt, status, errorMsg⟩)
  | .freshToken dsType tok, w => (env.freshToken w.calls dsType tok, w.called)
  | .fetch prov, w => (env.fetch prov, w.called)
  | .now, w => (env.now, w.called)

/-! ## Before the cache is written -/

def Call.WritesCache : Call P D → Prop
  | .markWidgetCacheStale _ _ | .upsertWidgetCache _ _ _ _ _ => True
  | _ => False

abbrev Spare {α : Type} (p : Program P D α) : Prop :=
  p.Only (fun c => ¬ c.WritesCache) fun _ _ => True

theorem exec_cache (env : Env P D) (c : Call P D) (w : World D)
    (hc : ¬ c.WritesCache) :
    (env.exec c w).2.store.widgetCache = w.store.widgetCache := by
  cases c with
  | markWidgetCacheStale | upsertWidgetCache => exact absurd trivial hc
  | listWidgetSources | getSetting | getWidgetCache | freshToken | fetch | now => rfl
  | updateDataSourceSecret | updateDataSourceHealth | markDataSourceSynced =>
      simp only [Env.exec, World.write_store]
      split <;> simp

theorem Spare.alone {α : Type} {p : Program P D α} (hp : Spare p) (env : Env P D)
    (w : World D) :
    (p.alone env.exec w).2.store.widgetCache = w.store.widgetCache :=
  hp.alone_frame (fun w => w.store.widgetCache)
    (fun c w hc => ⟨trivial, exec_cache env c w hc⟩) w

/-- The calls about the health of a source and the settings. -/
def Call.Aside : Call P D → Prop
  | .updateDataSourceHealth _ _ _ _ | .markDataSourceSynced _ | .getSetting _ => True
  | _ => False

abbrev Aside {α : Type} (p : Program P D α) : Prop :=
  p.Only Call.Aside fun _ _ => True

/-- The calls of `obtain`. -/
def Call.Obtains : Call P D → Prop
  | .updateDataSourceSecret _ oauthStatus _ => oauthStatus = "connected"
  | .markWidgetCacheStale _ _ | .upsertWidgetCache _ _ _ _ _ => False
  | _ => True

abbrev Obtaining {α : Type} (p : Program P D α) : Prop :=
  p.Only Call.Obtains fun _ _ => True

theorem Obtaining.spare {α : Type} {p : Program P D α} (hp : Obtaining p) : Spare p := by
  apply Prog.Only.mono hp _ (fun _ _ h => h)
  intro c hc hwrites
  cases c <;> contradiction

theorem Aside.obtaining {α : Type} {p : Program P D α} (hp : Aside p) : Obtaining p := by
  apply Prog.Only.mono hp _ (fun _ _ h => h)
  intro c hc
  cases c with
  | updateDataSourceHealth | markDataSourceSynced | getSetting => trivial
  | _ => cases hc

theorem obtaining_call {α : Type} {c : Call P D}
    {next : Call.Res c → Program P D α} (hc : c.Obtains)
    (hnext : ∀ r, Obtaining (next r)) : Obtaining (.call c next) :=
  ⟨hc, fun r _ => hnext r⟩

theorem obtaining_ret {α : Type} (a : α) : Obtaining (.ret a : Program P D α) := trivial

theorem aside_recordSourceHealth (id : Int) (expiry : Option Int)
    (health errMsg : String) :
    Aside (recordSourceHealth id expiry health errMsg : Program P D Unit) := by
  refine ⟨trivial, fun _ _ => ?_⟩
  split
  · exact ⟨trivial, fun _ _ => Prog.only_ret ()⟩
  · exact Prog.only_ret ()

theorem aside_recordSourcesHealth (fetchErr : Option String)
    (sources : List SourceInput) :
    Aside (recordSourcesHealth fetchErr sources : Program P D Unit) := by
  induction sources with
  | nil => exact Prog.only_ret ()
  | cons s sources ih =>
      unfold recordSourcesHealth
      split
      · exact ih
      · apply Prog.Only.bind _ fun _ => ih
        cases fetchErr with
        | none => exact aside_recordSourceHealth _ _ _ _
        | some e => exact aside_recordSourceHealth _ _ _ _

theorem aside_refreshCap (sources : List SourceInput) :
    Aside (refreshCap sources : Program P D Duration) := by
  unfold refreshCap
  split
  · exact Prog.only_ret _
  · exact ⟨trivial, fun _ _ => Prog.only_ret _⟩

theorem obtaining_refreshOAuth (b : Broker P D) (dsType : SourceType) (id : Int)
    (secret : StoredSecret) : Obtaining (b.refreshOAuth dsType id secret) := by
  unfold refreshOAuth
  cases secret.getToken with
  | none => exact (aside_recordSourceHealth _ _ _ _).obtaining.bind fun _ => obtaining_ret _
  | some tok =>
      refine obtaining_call trivial fun r => ?_
      have hdone (fresh : Token) : Obtaining
          (recordSourceHealth id fresh.expiry "ok" "" >>= fun _ =>
            .ret (some (.accessToken fresh.accessToken)) :
              Program P D (Option Secret)) :=
        (aside_recordSourceHealth _ _ _ _).obtaining.bind fun _ => obtaining_ret _
      cases r with
      | error e => exact (aside_recordSourceHealth _ _ _ _).obtaining.bind fun _ => obtaining_ret _
      | ok fresh =>
          dsimp only
          split
          · cases b.sealSecret (.token fresh) with
            | none => exact hdone fresh
            | some cipher => exact obtaining_call rfl fun _ => hdone fresh
          · exact hdone fresh

theorem obtaining_resolveSecret (b : Broker P D) (r : SourceRow) :
    Obtaining (b.resolveSecret r) := by
  unfold resolveSecret
  dsimp only
  split
  · exact obtaining_ret _
  · split
    · exact (obtaining_refreshOAuth b _ _ _).bind fun _ => obtaining_ret _
    · exact obtaining_ret _

theorem obtaining_sourceInputs (b : Broker P D) (rows : List SourceRow) :
    Obtaining (b.sourceInputs rows) := by
  induction rows with
  | nil => exact obtaining_ret _
  | cons r rows ih =>
      exact (obtaining_resolveSecret b r).bind fun _ => ih.bind fun _ => obtaining_ret _

theorem obtaining_sourcesFor (b : Broker P D) (widgetID : Int) :
    Obtaining (b.sourcesFor widgetID) := by
  refine obtaining_call trivial fun rows => ?_
  cases rows with
  | none => exact obtaining_ret _
  | some rows => exact obtaining_sourceInputs b rows

theorem obtaining_obtain (b : Broker P D) (wgt : WidgetRow) : Obtaining (b.obtain wgt) := by
  unfold obtain
  cases b.typ wgt.type with
  | none => exact obtaining_ret _
  | some newProvider =>
      refine (obtaining_sourcesFor b _).bind fun sources => ?_
      cases newProvider wgt.configJson sources with
      | error err => exact obtaining_ret _
      | ok prov =>
          refine obtaining_call trivial fun r => ?_
          cases r with
          | error err =>
              exact (aside_recordSourcesHealth _ _).obtaining.bind fun _ => obtaining_ret _
          | ok fetched =>
              refine (aside_recordSourcesHealth _ _).obtaining.bind fun _ => ?_
              cases fetched.1.bind b.marshalError with
              | some err => exact obtaining_ret _
              | none => exact (aside_refreshCap _).obtaining.bind fun _ => obtaining_ret _

theorem spare_obtain (b : Broker P D) (wgt : WidgetRow) : Spare (b.obtain wgt) :=
  (obtaining_obtain b wgt).spare

theorem only_markErr {Q : Call P D → Prop} {id : Int} {msg : String}
    (hread : Q (.getWidgetCache id)) (hstale : Q (.markWidgetCacheStale msg id))
    (hnow : Q .now)
    (hupsert : ∀ expiresAt, Q (.upsertWidgetCache id .null expiresAt .error msg)) :
    (markErr id msg : Program P D Unit).Only Q fun _ _ => True := by
  refine ⟨hread, ?_⟩
  intro row _
  cases row with
  | some row => exact ⟨hstale, fun _ _ => Prog.only_ret ()⟩
  | none =>
      refine ⟨hnow, fun _ _ => ?_⟩
      exact ⟨hupsert _, fun _ _ => Prog.only_ret ()⟩

/-! ## The effect of a refresh -/

def obtained (b : Broker P D) (env : Env P D) (w : World D) (wgt : WidgetRow) :
    Except String (DataJson D × Duration) :=
  ((b.obtain wgt).alone env.exec w).1

def refreshed (b : Broker P D) (env : Env P D) (w : World D) (wgt : WidgetRow) :
    World D :=
  ((b.refreshWidget wgt).alone env.exec w).2

variable {b : Broker P D} {env : Env P D} {w : World D} {wgt : WidgetRow}

theorem refreshed_eq (b : Broker P D) (env : Env P D) (w : World D)
    (wgt : WidgetRow) : ∃ v : World D, v.store.widgetCache = w.store.widgetCache ∧
      b.refreshed env w wgt =
        match b.obtained env w wgt with
        | .error msg => ((markErr wgt.id msg).alone env.exec v).2
        | .ok (js, ttl) =>
            (env.exec (.upsertWidgetCache wgt.id js (stamp env.now ttl) .ok "")
              v.called).2 := by
  refine ⟨((b.obtain wgt).alone env.exec w).2, (spare_obtain b wgt).alone env w, ?_⟩
  unfold refreshed obtained refreshWidget
  rw [Prog.alone_bind]
  cases ((b.obtain wgt).alone env.exec w).1 with
  | error msg => rfl
  | ok fetched => rfl

theorem refreshed_of_ok_at {js : DataJson D} {ttl : Duration}
    (h : b.obtained env w wgt = .ok (js, ttl)) : ∃ n : Nat,
      (b.refreshed env w wgt).cacheRow wgt.id =
        if env.faults.upsertWidgetCache then w.cacheRow wgt.id
        else some ⟨js, env.dbNow n, stamp env.now ttl, .ok, ""⟩ := by
  obtain ⟨v, hv, heq⟩ := refreshed_eq b env w wgt
  refine ⟨v.called.calls, ?_⟩
  rw [heq, h]
  simp only [World.cacheRow, Env.exec, World.write_store]
  split
  · rw [World.called_store, hv]
  · simp

theorem refreshed_of_ok {js : DataJson D} {ttl : Duration}
    (h : b.obtained env w wgt = .ok (js, ttl)) : ∃ at_ : Int,
      (b.refreshed env w wgt).cacheRow wgt.id =
        if env.faults.upsertWidgetCache then w.cacheRow wgt.id
        else some ⟨js, at_, stamp env.now ttl, .ok, ""⟩ := by
  obtain ⟨n, hrow⟩ := refreshed_of_ok_at h
  exact ⟨_, hrow⟩

theorem refreshed_of_error {msg : String}
    (h : b.obtained env w wgt = .error msg) : ∃ at_ : Int,
      (b.refreshed env w wgt).cacheRow wgt.id =
        match (if env.faults.getWidgetCache then none else w.cacheRow wgt.id) with
        | some row =>
            if env.faults.markWidgetCacheStale then some row
            else some { row with status := .stale, errorMsg := msg }
        | none =>
            if env.faults.upsertWidgetCache then w.cacheRow wgt.id
            else some ⟨.null, at_, stamp env.now (seconds interval), .error, msg⟩ := by
  obtain ⟨v, hv, heq⟩ := refreshed_eq b env w wgt
  refine ⟨env.dbNow v.called.called.calls, ?_⟩
  rw [heq, h]
  have hget : (env.exec (.getWidgetCache wgt.id) v).1 =
      if env.faults.getWidgetCache then none else w.cacheRow wgt.id := by
    simp only [Env.exec, World.cacheRow, hv]
  simp only [markErr, Prog.alone_call, hget]
  cases hread : if env.faults.getWidgetCache then none else w.cacheRow wgt.id with
  | some row =>
      have hw : w.cacheRow wgt.id = some row := by grind
      simp only [Prog.alone_call, Prog.alone_ret, Env.exec, World.cacheRow,
        World.write_store, World.called_store]
      split
      · rw [hv]
        exact hw
      · simp [hv, hw]
  | none =>
      simp only [Prog.alone_call, Prog.alone_ret, Env.exec, World.cacheRow,
        World.write_store, World.called_store]
      split
      · rw [hv]
      · simp

end FamilyPlanner.Broker
