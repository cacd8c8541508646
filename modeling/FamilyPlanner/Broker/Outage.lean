import FamilyPlanner.Widget.Outage
import FamilyPlanner.Broker.World

/-!
# A refresh while all sources fail

The widget types that consume data sources, refreshed while every linked
source fails: when the cache keeps the last good data.
-/

namespace FamilyPlanner.Broker

open FamilyPlanner.Foundation FamilyPlanner.Widget

section Refresh

variable {P D : Type} {b : Broker P D} {env : Env P D} {w : World D}

def linked (b : Broker P D) (env : Env P D) (w : World D) (widgetID : Int) :
    List SourceInput :=
  ((b.sourcesFor widgetID).alone env.exec w).1

theorem sourceInputs_types (rows : List SourceRow) (w : World D) :
    (((b.sourceInputs rows).alone env.exec w).1).map SourceInput.type =
      rows.map SourceRow.sourceType := by
  induction rows generalizing w with
  | nil => rfl
  | cons r rows ih =>
      simp only [sourceInputs, Prog.alone_bind, Prog.alone_ret, List.map_cons, ih]
      rfl

theorem linked_types {id : Int} (hlist : env.faults.listWidgetSources = false) :
    (b.linked env w id).map SourceInput.type =
      (w.store.listWidgetSources id).map SourceRow.sourceType := by
  simp only [linked, sourcesFor, Prog.alone_call, Env.exec, hlist]
  exact sourceInputs_types _ _

theorem failed_obtained {wgt : WidgetRow}
    {newProvider : ConfigJson → List SourceInput → Except String P}
    (htyp : b.typ wgt.type = some newProvider)
    (hmarshal : ∀ d, b.marshalError d = none) :
    Failed (b.obtained env w wgt) ↔
      Failed (newProvider wgt.configJson (b.linked env w wgt.id) >>= env.fetch) := by
  simp only [obtained, obtain, linked, htyp, Prog.alone_bind]
  cases newProvider wgt.configJson ((b.sourcesFor wgt.id).alone env.exec w).1 with
  | error err => exact iff_of_true (failed_error err) (failed_error err)
  | ok prov =>
      change _ ↔ Failed (env.fetch prov)
      simp only [Prog.alone_call, Env.exec]
      cases env.fetch prov with
      | error err => simp [Prog.alone_bind]
      | ok fetched =>
          obtain ⟨data, ttl⟩ := fetched
          have hdata : data.bind b.marshalError = none := by
            cases data with
            | none => rfl
            | some d => exact hmarshal d
          simp [Prog.alone_bind, hdata]

end Refresh

structure Env.StoreUp {P D : Type} (env : Env P D) : Prop where
  listed : env.faults.listWidgetSources = false
  read : env.faults.getWidgetCache = false
  marked : env.faults.markWidgetCacheStale = false
  upserted : env.faults.upsertWidgetCache = false

/-- The row is as it was, but for the flag and its message. -/
def World.Flagged {D : Type} (w : World D) (id : Int) (row : CacheRow D) : Prop :=
  ∃ msg, w.cacheRow id = some { row with status := .stale, errorMsg := msg }

theorem flagged_iff_failed {P D : Type} {b : Broker P D} {env : Env P D}
    {w : World D} {wgt : WidgetRow} {row : CacheRow D} (hup : env.StoreUp)
    (hrow : w.cacheRow wgt.id = some row) :
    (b.refreshed env w wgt).Flagged wgt.id row ↔ Failed (b.obtained env w wgt) := by
  cases h : b.obtained env w wgt with
  | error msg =>
      obtain ⟨at_, hcache⟩ := refreshed_of_error h
      simp only [hup.read, hup.marked, hrow] at hcache
      exact iff_of_true ⟨msg, hcache⟩ (failed_error msg)
  | ok fetched =>
      obtain ⟨at_, hcache⟩ := refreshed_of_ok h
      simp only [hup.upserted] at hcache
      refine iff_of_false ?_ (not_failed_ok fetched)
      rintro ⟨msg, hflagged⟩
      simp [hcache] at hflagged

structure SourceBroker extends Broker Provider Data where
  registered : ∀ k : Kind, typ k.id = some k.newProvider
  marshals : ∀ d, marshalError d = none

def Env.online (env : Env Provider Data) (h : Helpers) (net : Net) :
    Env Provider Data :=
  { env with fetch := Provider.fetch h net }

/--
While every linked source of a widget fails, a refresh keeps the row and flags
it exactly when the provider reports the outage.
-/
theorem flagged_iff_reports (b : SourceBroker) (h : Helpers) (net : Net)
    (env : Env Provider Data) (w : World Data) (k : Kind) (id : Int)
    (raw : ConfigJson) (row : CacheRow Data) (hup : env.StoreUp)
    (hrow : w.cacheRow id = some row)
    (hne : w.store.listWidgetSources id ≠ [])
    (hacc : ∀ r ∈ w.store.listWidgetSources id, r.sourceType ∈ k.acceptsSources)
    (hfail : AllFail h net raw (b.linked (env.online h net) w id)) :
    (b.refreshed (env.online h net) w ⟨id, k.id, raw⟩).Flagged id row ↔
      k.Reports h net raw (b.linked (env.online h net) w id) := by
  have htypes : (b.linked (env.online h net) w id).map SourceInput.type =
      (w.store.listWidgetSources id).map SourceRow.sourceType :=
    linked_types hup.listed
  have hne : b.linked (env.online h net) w id ≠ [] := by
    intro hnil
    rw [hnil] at htypes
    exact hne (List.map_eq_nil_iff.mp htypes.symm)
  have hacc : ∀ s ∈ b.linked (env.online h net) w id, s.type ∈ k.acceptsSources := by
    rw [← List.forall_mem_map (f := SourceInput.type), htypes, List.forall_mem_map]
    exact hacc
  calc (b.refreshed (env.online h net) w ⟨id, k.id, raw⟩).Flagged id row
      ↔ Failed (b.obtained (env.online h net) w ⟨id, k.id, raw⟩) :=
        flagged_iff_failed ⟨hup.listed, hup.read, hup.marked, hup.upserted⟩ hrow
    _ ↔ Failed (k.newProvider raw (b.linked (env.online h net) w id) >>=
          Provider.fetch h net) :=
        failed_obtained (b.registered k) b.marshals
    _ ↔ k.Reports h net raw (b.linked (env.online h net) w id) :=
        k.failed_fetch hne hacc hfail

private def album : World Data where
  store :=
    { widgetCache := fun _ => some ⟨.value (.photos ["a.jpg"] [] 8), 0, 60, .ok, ""⟩
      dataSources := fun _ =>
        some ⟨.onedrive, {}, "cipher", "connected", none, none, "", "ok", 0⟩
      widgetSources := [⟨1, 7, "", "folder", ""⟩]
      settings := fun _ => none }
  calls := 0

private def offline : Remote where
  fetchICS _ _ _ := .error "offline"
  fetchRSS _ := .error "offline"
  graphCalendar _ _ _ := .error "offline"
  graphListTodoLists _ := .error "offline"
  graphTodoTasks _ _ := .error "offline"
  graphFolderPhotos _ _ := .error "offline"
  bringLogin _ _ := .error "offline"
  bringResolveList _ _ := ""
  bringItems _ _ _ := .error "offline"

private def offlineNet : Net where
  source _ := offline
  fallbackFeed _ _ _ := .error "offline"
  geocodeReverse _ := ""
  shuffle items := items

private def helpers : Helpers where
  photoDate _ := ""
  geoKey geo := geo
  todoDueLabel _ := ""
  dueByToday _ := false
  window _ := ⟨0, 0⟩
  matchTitle _ _ := true
  dueDay due := due

private def connected : SourceBroker where
  typ t := ([.calendar, .ticker, .photos, .todolist, .shopping] : List Kind).find?
    (·.id = t) |>.map Kind.newProvider
  marshalError _ := none
  openSecret _ := some (.token ⟨"old", "refresh", none⟩)
  sealSecret _ := some "cipher"
  registered k := by cases k <;> rfl
  marshals _ := rfl

private def outage (freshToken : Token → Except OAuthError Token) :
    Env Provider Data where
  now := 0
  dbNow _ := 0
  fetch _ := .error ""
  freshToken _ _ := freshToken
  faults := {}

private def revoked (_ : Token) : Except OAuthError Token :=
  .error ⟨some "invalid_grant", "invalid_grant"⟩

private def folder (secret : Secret) : SourceInput where
  type := .onedrive
  config := {}
  secret := some secret
  filter := ""
  resource := "folder"
  color := ""
  refreshIntervalSecs := 0
  dataSourceID := 7

private theorem allFail_folder (secret : Secret) :
    AllFail helpers offlineNet (.object []) [folder secret] := by
  intro p hp
  rw [List.mem_singleton.mp hp]
  cases secret with
  | accessToken value => exact failed_error "offline"
  | stored secret => exact trivial

theorem flagged_while_folder_unreadable :
    (connected.refreshed ((outage .ok).online helpers offlineNet) album
      ⟨1, Kind.photos.id, .object []⟩).Flagged 1
        ⟨.value (.photos ["a.jpg"] [] 8), 0, 60, .ok, ""⟩ :=
  (flagged_iff_reports connected helpers offlineNet (outage .ok) album .photos 1
    (.object []) _ ⟨rfl, rfl, rfl, rfl⟩ rfl (by decide) (by decide)
    (allFail_folder (.accessToken "old"))).mpr
      (.inr ⟨folder (.accessToken "old"), List.mem_singleton.mpr rfl,
        show "old" ≠ "" by decide⟩)

/-- The token of the only source is not refreshed: an empty list of photos
replaces the cached one, with status `ok`. -/
theorem revoked_token_empties_the_photos :
    album.store.listWidgetSources 1 ≠ [] ∧
    (∀ r ∈ album.store.listWidgetSources 1,
      r.sourceType ∈ Kind.photos.acceptsSources) ∧
    AllFail helpers offlineNet (.object [])
      (connected.linked ((outage revoked).online helpers offlineNet) album 1) ∧
    (connected.refreshed ((outage revoked).online helpers offlineNet) album
      ⟨1, Kind.photos.id, .object []⟩).cacheRow 1 =
        some ⟨.value (.photos [] [] 8), 0, 900, .ok, ""⟩ := by
  refine ⟨by decide, by decide,
    allFail_folder (.stored (.token ⟨"old", "refresh", none⟩)), ?_⟩
  decide

end FamilyPlanner.Broker
