import FamilyPlanner.Foundation.Run
import FamilyPlanner.Foundation.Table

/-!
# The database

The statements of all queries that write, one at a time over a single
connection, in any order.  A refresh of a widget reads its row and writes what
it fetched later, whatever has happened to the widget in the meantime.
-/

namespace FamilyPlanner.Server.Catalog

open FamilyPlanner.Foundation

/-! ## The tables -/

structure View where
  name : String
  cols : Int
  rows : Int
  themeId : String
  inRotation : Int
  rotationOrder : Int
  dwellSeconds : Int
  layoutJson : String := ""
  renderMode : String := "grid"
  advanceMode : String := "timer"
  createdAt : String
  updatedAt : String
  deriving DecidableEq, Repr

structure Widget where
  name : String
  type : String
  configJson : String
  createdAt : String
  updatedAt : String
  deriving DecidableEq, Repr

structure Placement where
  viewId : Int
  widgetId : Int
  col : Int
  row : Int
  colSpan : Int
  rowSpan : Int
  placementConfigJson : String
  deriving DecidableEq, Repr

structure KioskDevice where
  name : String
  tokenHash : String
  playlistId : Int := 0
  pipPlaylistId : Int := 0
  pipConfigJson : String := ""
  createdAt : String
  lastSeen : String := ""
  deriving DecidableEq, Repr

structure Playlist where
  name : String
  isDefault : Int
  defaultDwellSeconds : Int
  pipWidgetId : Int := 0
  pipConfigJson : String := ""
  createdAt : String
  updatedAt : String
  deriving DecidableEq, Repr

structure PlaylistItem where
  playlistId : Int
  viewId : Int
  position : Int
  dwellSeconds : Int
  deriving DecidableEq, Repr

structure DataSource where
  name : String
  type : String
  configJson : String
  secretCiphertext : String
  oauthStatus : String := ""
  accessExpiry : String := ""
  lastSync : String := ""
  lastError : String := ""
  health : String := ""
  refreshIntervalSecs : Int := 0
  createdAt : String
  updatedAt : String
  deriving DecidableEq, Repr

structure WidgetSource where
  widgetId : Int
  dataSourceId : Int
  filter : String
  resource : String := ""
  color : String := ""
  position : Int
  deriving DecidableEq, Repr

inductive DataJson where
  | null
  | fetched (type json : String)
  deriving DecidableEq, Repr

def DataJson.Fits : DataJson → String → Prop
  | .null, _ => True
  | .fetched type _, type' => type = type'

structure WidgetCache where
  widgetId : Int
  dataJson : DataJson
  fetchedAt : String
  expiresAt : String
  status : String
  errorMsg : String
  deriving DecidableEq, Repr

structure Db where
  settings : List (String × String) := []
  views : Table View := {}
  widgets : Table Widget := {}
  placements : Table Placement := {}
  kioskDevices : Table KioskDevice := {}
  playlists : Table Playlist := {}
  playlistItems : Table PlaylistItem := {}
  dataSources : Table DataSource := {}
  widgetSources : Table WidgetSource := {}
  widgetCache : List WidgetCache := []

/-! ## The statements -/

/-- Only a refresh upserts the cache. -/
inductive Query where
  | setSetting (key value : String)
  | createView (name : String) (cols rows : Int) (themeId : String)
      (inRotation rotationOrder dwellSeconds : Int)
  | setViewLayout (layoutJson : String) (id : Int)
  | updateView (name : String) (cols rows : Int) (themeId : String) (id : Int)
  | updateViewName (name : String) (id : Int)
  | updateViewMode (renderMode : String) (id : Int)
  | updateViewAdvance (advanceMode : String) (id : Int)
  | deleteView (id : Int)
  | createWidget (name type configJson : String)
  | updateWidget (name configJson : String) (id : Int)
  | deleteWidget (id : Int)
  | createPlacement (p : Placement)
  | createDevice (name tokenHash : String)
  | touchDevice (lastSeen : String) (id : Int)
  | updateDeviceName (name : String) (id : Int)
  | setDevicePlaylist (playlistId id : Int)
  | setDevicePip (pipPlaylistId : Int) (pipConfigJson : String) (id : Int)
  | deleteDevice (id : Int)
  | createPlaylist (name : String) (isDefault defaultDwellSeconds : Int)
  | updatePlaylist (name : String) (defaultDwellSeconds id : Int)
  | clearDefaultPlaylists
  | setDefaultPlaylist (id : Int)
  | deletePlaylist (id : Int)
  | addPlaylistItem (item : PlaylistItem)
  | updatePlaylistItemPosition (position id : Int)
  | updatePlaylistItemDwell (dwellSeconds id : Int)
  | deletePlaylistItem (id : Int)
  | createDataSource (name type configJson secretCiphertext : String)
  | updateDataSourceSecret (secretCiphertext oauthStatus : String) (id : Int)
  | updateDataSourceConfig (configJson : String) (id : Int)
  | updateDataSourceName (name : String) (id : Int)
  | updateDataSourceRefreshInterval (refreshIntervalSecs id : Int)
  | updateDataSourceHealth (accessExpiry lastError health : String) (id : Int)
  | markDataSourceSynced (id : Int)
  | deleteDataSource (id : Int)
  | addWidgetSource (widgetId dataSourceId : Int) (filter : String) (position : Int)
  | updateWidgetSourceColor (color : String) (id : Int)
  | updateWidgetSourceResource (resource : String) (id : Int)
  | deleteWidgetSource (id : Int)
  | markWidgetCacheStale (errorMsg : String) (widgetId : Int)
  | clearWidgetCache
  deriving Repr

namespace Db

variable (db : Db)

def upsertWidgetCache (c : WidgetCache) : Option Db :=
  if db.widgets.has c.widgetId then
    some { db with
      widgetCache :=
        if c.widgetId ∈ db.widgetCache.map (·.widgetId) then
          db.widgetCache.map fun r => if r.widgetId = c.widgetId then c else r
        else db.widgetCache ++ [c] }
  else none

/-- At the time `now`; a statement that violates a constraint fails. -/
def exec (now : String) : Query → Option Db
  | .setSetting key value =>
      some { db with
        settings :=
          if key ∈ db.settings.map Prod.fst then
            db.settings.map fun s => if s.1 = key then (key, value) else s
          else db.settings ++ [(key, value)] }
  | .createView name cols rows themeId inRotation rotationOrder dwellSeconds =>
      some { db with
        views := db.views.insert
          { name, cols, rows, themeId, inRotation, rotationOrder, dwellSeconds,
            createdAt := now, updatedAt := now } }
  | .setViewLayout layoutJson id =>
      some { db with
        views := db.views.modify (· = id) fun v => { v with layoutJson, updatedAt := now } }
  | .updateView name cols rows themeId id =>
      some { db with
        views := db.views.modify (· = id) fun v =>
          { v with name, cols, rows, themeId, updatedAt := now } }
  | .updateViewName name id =>
      some { db with
        views := db.views.modify (· = id) fun v => { v with name, updatedAt := now } }
  | .updateViewMode renderMode id =>
      some { db with
        views := db.views.modify (· = id) fun v => { v with renderMode, updatedAt := now } }
  | .updateViewAdvance advanceMode id =>
      some { db with
        views := db.views.modify (· = id) fun v => { v with advanceMode, updatedAt := now } }
  | .deleteView id =>
      some { db with
        views := db.views.deleteId id
        placements := db.placements.cascade (·.viewId) id
        playlistItems := db.playlistItems.cascade (·.viewId) id }
  | .createWidget name type configJson =>
      some { db with
        widgets := db.widgets.insert
          { name, type, configJson, createdAt := now, updatedAt := now } }
  | .updateWidget name configJson id =>
      some { db with
        widgets := db.widgets.modify (· = id) fun w =>
          { w with name, configJson, updatedAt := now } }
  | .deleteWidget id =>
      some { db with
        widgets := db.widgets.deleteId id
        placements := db.placements.cascade (·.widgetId) id
        widgetSources := db.widgetSources.cascade (·.widgetId) id
        widgetCache := db.widgetCache.filter (·.widgetId ≠ id) }
  | .createPlacement p =>
      if db.views.has p.viewId ∧ db.widgets.has p.widgetId then
        some { db with placements := db.placements.insert p }
      else none
  | .createDevice name tokenHash =>
      if tokenHash ∈ db.kioskDevices.rows.map (·.2.tokenHash) then none
      else
        some { db with
          kioskDevices := db.kioskDevices.insert { name, tokenHash, createdAt := now } }
  | .touchDevice lastSeen id =>
      some { db with
        kioskDevices := db.kioskDevices.modify (· = id) fun d => { d with lastSeen } }
  | .updateDeviceName name id =>
      some { db with
        kioskDevices := db.kioskDevices.modify (· = id) fun d => { d with name } }
  | .setDevicePlaylist playlistId id =>
      some { db with
        kioskDevices := db.kioskDevices.modify (· = id) fun d => { d with playlistId } }
  | .setDevicePip pipPlaylistId pipConfigJson id =>
      some { db with
        kioskDevices := db.kioskDevices.modify (· = id) fun d =>
          { d with pipPlaylistId, pipConfigJson } }
  | .deleteDevice id => some { db with kioskDevices := db.kioskDevices.deleteId id }
  | .createPlaylist name isDefault defaultDwellSeconds =>
      some { db with
        playlists := db.playlists.insert
          { name, isDefault, defaultDwellSeconds, createdAt := now, updatedAt := now } }
  | .updatePlaylist name defaultDwellSeconds id =>
      some { db with
        playlists := db.playlists.modify (· = id) fun p =>
          { p with name, defaultDwellSeconds, updatedAt := now } }
  | .clearDefaultPlaylists =>
      some { db with
        playlists := db.playlists.modify (fun _ => true) fun p => { p with isDefault := 0 } }
  | .setDefaultPlaylist id =>
      some { db with
        playlists := db.playlists.modify (· = id) fun p => { p with isDefault := 1 } }
  | .deletePlaylist id =>
      some { db with
        playlists := db.playlists.deleteId id
        playlistItems := db.playlistItems.cascade (·.playlistId) id }
  | .addPlaylistItem item =>
      if db.playlists.has item.playlistId ∧ db.views.has item.viewId then
        some { db with playlistItems := db.playlistItems.insert item }
      else none
  | .updatePlaylistItemPosition position id =>
      some { db with
        playlistItems := db.playlistItems.modify (· = id) fun i => { i with position } }
  | .updatePlaylistItemDwell dwellSeconds id =>
      some { db with
        playlistItems := db.playlistItems.modify (· = id) fun i => { i with dwellSeconds } }
  | .deletePlaylistItem id => some { db with playlistItems := db.playlistItems.deleteId id }
  | .createDataSource name type configJson secretCiphertext =>
      some { db with
        dataSources := db.dataSources.insert
          { name, type, configJson, secretCiphertext, createdAt := now, updatedAt := now } }
  | .updateDataSourceSecret secretCiphertext oauthStatus id =>
      some { db with
        dataSources := db.dataSources.modify (· = id) fun d =>
          { d with secretCiphertext, oauthStatus, updatedAt := now } }
  | .updateDataSourceConfig configJson id =>
      some { db with
        dataSources := db.dataSources.modify (· = id) fun d =>
          { d with configJson, updatedAt := now } }
  | .updateDataSourceName name id =>
      some { db with
        dataSources := db.dataSources.modify (· = id) fun d =>
          { d with name, updatedAt := now } }
  | .updateDataSourceRefreshInterval refreshIntervalSecs id =>
      some { db with
        dataSources := db.dataSources.modify (· = id) fun d =>
          { d with refreshIntervalSecs, updatedAt := now } }
  | .updateDataSourceHealth accessExpiry lastError health id =>
      some { db with
        dataSources := db.dataSources.modify (· = id) fun d =>
          { d with accessExpiry, lastError, health, updatedAt := now } }
  | .markDataSourceSynced id =>
      some { db with
        dataSources := db.dataSources.modify (· = id) fun d => { d with lastSync := now } }
  | .deleteDataSource id =>
      some { db with
        dataSources := db.dataSources.deleteId id
        widgetSources := db.widgetSources.cascade (·.dataSourceId) id }
  | .addWidgetSource widgetId dataSourceId filter position =>
      if db.widgets.has widgetId ∧ db.dataSources.has dataSourceId then
        some { db with
          widgetSources := db.widgetSources.insert { widgetId, dataSourceId, filter, position } }
      else none
  | .updateWidgetSourceColor color id =>
      some { db with
        widgetSources := db.widgetSources.modify (· = id) fun l => { l with color } }
  | .updateWidgetSourceResource resource id =>
      some { db with
        widgetSources := db.widgetSources.modify (· = id) fun l => { l with resource } }
  | .deleteWidgetSource id => some { db with widgetSources := db.widgetSources.deleteId id }
  | .markWidgetCacheStale errorMsg widgetId =>
      some { db with
        widgetCache := db.widgetCache.map fun c =>
          if c.widgetId = widgetId then { c with status := "stale", errorMsg } else c }
  | .clearWidgetCache => some { db with widgetCache := [] }

end Db

/-! ## Refreshes -/

/-- A refresh with the row that it read; `started` is history, the database then. -/
structure Refresh where
  id : Int
  type : String
  started : Db

structure World where
  db : Db := {}
  refreshes : List Refresh := []

/-- A refresh may write at any time; `markErr` upserts what no provider fetched. -/
inductive Act where
  | query (now : String) (q : Query)
  | refreshWidget (id : Int)
  | fetched (i : Nat) (now json expiresAt : String)
  | markErr (i : Nat) (now expiresAt msg : String)
  deriving Repr

namespace World

variable (w : World)

def upsert (c : WidgetCache) : World :=
  { w with db := (w.db.upsertWidgetCache c).getD w.db }

def step : Act → Option World
  | .query now q => some { w with db := (w.db.exec now q).getD w.db }
  | .refreshWidget id => do
      let wgt ← w.db.widgets.get id
      return { w with refreshes := w.refreshes ++ [⟨id, wgt.type, w.db⟩] }
  | .fetched i now json expiresAt => do
      let r ← w.refreshes[i]?
      return w.upsert ⟨r.id, .fetched r.type json, now, expiresAt, "ok", ""⟩
  | .markErr i now expiresAt msg => do
      let r ← w.refreshes[i]?
      return w.upsert ⟨r.id, .null, now, expiresAt, "error", msg⟩

end World

def system : System World Act := ⟨World.step⟩

/-! ## What every statement keeps -/

/-- No foreign key refers to a row that is not there, and a cached value is one
of its widget's own type.  The playlists of a device are no foreign keys: they
stay when their playlist is deleted. -/
structure Db.Sound (db : Db) : Prop where
  views : db.views.Sound
  widgets : db.widgets.Sound
  placements : db.placements.Sound
  kioskDevices : db.kioskDevices.Sound
  playlists : db.playlists.Sound
  playlistItems : db.playlistItems.Sound
  dataSources : db.dataSources.Sound
  widgetSources : db.widgetSources.Sound
  placementView : Table.Refers (·.viewId) db.placements db.views
  placementWidget : Table.Refers (·.widgetId) db.placements db.widgets
  itemPlaylist : Table.Refers (·.playlistId) db.playlistItems db.playlists
  itemView : Table.Refers (·.viewId) db.playlistItems db.views
  sourceWidget : Table.Refers (·.widgetId) db.widgetSources db.widgets
  sourceData : Table.Refers (·.dataSourceId) db.widgetSources db.dataSources
  tokens : (db.kioskDevices.rows.map (·.2.tokenHash)).Nodup
  keys : (db.settings.map Prod.fst).Nodup
  caches : (db.widgetCache.map (·.widgetId)).Nodup
  cached : ∀ c ∈ db.widgetCache,
    ∃ wgt, (c.widgetId, wgt) ∈ db.widgets.rows ∧ c.dataJson.Fits wgt.type

/-- What stays of a row as long as it is there: its foreign keys among it. -/
structure Db.Follows (db db' : Db) : Prop where
  views : Table.Follows (·.createdAt) db.views db'.views
  widgets : Table.Follows (·.type) db.widgets db'.widgets
  placements : Table.Follows id db.placements db'.placements
  kioskDevices : Table.Follows (·.tokenHash) db.kioskDevices db'.kioskDevices
  playlists : Table.Follows (·.createdAt) db.playlists db'.playlists
  playlistItems : Table.Follows (fun i => (i.playlistId, i.viewId)) db.playlistItems
    db'.playlistItems
  dataSources : Table.Follows (·.type) db.dataSources db'.dataSources
  widgetSources : Table.Follows (fun l => (l.widgetId, l.dataSourceId, l.filter, l.position))
    db.widgetSources db'.widgetSources

namespace Db

variable {db db' db'' : Db} {p : Int → Bool}

theorem Follows.refl (db : Db) : db.Follows db :=
  ⟨.refl _, .refl _, .refl _, .refl _, .refl _, .refl _, .refl _, .refl _⟩

theorem Follows.trans (h : db.Follows db') (h' : db'.Follows db'') : db.Follows db'' where
  views := h.views.trans h'.views
  widgets := h.widgets.trans h'.widgets
  placements := h.placements.trans h'.placements
  kioskDevices := h.kioskDevices.trans h'.kioskDevices
  playlists := h.playlists.trans h'.playlists
  playlistItems := h.playlistItems.trans h'.playlistItems
  dataSources := h.dataSources.trans h'.dataSources
  widgetSources := h.widgetSources.trans h'.widgetSources

/-! ### One table at a time -/

theorem Sound.modifyViews (h : db.Sound) {f : View → View} :
    Sound { db with views := db.views.modify p f } :=
  { h with
    views := h.views.modify
    placementView := h.placementView.modify_target
    itemView := h.itemView.modify_target }

theorem Sound.modifyWidgets (h : db.Sound) {f : Widget → Widget}
    (hkeep : ∀ w, (f w).type = w.type) :
    Sound { db with widgets := db.widgets.modify p f } :=
  { h with
    widgets := h.widgets.modify
    placementWidget := h.placementWidget.modify_target
    sourceWidget := h.sourceWidget.modify_target
    cached := by
      intro c hc
      obtain ⟨wgt, hwgt, hfits⟩ := h.cached c hc
      obtain ⟨wgt', hwgt', htype⟩ :=
        Table.mem_modify_of_mem (p := p) (f := f) (·.type) hwgt hkeep
      refine ⟨wgt', hwgt', ?_⟩
      rw [show wgt'.type = wgt.type from htype]
      exact hfits }

theorem Sound.modifyDevices (h : db.Sound) {f : KioskDevice → KioskDevice}
    (hkeep : ∀ d, (f d).tokenHash = d.tokenHash) :
    Sound { db with kioskDevices := db.kioskDevices.modify p f } :=
  { h with
    kioskDevices := h.kioskDevices.modify
    tokens := by
      have heq : (db.kioskDevices.modify p f).rows.map (·.2.tokenHash) =
          db.kioskDevices.rows.map (·.2.tokenHash) := by
        rw [Table.modify, List.map_map]
        apply List.map_congr_left
        intro r _
        dsimp only [Function.comp_apply]
        split
        · exact hkeep r.2
        · rfl
      dsimp only
      rw [heq]
      exact h.tokens }

theorem Sound.modifyPlaylists (h : db.Sound) {f : Playlist → Playlist} :
    Sound { db with playlists := db.playlists.modify p f } :=
  { h with
    playlists := h.playlists.modify
    itemPlaylist := h.itemPlaylist.modify_target }

theorem Sound.modifyItems (h : db.Sound) {f : PlaylistItem → PlaylistItem}
    (hkeep : ∀ i, (f i).playlistId = i.playlistId ∧ (f i).viewId = i.viewId) :
    Sound { db with playlistItems := db.playlistItems.modify p f } :=
  { h with
    playlistItems := h.playlistItems.modify
    itemPlaylist := h.itemPlaylist.modify fun i => (hkeep i).1
    itemView := h.itemView.modify fun i => (hkeep i).2 }

theorem Sound.modifySources (h : db.Sound) {f : DataSource → DataSource} :
    Sound { db with dataSources := db.dataSources.modify p f } :=
  { h with
    dataSources := h.dataSources.modify
    sourceData := h.sourceData.modify_target }

theorem Sound.modifyLinks (h : db.Sound) {f : WidgetSource → WidgetSource}
    (hkeep : ∀ l, (f l).widgetId = l.widgetId ∧ (f l).dataSourceId = l.dataSourceId) :
    Sound { db with widgetSources := db.widgetSources.modify p f } :=
  { h with
    widgetSources := h.widgetSources.modify
    sourceWidget := h.sourceWidget.modify fun l => (hkeep l).1
    sourceData := h.sourceData.modify fun l => (hkeep l).2 }

theorem Sound.deleteWidget (h : db.Sound) (id : Int) :
    Sound { db with
      widgets := db.widgets.deleteId id
      placements := db.placements.cascade (·.widgetId) id
      widgetSources := db.widgetSources.cascade (·.widgetId) id
      widgetCache := db.widgetCache.filter (·.widgetId ≠ id) } :=
  { h with
    widgets := h.widgets.deleteId
    placements := h.placements.cascade
    widgetSources := h.widgetSources.cascade
    placementView := h.placementView.cascade_other
    placementWidget := h.placementWidget.cascade
    sourceWidget := h.sourceWidget.cascade
    sourceData := h.sourceData.cascade_other
    caches := h.caches.sublist (List.filter_sublist.map _)
    cached := by
      intro c hc
      obtain ⟨hmem, hne⟩ := List.mem_filter.mp hc
      obtain ⟨wgt, hwgt, hfits⟩ := h.cached c hmem
      exact ⟨wgt, Table.mem_delete.mpr ⟨hwgt, decide_eq_false (of_decide_eq_true hne)⟩, hfits⟩ }

theorem Sound.insertDevice (h : db.Sound) {d : KioskDevice}
    (hnew : d.tokenHash ∉ db.kioskDevices.rows.map (·.2.tokenHash)) :
    Sound { db with kioskDevices := db.kioskDevices.insert d } :=
  { h with
    kioskDevices := h.kioskDevices.insert
    tokens := by
      simp only [Table.insert, List.map_append, List.nodup_append]
      refine ⟨h.tokens, by simp, ?_⟩
      rintro token hold token' hd rfl
      obtain rfl : token = d.tokenHash := by simpa using hd
      exact hnew hold }

theorem Follows.modifyViews {f : View → View}
    (hkeep : ∀ v, (f v).createdAt = v.createdAt) :
    db.Follows { db with views := db.views.modify p f } :=
  { Follows.refl db with views := Table.Follows.modify hkeep }

theorem Follows.modifyWidgets {f : Widget → Widget}
    (hkeep : ∀ w, (f w).type = w.type) :
    db.Follows { db with widgets := db.widgets.modify p f } :=
  { Follows.refl db with widgets := Table.Follows.modify hkeep }

theorem Follows.modifyDevices {f : KioskDevice → KioskDevice}
    (hkeep : ∀ d, (f d).tokenHash = d.tokenHash) :
    db.Follows { db with kioskDevices := db.kioskDevices.modify p f } :=
  { Follows.refl db with kioskDevices := Table.Follows.modify hkeep }

theorem Follows.modifyPlaylists {f : Playlist → Playlist}
    (hkeep : ∀ p, (f p).createdAt = p.createdAt) :
    db.Follows { db with playlists := db.playlists.modify p f } :=
  { Follows.refl db with playlists := Table.Follows.modify hkeep }

theorem Follows.modifyItems {f : PlaylistItem → PlaylistItem}
    (hkeep : ∀ i, ((f i).playlistId, (f i).viewId) = (i.playlistId, i.viewId)) :
    db.Follows { db with playlistItems := db.playlistItems.modify p f } :=
  { Follows.refl db with playlistItems := Table.Follows.modify hkeep }

theorem Follows.modifySources {f : DataSource → DataSource}
    (hkeep : ∀ d, (f d).type = d.type) :
    db.Follows { db with dataSources := db.dataSources.modify p f } :=
  { Follows.refl db with dataSources := Table.Follows.modify hkeep }

theorem Follows.modifyLinks {f : WidgetSource → WidgetSource}
    (hkeep : ∀ l, ((f l).widgetId, (f l).dataSourceId, (f l).filter, (f l).position) =
      (l.widgetId, l.dataSourceId, l.filter, l.position)) :
    db.Follows { db with widgetSources := db.widgetSources.modify p f } :=
  { Follows.refl db with widgetSources := Table.Follows.modify hkeep }

/-! ### All of them -/

theorem map_key_of_update {β : Type*} {l : List β} {key : β → Int} {c : β} :
    (l.map fun r => if key r = key c then c else r).map key = l.map key := by
  rw [List.map_map]
  apply List.map_congr_left
  intro r _
  dsimp only [Function.comp_apply]
  split
  case isTrue h => exact h.symm
  case isFalse => rfl

theorem Sound.setSetting (h : db.Sound) (key value : String) :
    Sound { db with
      settings :=
        if key ∈ db.settings.map Prod.fst then
          db.settings.map fun s => if s.1 = key then (key, value) else s
        else db.settings ++ [(key, value)] } :=
  { h with
    keys := by
      dsimp only
      split
      case isTrue =>
          have heq : (db.settings.map fun s => if s.1 = key then (key, value) else s).map Prod.fst =
              db.settings.map Prod.fst := by
            rw [List.map_map]
            apply List.map_congr_left
            intro s _
            dsimp only [Function.comp_apply]
            split
            case isTrue hs => exact hs.symm
            case isFalse => rfl
          rw [heq]
          exact h.keys
      case isFalse hnew =>
          rw [List.map_append, List.nodup_append]
          refine ⟨h.keys, by simp, ?_⟩
          rintro k hk k' hk' rfl
          obtain rfl : k = key := by simpa using hk'
          exact hnew hk }

theorem Sound.markStale (h : db.Sound) (errorMsg : String) (id : Int) :
    Sound { db with
      widgetCache := db.widgetCache.map fun c =>
        if c.widgetId = id then { c with status := "stale", errorMsg } else c } :=
  { h with
    caches := by
      have heq : (db.widgetCache.map fun c => if c.widgetId = id then
          { c with status := "stale", errorMsg } else c).map (·.widgetId) =
          db.widgetCache.map (·.widgetId) := by
        rw [List.map_map]
        apply List.map_congr_left
        intro c _
        dsimp only [Function.comp_apply]
        split
        · rfl
        · rfl
      dsimp only
      rw [heq]
      exact h.caches
    cached := by
      intro c hc
      obtain ⟨c₀, hc₀, rfl⟩ := List.mem_map.mp hc
      have hcached := h.cached c₀ hc₀
      split
      · exact hcached
      · exact hcached }

theorem exec_sound {now : String} {q : Query} (h : db.Sound) (hexec : db.exec now q = some db') :
    db'.Sound := by
  cases q with
  | setSetting key value =>
      cases hexec
      exact h.setSetting key value
  | createView =>
      cases hexec
      exact { h with
        views := h.views.insert
        placementView := h.placementView.insert_target
        itemView := h.itemView.insert_target }
  | setViewLayout | updateView | updateViewName | updateViewMode | updateViewAdvance =>
      cases hexec
      exact h.modifyViews
  | deleteView id =>
      cases hexec
      exact { h with
        views := h.views.deleteId
        placements := h.placements.cascade
        playlistItems := h.playlistItems.cascade
        placementView := h.placementView.cascade
        placementWidget := h.placementWidget.cascade_other
        itemPlaylist := h.itemPlaylist.cascade_other
        itemView := h.itemView.cascade }
  | createWidget =>
      cases hexec
      exact { h with
        widgets := h.widgets.insert
        placementWidget := h.placementWidget.insert_target
        sourceWidget := h.sourceWidget.insert_target
        cached := by
          intro c hc
          obtain ⟨wgt, hwgt, hfits⟩ := h.cached c hc
          exact ⟨wgt, Table.mem_insert.mpr (.inl hwgt), hfits⟩ }
  | updateWidget =>
      cases hexec
      exact h.modifyWidgets fun w => rfl
  | deleteWidget id =>
      cases hexec
      exact h.deleteWidget id
  | createPlacement p =>
      obtain ⟨⟨hview, hwidget⟩, hexec⟩ := Option.ite_none_right_eq_some.mp hexec
      cases hexec
      exact { h with
        placements := h.placements.insert
        placementView := h.placementView.insert hview
        placementWidget := h.placementWidget.insert hwidget }
  | createDevice name tokenHash =>
      obtain ⟨hnew, hexec⟩ := Option.ite_none_left_eq_some.mp hexec
      cases hexec
      exact h.insertDevice hnew
  | touchDevice | updateDeviceName | setDevicePlaylist | setDevicePip =>
      cases hexec
      exact h.modifyDevices fun d => rfl
  | deleteDevice id =>
      cases hexec
      exact { h with
        kioskDevices := h.kioskDevices.deleteId
        tokens := h.tokens.sublist (List.filter_sublist.map _) }
  | createPlaylist =>
      cases hexec
      exact { h with
        playlists := h.playlists.insert
        itemPlaylist := h.itemPlaylist.insert_target }
  | updatePlaylist | clearDefaultPlaylists | setDefaultPlaylist =>
      cases hexec
      exact h.modifyPlaylists
  | deletePlaylist id =>
      cases hexec
      exact { h with
        playlists := h.playlists.deleteId
        playlistItems := h.playlistItems.cascade
        itemPlaylist := h.itemPlaylist.cascade
        itemView := h.itemView.cascade_other }
  | addPlaylistItem item =>
      obtain ⟨⟨hplaylist, hview⟩, hexec⟩ := Option.ite_none_right_eq_some.mp hexec
      cases hexec
      exact { h with
        playlistItems := h.playlistItems.insert
        itemPlaylist := h.itemPlaylist.insert hplaylist
        itemView := h.itemView.insert hview }
  | updatePlaylistItemPosition | updatePlaylistItemDwell =>
      cases hexec
      exact h.modifyItems fun i => ⟨rfl, rfl⟩
  | deletePlaylistItem id =>
      cases hexec
      exact { h with
        playlistItems := h.playlistItems.deleteId
        itemPlaylist := h.itemPlaylist.deleteId
        itemView := h.itemView.deleteId }
  | createDataSource =>
      cases hexec
      exact { h with
        dataSources := h.dataSources.insert
        sourceData := h.sourceData.insert_target }
  | updateDataSourceSecret | updateDataSourceConfig | updateDataSourceName
  | updateDataSourceRefreshInterval | updateDataSourceHealth | markDataSourceSynced =>
      cases hexec
      exact h.modifySources
  | deleteDataSource id =>
      cases hexec
      exact { h with
        dataSources := h.dataSources.deleteId
        widgetSources := h.widgetSources.cascade
        sourceWidget := h.sourceWidget.cascade_other
        sourceData := h.sourceData.cascade }
  | addWidgetSource =>
      obtain ⟨⟨hwidget, hsource⟩, hexec⟩ := Option.ite_none_right_eq_some.mp hexec
      cases hexec
      exact { h with
        widgetSources := h.widgetSources.insert
        sourceWidget := h.sourceWidget.insert hwidget
        sourceData := h.sourceData.insert hsource }
  | updateWidgetSourceColor | updateWidgetSourceResource =>
      cases hexec
      exact h.modifyLinks fun l => ⟨rfl, rfl⟩
  | deleteWidgetSource id =>
      cases hexec
      exact { h with
        widgetSources := h.widgetSources.deleteId
        sourceWidget := h.sourceWidget.deleteId
        sourceData := h.sourceData.deleteId }
  | markWidgetCacheStale errorMsg id =>
      cases hexec
      exact h.markStale errorMsg id
  | clearWidgetCache =>
      cases hexec
      exact { h with
        caches := List.nodup_nil
        cached := by simp }

theorem exec_follows {now : String} {q : Query} (hexec : db.exec now q = some db') :
    db.Follows db' := by
  have hrefl := Follows.refl db
  cases q with
  | setSetting | markWidgetCacheStale | clearWidgetCache =>
      cases hexec
      exact { hrefl with }
  | createView =>
      cases hexec
      exact { hrefl with views := .insert }
  | setViewLayout | updateView | updateViewName | updateViewMode | updateViewAdvance =>
      cases hexec
      exact .modifyViews fun v => rfl
  | deleteView id =>
      cases hexec
      exact { hrefl with views := .deleteId, placements := .cascade, playlistItems := .cascade }
  | createWidget =>
      cases hexec
      exact { hrefl with widgets := .insert }
  | updateWidget =>
      cases hexec
      exact .modifyWidgets fun w => rfl
  | deleteWidget id =>
      cases hexec
      exact { hrefl with widgets := .deleteId, placements := .cascade, widgetSources := .cascade }
  | createPlacement p =>
      cases (Option.ite_none_right_eq_some.mp hexec).2
      exact { hrefl with placements := .insert }
  | createDevice name tokenHash =>
      cases (Option.ite_none_left_eq_some.mp hexec).2
      exact { hrefl with kioskDevices := .insert }
  | touchDevice | updateDeviceName | setDevicePlaylist | setDevicePip =>
      cases hexec
      exact .modifyDevices fun d => rfl
  | deleteDevice id =>
      cases hexec
      exact { hrefl with kioskDevices := .deleteId }
  | createPlaylist =>
      cases hexec
      exact { hrefl with playlists := .insert }
  | updatePlaylist | clearDefaultPlaylists | setDefaultPlaylist =>
      cases hexec
      exact .modifyPlaylists fun p => rfl
  | deletePlaylist id =>
      cases hexec
      exact { hrefl with playlists := .deleteId, playlistItems := .cascade }
  | addPlaylistItem item =>
      cases (Option.ite_none_right_eq_some.mp hexec).2
      exact { hrefl with playlistItems := .insert }
  | updatePlaylistItemPosition | updatePlaylistItemDwell =>
      cases hexec
      exact .modifyItems fun i => rfl
  | deletePlaylistItem id =>
      cases hexec
      exact { hrefl with playlistItems := .deleteId }
  | createDataSource =>
      cases hexec
      exact { hrefl with dataSources := .insert }
  | updateDataSourceSecret | updateDataSourceConfig | updateDataSourceName
  | updateDataSourceRefreshInterval | updateDataSourceHealth | markDataSourceSynced =>
      cases hexec
      exact .modifySources fun d => rfl
  | deleteDataSource id =>
      cases hexec
      exact { hrefl with dataSources := .deleteId, widgetSources := .cascade }
  | addWidgetSource =>
      cases (Option.ite_none_right_eq_some.mp hexec).2
      exact { hrefl with widgetSources := .insert }
  | updateWidgetSourceColor | updateWidgetSourceResource =>
      cases hexec
      exact .modifyLinks fun l => rfl
  | deleteWidgetSource id =>
      cases hexec
      exact { hrefl with widgetSources := .deleteId }

theorem upsert_follows {c : WidgetCache} (hupsert : db.upsertWidgetCache c = some db') :
    db.Follows db' := by
  have hrefl := Follows.refl db
  cases (Option.ite_none_right_eq_some.mp hupsert).2
  exact { hrefl with }

theorem upsert_sound {c : WidgetCache} (h : db.Sound)
    (hfits : ∀ wgt, (c.widgetId, wgt) ∈ db.widgets.rows → c.dataJson.Fits wgt.type)
    (hupsert : db.upsertWidgetCache c = some db') : db'.Sound := by
  obtain ⟨⟨wgt, hwgt⟩, hupsert⟩ := Option.ite_none_right_eq_some.mp hupsert
  cases hupsert
  exact { h with
    caches := by
      dsimp only
      split
      case isTrue =>
          rw [map_key_of_update]
          exact h.caches
      case isFalse hnew =>
          rw [List.map_append, List.nodup_append]
          refine ⟨h.caches, by simp, ?_⟩
          rintro i hi i' hi' rfl
          obtain rfl : i = c.widgetId := by simpa using hi'
          exact hnew hi
    cached := by
      intro r hr
      dsimp only at hr
      split at hr
      case isTrue =>
          obtain ⟨r₀, hr₀, rfl⟩ := List.mem_map.mp hr
          by_cases hid : r₀.widgetId = c.widgetId
          · rw [if_pos hid]
            exact ⟨wgt, hwgt, hfits wgt hwgt⟩
          · rw [if_neg hid]
            exact h.cached r₀ hr₀
      case isFalse =>
          rcases List.mem_append.mp hr with hold | hnew
          · exact h.cached r hold
          · obtain rfl := List.mem_singleton.mp hnew
            exact ⟨wgt, hwgt, hfits wgt hwgt⟩ }

end Db

namespace World

variable {w w' : World}

/-- A refresh is one of a widget that was there when it started. -/
structure Refresh.Begun (r : Refresh) : Prop where
  sound : r.started.Sound
  row : ∃ wgt, (r.id, wgt) ∈ r.started.widgets.rows ∧ wgt.type = r.type

structure Good (w : World) : Prop where
  sound : w.db.Sound
  begun : ∀ r ∈ w.refreshes, Refresh.Begun r
  follows : ∀ r ∈ w.refreshes, r.started.Follows w.db

theorem Good.own (h : w.Good) {r : Refresh} (hr : r ∈ w.refreshes) {wgt : Widget}
    (hwgt : (r.id, wgt) ∈ w.db.widgets.rows) : r.type = wgt.type := by
  obtain ⟨wgt₀, hrow, htype⟩ := (h.begun r hr).row
  have hfixed : wgt₀.type = wgt.type :=
    (h.follows r hr).widgets.fixed_eq (h.begun r hr).sound.widgets hrow hwgt
  exact htype.symm.trans hfixed

theorem Good.database (h : w.Good) {db : Db} (hsound : db.Sound) (hfollows : w.db.Follows db) :
    Good { w with db } where
  sound := hsound
  begun := h.begun
  follows r hr := (h.follows r hr).trans hfollows

theorem Good.upsert (h : w.Good) {c : WidgetCache}
    (hfits : ∀ wgt, (c.widgetId, wgt) ∈ w.db.widgets.rows → c.dataJson.Fits wgt.type) :
    (w.upsert c).Good := by
  unfold World.upsert
  cases hupsert : w.db.upsertWidgetCache c with
  | none => exact h
  | some db => exact h.database (Db.upsert_sound h.sound hfits hupsert) (Db.upsert_follows hupsert)

theorem Good.step {a : Act} (h : w.Good) (hstep : w.step a = some w') : w'.Good := by
  cases a with
  | query now q =>
      cases hstep
      cases hexec : w.db.exec now q with
      | none => exact h
      | some db => exact h.database (Db.exec_sound h.sound hexec) (Db.exec_follows hexec)
  | refreshWidget id =>
      obtain ⟨wgt, hget, hstep⟩ := Option.bind_eq_some_iff.mp hstep
      cases hstep
      have hnew : ∀ r, r ∈ w.refreshes ++ [⟨id, wgt.type, w.db⟩] →
          r ∈ w.refreshes ∨ r = ⟨id, wgt.type, w.db⟩ := by simp
      constructor
      case sound => exact h.sound
      case begun =>
          intro r hr
          rcases hnew r hr with hr | rfl
          · exact h.begun r hr
          · exact ⟨h.sound, wgt, Table.mem_of_get hget, rfl⟩
      case follows =>
          intro r hr
          rcases hnew r hr with hr | rfl
          · exact h.follows r hr
          · exact Db.Follows.refl _
  | fetched i now json expiresAt =>
      obtain ⟨r, hget, hstep⟩ := Option.bind_eq_some_iff.mp hstep
      cases hstep
      exact h.upsert fun wgt hwgt => h.own (List.mem_of_getElem? hget) hwgt
  | markErr i now expiresAt msg =>
      obtain ⟨r, hget, hstep⟩ := Option.bind_eq_some_iff.mp hstep
      cases hstep
      exact h.upsert fun wgt hwgt => trivial

theorem step_follows {a : Act} (hstep : w.step a = some w') : w.db.Follows w'.db := by
  have hupsert : ∀ c, w.db.Follows (w.upsert c).db := by
    intro c
    unfold World.upsert
    cases hupsert : w.db.upsertWidgetCache c with
    | none => exact Db.Follows.refl _
    | some db => exact Db.upsert_follows hupsert
  cases a with
  | query now q =>
      cases hstep
      cases hexec : w.db.exec now q with
      | none => exact Db.Follows.refl _
      | some db => exact Db.exec_follows hexec
  | refreshWidget id =>
      obtain ⟨wgt, -, hstep⟩ := Option.bind_eq_some_iff.mp hstep
      cases hstep
      exact Db.Follows.refl _
  | fetched i now json expiresAt =>
      obtain ⟨r, -, hstep⟩ := Option.bind_eq_some_iff.mp hstep
      cases hstep
      exact hupsert _
  | markErr i now expiresAt msg =>
      obtain ⟨r, -, hstep⟩ := Option.bind_eq_some_iff.mp hstep
      cases hstep
      exact hupsert _

theorem Good.empty : Good {} where
  sound :=
    { views := .empty
      widgets := .empty
      placements := .empty
      kioskDevices := .empty
      playlists := .empty
      playlistItems := .empty
      dataSources := .empty
      widgetSources := .empty
      placementView := .empty
      placementWidget := .empty
      itemPlaylist := .empty
      itemView := .empty
      sourceWidget := .empty
      sourceData := .empty
      tokens := List.nodup_nil
      keys := List.nodup_nil
      caches := List.nodup_nil
      cached := by simp }
  begun := by simp
  follows := by simp

/-- Whatever statements come in whatever order, no foreign key refers to what is not there, a
cached value is one of its widget's own type, and an id that has been given out means the row
it was given to, or nothing: between any two moments, and for a refresh that writes late.  A
device that still names a playlist that is gone names none that comes after it. -/
theorem ids_mean_one_row {es es' : List Act} (hrun : system.run {} es = some w)
    (hrun' : system.run w es' = some w') :
    w'.db.Sound ∧ w.db.Follows w'.db ∧ (∀ r ∈ w'.refreshes, r.started.Follows w'.db) ∧
      ∀ id ≤ w.db.playlists.seq, ¬ w.db.playlists.has id → ¬ w'.db.playlists.has id := by
  have hgood : w.Good := System.run_invariant (fun s e s' hs hstep => hs.step hstep) Good.empty hrun
  have hgood' : w'.Good := System.run_invariant (fun s e s' hs hstep => hs.step hstep) hgood hrun'
  have hfollows : w.db.Follows w'.db :=
    System.run_invariant (I := fun s => w.db.Follows s.db)
      (fun s e s' hs hstep => hs.trans (step_follows hstep)) (Db.Follows.refl _) hrun'
  exact ⟨hgood'.sound, hfollows, hgood'.follows, fun _ => hfollows.playlists.not_has⟩

def deleted : List Act :=
  [.query "8:00" (.createWidget "Agenda" "calendar" "{}"),
    .query "8:00" (.createDataSource "Thuis" "ical" "{}" ""),
    .query "8:00" (.addWidgetSource 1 1 "" 0),
    .refreshWidget 1,
    .query "8:01" (.deleteWidget 1)]

def answered : List Act :=
  [.query "8:02" (.createWidget "Weer" "weather" "{}"),
    .fetched 0 "8:03" "[]" "8:18"]

theorem ids_mean_one_row_lateAnswer :
    ∃ w w', system.run {} deleted = some w ∧ system.run w answered = some w' ∧
      w'.db.Sound ∧ w.db.Follows w'.db ∧ (∀ r ∈ w'.refreshes, r.started.Follows w'.db) ∧
      ∀ id ≤ w.db.playlists.seq, ¬ w.db.playlists.has id → ¬ w'.db.playlists.has id := by
  obtain ⟨w, hrun⟩ := Option.isSome_iff_exists.mp
    (by decide +kernel : (system.run {} deleted).isSome)
  obtain ⟨w', hrun'⟩ := Option.isSome_iff_exists.mp
    (by decide +kernel : ((system.run {} deleted).bind (system.run · answered)).isSome)
  rw [hrun, Option.bind_some] at hrun'
  exact ⟨w, w', hrun, hrun', ids_mean_one_row hrun hrun'⟩

end World

end FamilyPlanner.Server.Catalog
