import Mathlib.Data.List.Nodup
import Mathlib.Logic.Function.Basic

/-!
# Moving video URLs into the widgets

At startup the URL of a legacy "video" data source is copied into the widget
that is linked to it, and the data sources of that type are removed with their
links.  Errors of the store are ignored on the way.  A configuration is kept as
`json.Unmarshal` reads it, with `V` for the values that are no strings.
-/

namespace FamilyPlanner.Server.Migration

inductive Value (V : Type) where
  | text (s : String)
  | other (v : V)
  deriving DecidableEq, Repr

abbrev Config (V : Type) := String → Option (Value V)

/-- `config` is `none` where the column holds no JSON object. -/
structure WidgetRow (V : Type) where
  id : Int
  type : String
  name : String
  config : Option (Config V)

/-- `url` is what `json.Unmarshal` leaves in `sc.URL`. -/
structure DataSource where
  id : Int
  type : String
  url : String
  deriving DecidableEq, Repr

structure WidgetSource where
  widgetID : Int
  dataSourceID : Int
  deriving DecidableEq, Repr

/-- The tables in the order in which the queries list them. -/
structure Db (V : Type) where
  widgets : List (WidgetRow V)
  dataSources : List DataSource
  widgetSources : List WidgetSource
  widgetKey : (widgets.map WidgetRow.id).Nodup
  dataSourceKey : (dataSources.map DataSource.id).Nodup

structure Faults where
  listWidgets : Bool := false
  listWidgetSources : Int → Bool := fun _ => false
  updateWidget : Int → Bool := fun _ => false
  listDataSources : Bool := false
  deleteDataSource : Int → Bool := fun _ => false

variable {V : Type}

def WidgetRow.cfg (wgt : WidgetRow V) : Config V :=
  wgt.config.getD fun _ => none

def url (cfg : Config V) : String :=
  match cfg "url" with
  | some (.text u) => u
  | _ => ""

namespace Db

def listWidgetSources (db : Db V) (widgetID : Int) : List DataSource :=
  (db.widgetSources.filter (·.widgetID = widgetID)).flatMap fun ws =>
    db.dataSources.filter (·.id = ws.dataSourceID)

def setRow (id : Int) (name : String) (config : Config V) (r : WidgetRow V) :
    WidgetRow V :=
  if r.id = id then { r with name, config := some config } else r

@[simp] theorem setRow_id (id : Int) (name : String) (config : Config V)
    (r : WidgetRow V) : (setRow id name config r).id = r.id := by
  unfold setRow
  split <;> rfl

def updateWidget (db : Db V) (id : Int) (name : String) (config : Config V) :
    Db V :=
  { db with
    widgets := db.widgets.map (setRow id name config)
    widgetKey := by
      have hid : WidgetRow.id ∘ setRow id name config = WidgetRow.id :=
        funext (setRow_id id name config)
      rw [List.map_map, hid]
      exact db.widgetKey }

def deleteDataSource (db : Db V) (id : Int) : Db V :=
  { db with
    dataSources := db.dataSources.filter (·.id ≠ id)
    widgetSources := db.widgetSources.filter (·.dataSourceID ≠ id)
    dataSourceKey := db.dataSourceKey.sublist (List.filter_sublist.map _) }

end Db

def legacy (rows : List DataSource) : Option DataSource :=
  rows.find? fun r => r.type = "video" ∧ r.url ≠ ""

def adopt (faults : Faults) (db : Db V) (wgt : WidgetRow V) : Db V :=
  if wgt.type ≠ "video" then db
  else if url wgt.cfg ≠ "" then db
  else
    let rows :=
      if faults.listWidgetSources wgt.id then [] else db.listWidgetSources wgt.id
    match legacy rows with
    | none => db
    | some r =>
        if faults.updateWidget wgt.id then db
        else
          db.updateWidget wgt.id wgt.name
            (Function.update wgt.cfg "url" (some (.text r.url)))

def retire (faults : Faults) (db : Db V) (d : DataSource) : Db V :=
  if d.type = "video" then
    if faults.deleteDataSource d.id then db else db.deleteDataSource d.id
  else db

def migrateVideoWidgets (faults : Faults) (db : Db V) : Db V :=
  if faults.listWidgets then db
  else
    let db := db.widgets.foldl (adopt faults) db
    if faults.listDataSources then db
    else db.dataSources.foldl (retire faults) db

/-! ## What the two loops do -/

def Linked (db : Db V) (wgt : WidgetRow V) (d : DataSource) : Prop :=
  ⟨wgt.id, d.id⟩ ∈ db.widgetSources ∧ d ∈ db.dataSources

def Legacy (d : DataSource) : Prop := d.type = "video" ∧ d.url ≠ ""

def Wanting (wgt : WidgetRow V) : Prop := wgt.type = "video" ∧ url wgt.cfg = ""

instance (d : DataSource) : Decidable (Legacy d) :=
  inferInstanceAs (Decidable (_ ∧ _))

instance (wgt : WidgetRow V) : Decidable (Wanting wgt) :=
  inferInstanceAs (Decidable (_ ∧ _))

def source (faults : Faults) (db : Db V) (wgt : WidgetRow V) :
    Option DataSource :=
  if Wanting wgt ∧ ¬ faults.listWidgetSources wgt.id ∧
      ¬ faults.updateWidget wgt.id then
    legacy (db.listWidgetSources wgt.id)
  else none

def adopted (faults : Faults) (db : Db V) (wgt : WidgetRow V) : WidgetRow V :=
  match source faults db wgt with
  | none => wgt
  | some r =>
      { wgt with
        config := some (Function.update wgt.cfg "url" (some (.text r.url))) }

theorem mem_listWidgetSources {db : Db V} {wgt : WidgetRow V} {d : DataSource} :
    d ∈ db.listWidgetSources wgt.id ↔ Linked db wgt d := by
  simp only [Db.listWidgetSources, Linked, List.mem_flatMap, List.mem_filter,
    decide_eq_true_eq]
  constructor
  · rintro ⟨⟨w, s⟩, ⟨hws, hw⟩, hd, hs⟩
    cases hw
    cases hs
    exact ⟨hws, hd⟩
  · rintro ⟨hws, hd⟩
    exact ⟨⟨wgt.id, d.id⟩, ⟨hws, rfl⟩, hd, rfl⟩

@[simp] theorem adopted_id (faults : Faults) (db : Db V) (wgt : WidgetRow V) :
    (adopted faults db wgt).id = wgt.id := by
  unfold adopted
  split <;> rfl

theorem Db.eq_of_id {db : Db V} {r wgt : WidgetRow V} (hr : r ∈ db.widgets)
    (hw : wgt ∈ db.widgets) (hid : r.id = wgt.id) : r = wgt :=
  List.inj_on_of_nodup_map db.widgetKey hr hw hid

theorem adopt_eq_source (faults : Faults) (db : Db V) (wgt : WidgetRow V) :
    adopt faults db wgt =
      match source faults db wgt with
      | none => db
      | some r =>
          db.updateWidget wgt.id wgt.name
            (Function.update wgt.cfg "url" (some (.text r.url))) := by
  unfold adopt source Wanting
  by_cases htype : wgt.type = "video"
  · by_cases hurl : url wgt.cfg = ""
    · cases hlist : faults.listWidgetSources wgt.id
      · cases hlegacy : legacy (db.listWidgetSources wgt.id) <;>
          cases faults.updateWidget wgt.id <;> simp [htype, hurl, hlegacy]
      · simp [htype, hurl, legacy]
    · simp [hurl]
  · simp [htype]

theorem source_congr (faults : Faults) {db db₀ : Db V} (wgt : WidgetRow V)
    (hs : db.dataSources = db₀.dataSources)
    (hl : db.widgetSources = db₀.widgetSources) :
    source faults db wgt = source faults db₀ wgt := by
  simp only [source, Db.listWidgetSources, hs, hl]

theorem adopt_eq (faults : Faults) {db db₀ : Db V} {wgt : WidgetRow V}
    (hs : db.dataSources = db₀.dataSources)
    (hl : db.widgetSources = db₀.widgetSources) (hmem : wgt ∈ db.widgets) :
    (adopt faults db wgt).widgets =
        db.widgets.map
          (fun r => if r.id = wgt.id then adopted faults db₀ wgt else r) ∧
      (adopt faults db wgt).dataSources = db₀.dataSources ∧
      (adopt faults db wgt).widgetSources = db₀.widgetSources := by
  rw [adopt_eq_source, source_congr faults wgt hs hl, adopted]
  cases source faults db₀ wgt with
  | none =>
      refine ⟨?_, hs, hl⟩
      calc db.widgets = db.widgets.map fun r => r := (List.map_id' _).symm
        _ = db.widgets.map fun r => if r.id = wgt.id then wgt else r := by
          apply List.map_congr_left
          intro r hr
          split
          case isTrue hid => exact Db.eq_of_id hr hmem hid
          case isFalse => rfl
  | some d =>
      refine ⟨?_, hs, hl⟩
      apply List.map_congr_left
      intro r hr
      unfold Db.setRow
      split
      case isTrue hid => rw [Db.eq_of_id hr hmem hid]
      case isFalse => rfl

theorem foldl_adopt (faults : Faults) {db₀ : Db V} (ws : List (WidgetRow V))
    (hkey : (ws.map WidgetRow.id).Nodup) {db : Db V}
    (hs : db.dataSources = db₀.dataSources)
    (hl : db.widgetSources = db₀.widgetSources) (hmem : ∀ w ∈ ws, w ∈ db.widgets) :
    (ws.foldl (adopt faults) db).widgets =
        db.widgets.map
          (fun r => if r.id ∈ ws.map WidgetRow.id then adopted faults db₀ r else r) ∧
      (ws.foldl (adopt faults) db).dataSources = db₀.dataSources ∧
      (ws.foldl (adopt faults) db).widgetSources = db₀.widgetSources := by
  induction ws generalizing db with
  | nil => simp [hs, hl]
  | cons w ws ih =>
      have hw : w ∈ db.widgets := hmem w (List.mem_cons_self ..)
      obtain ⟨hwidgets, hs', hl'⟩ := adopt_eq faults hs hl hw
      rw [List.map_cons, List.nodup_cons] at hkey
      have hrest : ∀ w' ∈ ws, w' ∈ (adopt faults db w).widgets := by
        intro w' hw'
        have hne : w'.id ≠ w.id := fun h =>
          hkey.1 (h ▸ List.mem_map_of_mem hw')
        rw [hwidgets]
        exact List.mem_map.mpr
          ⟨w', hmem w' (List.mem_cons_of_mem _ hw'), if_neg hne⟩
      obtain ⟨hfinal, htables⟩ := ih hkey.2 hs' hl' hrest
      refine ⟨?_, htables⟩
      rw [List.foldl_cons, hfinal, hwidgets, List.map_map]
      apply List.map_congr_left
      intro r hr
      by_cases hid : r.id = w.id
      · have hrw : r = w := Db.eq_of_id hr hw hid
        have hout : (adopted faults db₀ w).id ∉ ws.map WidgetRow.id := by
          rw [adopted_id]
          exact hkey.1
        rw [hrw, Function.comp_apply, if_pos rfl, if_neg hout]
        simp
      · simp [hid]

def Retired (faults : Faults) (d : DataSource) : Prop :=
  d.type = "video" ∧ ¬ faults.deleteDataSource d.id

instance (faults : Faults) (d : DataSource) : Decidable (Retired faults d) :=
  inferInstanceAs (Decidable (_ ∧ _))

theorem retire_eq (faults : Faults) (db : Db V) (d : DataSource) :
    retire faults db d = if Retired faults d then db.deleteDataSource d.id else db := by
  unfold retire Retired
  by_cases hdelete : faults.deleteDataSource d.id
  · simp [hdelete]
  · simp [hdelete]

theorem retire_tables (faults : Faults) (db : Db V) (d : DataSource) :
    (retire faults db d).widgets = db.widgets ∧
      (∀ s, s ∈ (retire faults db d).dataSources ↔
        s ∈ db.dataSources ∧ (Retired faults d → s.id ≠ d.id)) ∧
      ∀ l, l ∈ (retire faults db d).widgetSources ↔
        l ∈ db.widgetSources ∧ (Retired faults d → l.dataSourceID ≠ d.id) := by
  rw [retire_eq]
  split
  case isTrue hd => simp [Db.deleteDataSource, hd]
  case isFalse hd => simp [hd]

theorem foldl_retire (faults : Faults) (ds : List DataSource) (db : Db V) :
    (ds.foldl (retire faults) db).widgets = db.widgets ∧
      (∀ s, s ∈ (ds.foldl (retire faults) db).dataSources ↔
        s ∈ db.dataSources ∧ ∀ d ∈ ds, Retired faults d → s.id ≠ d.id) ∧
      ∀ l, l ∈ (ds.foldl (retire faults) db).widgetSources ↔
        l ∈ db.widgetSources ∧ ∀ d ∈ ds, Retired faults d → l.dataSourceID ≠ d.id := by
  induction ds generalizing db with
  | nil => simp
  | cons d ds ih =>
      obtain ⟨hwidgets, hsources, hlinks⟩ := ih (retire faults db d)
      obtain ⟨hwidgets', hsources', hlinks'⟩ := retire_tables faults db d
      rw [List.foldl_cons]
      refine ⟨hwidgets.trans hwidgets', ?_, ?_⟩
      · intro s
        rw [hsources, hsources', List.forall_mem_cons, and_assoc]
      · intro l
        rw [hlinks, hlinks', List.forall_mem_cons, and_assoc]

/-! ## One run of the migration -/

def moved (faults : Faults) (db : Db V) (wgt : WidgetRow V) : WidgetRow V :=
  if faults.listWidgets then wgt else adopted faults db wgt

def Removed (faults : Faults) (d : DataSource) : Prop :=
  ¬ faults.listWidgets ∧ ¬ faults.listDataSources ∧ Retired faults d

theorem migrate_widgets (faults : Faults) (db : Db V) :
    (migrateVideoWidgets faults db).widgets = db.widgets.map (moved faults db) := by
  have hmoved := (foldl_adopt faults db.widgets db.widgetKey rfl rfl
    (fun w hw => hw)).1
  unfold migrateVideoWidgets moved
  cases faults.listWidgets with
  | true => simp
  | false =>
      have hfirst : (db.widgets.foldl (adopt faults) db).widgets =
          db.widgets.map (adopted faults db) := by
        rw [hmoved]
        apply List.map_congr_left
        intro r hr
        exact if_pos (List.mem_map_of_mem hr)
      cases faults.listDataSources with
      | true => exact hfirst
      | false =>
          exact ((foldl_retire faults _ _).1).trans hfirst

theorem migrate_tables (faults : Faults) (db : Db V) :
    (∀ s, s ∈ (migrateVideoWidgets faults db).dataSources ↔
        s ∈ db.dataSources ∧ ∀ d ∈ db.dataSources, Removed faults d → s.id ≠ d.id) ∧
      ∀ l, l ∈ (migrateVideoWidgets faults db).widgetSources ↔
        l ∈ db.widgetSources ∧
          ∀ d ∈ db.dataSources, Removed faults d → l.dataSourceID ≠ d.id := by
  obtain ⟨-, hs, hl⟩ := foldl_adopt faults db.widgets db.widgetKey rfl rfl
    (fun w hw => hw)
  unfold migrateVideoWidgets Removed
  cases faults.listWidgets with
  | true => simp
  | false =>
      cases faults.listDataSources with
      | true => simp [hs, hl]
      | false =>
          obtain ⟨-, hsources, hlinks⟩ := foldl_retire faults
            (db.widgets.foldl (adopt faults) db).dataSources
            (db.widgets.foldl (adopt faults) db)
          simp only [hs, hl] at hsources hlinks
          simp [hs, hsources, hlinks]

theorem migrate_dataSources (faults : Faults) {db : Db V} {s : DataSource} :
    s ∈ (migrateVideoWidgets faults db).dataSources ↔
      s ∈ db.dataSources ∧ ¬ Removed faults s := by
  rw [(migrate_tables faults db).1]
  apply and_congr_right
  intro hs
  constructor
  · intro h hremoved
    exact h s hs hremoved rfl
  · intro h d hd hremoved hid
    have hsd : s = d := List.inj_on_of_nodup_map db.dataSourceKey hs hd hid
    exact h (hsd ▸ hremoved)

theorem migrate_linked (faults : Faults) {db : Db V} {wgt : WidgetRow V}
    {d : DataSource} :
    Linked (migrateVideoWidgets faults db) wgt d ↔
      Linked db wgt d ∧ ¬ Removed faults d := by
  unfold Linked
  rw [migrate_dataSources, (migrate_tables faults db).2]
  constructor
  · rintro ⟨⟨hl, -⟩, hd, hremoved⟩
    exact ⟨⟨hl, hd⟩, hremoved⟩
  · rintro ⟨⟨hl, hd⟩, hremoved⟩
    refine ⟨⟨hl, ?_⟩, hd, hremoved⟩
    intro d' hd' hremoved' hid
    have hdd : d = d' := List.inj_on_of_nodup_map db.dataSourceKey hd hd' hid
    exact hremoved (hdd ▸ hremoved')

/-! ## What the widgets keep -/

def HasUrl (db : Db V) (wgt : WidgetRow V) (cfg : Config V) : Prop :=
  ∃ d, Linked db wgt d ∧ Legacy d ∧ url cfg = d.url

structure Kept (db db' : Db V) (wgt wgt' : WidgetRow V) : Prop where
  id : wgt'.id = wgt.id
  type : wgt'.type = wgt.type
  name : wgt'.name = wgt.name
  url : wgt.type = "video" → url wgt.cfg ≠ "" → url wgt'.cfg = url wgt.cfg
  others : ∀ key, key ≠ "url" ∨ ¬ Wanting wgt → wgt'.cfg key = wgt.cfg key
  linked : Wanting wgt → ∀ d, Linked db wgt d → Legacy d →
    HasUrl db wgt wgt'.cfg ∨ Linked db' wgt d

/-- No URL is lost from `db` to `db'`. -/
def LosesNothing (db db' : Db V) : Prop :=
  ∀ wgt ∈ db.widgets, ∃ wgt' ∈ db'.widgets, Kept db db' wgt wgt'

/-- In `db'` the video data sources of `db` are gone, and the widgets have
their URLs. -/
structure Complete (db db' : Db V) : Prop where
  retired : ∀ d ∈ db'.dataSources, d.type ≠ "video"
  urls : ∀ wgt ∈ db.widgets, ∃ wgt' ∈ db'.widgets, wgt'.id = wgt.id ∧
    (wgt.type = "video" → Migration.url wgt.cfg ≠ "" →
      Migration.url wgt'.cfg = Migration.url wgt.cfg) ∧
    (Wanting wgt → (∃ d, Linked db wgt d ∧ Legacy d) → HasUrl db wgt wgt'.cfg)

theorem url_update (cfg : Config V) (u : String) :
    url (Function.update cfg "url" (some (.text u))) = u := by
  simp [url]

theorem source_spec {faults : Faults} {db : Db V} {wgt : WidgetRow V}
    {r : DataSource} (h : source faults db wgt = some r) :
    Wanting wgt ∧ Linked db wgt r ∧ Legacy r := by
  unfold source at h
  split at h
  case isTrue hok =>
    unfold legacy at h
    have hr : Legacy r := by simpa [Legacy] using List.find?_some h
    exact ⟨hok.1, mem_listWidgetSources.mp (List.mem_of_find?_eq_some h), hr⟩
  case isFalse => cases h

theorem exists_source {faults : Faults} {db : Db V} {wgt : WidgetRow V}
    (hwant : Wanting wgt) (hlist : ¬ faults.listWidgetSources wgt.id)
    (hupdate : ¬ faults.updateWidget wgt.id) {d : DataSource}
    (hlinked : Linked db wgt d) (hd : Legacy d) :
    ∃ r, source faults db wgt = some r := by
  rw [source, if_pos ⟨hwant, hlist, hupdate⟩]
  apply Option.isSome_iff_exists.mp
  rw [legacy, List.find?_isSome]
  exact ⟨d, mem_listWidgetSources.mpr hlinked, decide_eq_true hd⟩

@[simp] theorem moved_id (faults : Faults) (db : Db V) (wgt : WidgetRow V) :
    (moved faults db wgt).id = wgt.id := by
  unfold moved
  split
  · rfl
  · exact adopted_id faults db wgt

theorem moved_eq_self {faults : Faults} {db : Db V} {wgt : WidgetRow V}
    (h : source faults db wgt = none) : moved faults db wgt = wgt := by
  unfold moved adopted
  rw [h]
  split <;> rfl

theorem source_eq_none {faults : Faults} {db : Db V} {wgt : WidgetRow V}
    (h : ¬ (Wanting wgt ∧ ¬ faults.listWidgetSources wgt.id ∧
      ¬ faults.updateWidget wgt.id)) : source faults db wgt = none := if_neg h

theorem mem_moved {faults : Faults} {db : Db V} {wgt : WidgetRow V}
    (hw : wgt ∈ db.widgets) :
    moved faults db wgt ∈ (migrateVideoWidgets faults db).widgets := by
  rw [migrate_widgets]
  exact List.mem_map_of_mem hw

theorem eq_moved {faults : Faults} {db : Db V} {wgt wgt' : WidgetRow V}
    (hw : wgt ∈ db.widgets)
    (hw' : wgt' ∈ (migrateVideoWidgets faults db).widgets)
    (hid : wgt'.id = wgt.id) : wgt' = moved faults db wgt := by
  rw [migrate_widgets] at hw'
  obtain ⟨r, hr, rfl⟩ := List.mem_map.mp hw'
  rw [moved_id] at hid
  rw [Db.eq_of_id hr hw hid]

theorem moved_cases (faults : Faults) (db : Db V) (wgt : WidgetRow V) :
    moved faults db wgt = wgt ∨
      ∃ r, source faults db wgt = some r ∧
        moved faults db wgt =
          { wgt with
            config := some (Function.update wgt.cfg "url" (some (.text r.url))) } := by
  cases hsource : source faults db wgt with
  | none => exact Or.inl (moved_eq_self hsource)
  | some r =>
      unfold moved adopted
      rw [hsource]
      split
      · exact Or.inl rfl
      · exact Or.inr ⟨r, rfl, rfl⟩

theorem kept_moved {faults : Faults} {db : Db V} {wgt : WidgetRow V}
    (h : Wanting wgt → ∀ d, Linked db wgt d → Legacy d →
      HasUrl db wgt (moved faults db wgt).cfg ∨
        Linked (migrateVideoWidgets faults db) wgt d) :
    Kept db (migrateVideoWidgets faults db) wgt (moved faults db wgt) := by
  obtain heq | ⟨r, hsource, heq⟩ := moved_cases faults db wgt
  · rw [heq] at h ⊢
    exact ⟨rfl, rfl, rfl, fun _ _ => rfl, fun _ _ => rfl, h⟩
  · have hwant := (source_spec hsource).1
    rw [heq] at h ⊢
    refine ⟨rfl, rfl, rfl, fun _ hne => absurd hwant.2 hne, ?_, h⟩
    intro key hkey
    obtain hkey | hkey := hkey
    · exact Function.update_of_ne hkey _ _
    · exact absurd hwant hkey

theorem hasUrl_moved {faults : Faults} {db : Db V} {wgt : WidgetRow V}
    (hlisted : ¬ faults.listWidgets) {r : DataSource}
    (h : source faults db wgt = some r) :
    HasUrl db wgt (moved faults db wgt).cfg := by
  obtain ⟨-, hlinked, hr⟩ := source_spec h
  refine ⟨r, hlinked, hr, ?_⟩
  rw [moved, if_neg hlisted, adopted, h]
  exact url_update _ _

/--
The condition: both calls for a widget that takes over a URL succeed, or none
of its legacy data sources is deleted.
-/
def Spared (faults : Faults) (db : Db V) : Prop :=
  ∀ wgt ∈ db.widgets, Wanting wgt →
    (¬ faults.listWidgetSources wgt.id ∧ ¬ faults.updateWidget wgt.id) ∨
      ∀ d, Linked db wgt d → Legacy d →
        faults.listWidgets ∨ faults.listDataSources ∨ faults.deleteDataSource d.id

theorem not_removed {faults : Faults} {d : DataSource}
    (h : faults.listWidgets ∨ faults.listDataSources ∨
      faults.deleteDataSource d.id) : ¬ Removed faults d := by
  rintro ⟨hwidgets, hsources, -, hdelete⟩
  obtain h | h | h := h
  · exact hwidgets h
  · exact hsources h
  · exact hdelete h

/-- Under the condition a linked legacy data source stays, or its widget has
taken over a URL. -/
theorem hasUrl_or_linked {faults : Faults} {db : Db V} (hspared : Spared faults db)
    {wgt : WidgetRow V} (hw : wgt ∈ db.widgets) (hwant : Wanting wgt)
    {d : DataSource} (hlinked : Linked db wgt d) (hd : Legacy d) :
    HasUrl db wgt (moved faults db wgt).cfg ∨
      Linked (migrateVideoWidgets faults db) wgt d := by
  by_cases hwidgets : faults.listWidgets
  · apply Or.inr
    rw [migrate_linked]
    exact ⟨hlinked, not_removed (Or.inl hwidgets)⟩
  · obtain ⟨hlist, hupdate⟩ | hstay := hspared wgt hw hwant
    · obtain ⟨r, hsource⟩ := exists_source hwant hlist hupdate hlinked hd
      exact Or.inl (hasUrl_moved hwidgets hsource)
    · apply Or.inr
      rw [migrate_linked]
      exact ⟨hlinked, not_removed (hstay d hlinked hd)⟩

theorem linked_of_id {db : Db V} {wgt wgt' : WidgetRow V} {d : DataSource}
    (hid : wgt'.id = wgt.id) : Linked db wgt' d ↔ Linked db wgt d := by
  unfold Linked
  rw [hid]

/-- A second run without failures completes a run that lost nothing. -/
theorem complete_of_losesNothing {faults : Faults} {db : Db V}
    (h : LosesNothing db (migrateVideoWidgets faults db)) :
    Complete db (migrateVideoWidgets {} (migrateVideoWidgets faults db)) := by
  constructor
  · intro d hd htype
    rw [migrate_dataSources] at hd
    exact hd.2 ⟨Bool.false_ne_true, Bool.false_ne_true, htype, Bool.false_ne_true⟩
  · intro wgt hw
    obtain ⟨wgt', hw', hkept⟩ := h wgt hw
    refine ⟨_, mem_moved hw', ?_, ?_, ?_⟩
    · rw [moved_id, hkept.id]
    · intro htype hurl
      have hurl' := hkept.url htype hurl
      have hnone : source {} (migrateVideoWidgets faults db) wgt' = none := by
        apply source_eq_none
        intro hwant
        rw [← hurl', hwant.1.2] at hurl
        exact hurl rfl
      rw [moved_eq_self hnone, hurl']
    · rintro hwant ⟨d, hlinked, hd⟩
      by_cases hwant' : Wanting wgt'
      · -- Nothing was stored in the first run, so its data sources are left.
        have hlinked' : Linked (migrateVideoWidgets faults db) wgt' d := by
          obtain ⟨r, -, hr, hurl⟩ | hstay := hkept.linked hwant d hlinked hd
          · exact absurd (hurl.symm.trans hwant'.2) hr.2
          · exact (linked_of_id hkept.id).mpr hstay
        have hagain : ∃ r, source {} (migrateVideoWidgets faults db) wgt' = some r :=
          exists_source hwant' Bool.false_ne_true Bool.false_ne_true hlinked' hd
        obtain ⟨r, hsource⟩ := hagain
        obtain ⟨r', hr', hlegacy, hurl⟩ :=
          hasUrl_moved Bool.false_ne_true hsource
        refine ⟨r', ?_, hlegacy, hurl⟩
        exact ((migrate_linked faults).mp ((linked_of_id hkept.id).mp hr')).1
      · rw [moved_eq_self (source_eq_none fun h => hwant' h.1)]
        have hmoved := eq_moved hw hw' hkept.id
        obtain heq | ⟨r, hsource, heq⟩ := moved_cases faults db wgt
        · rw [heq] at hmoved
          exact absurd (hmoved ▸ hwant) hwant'
        · obtain ⟨-, hr, hlegacy⟩ := source_spec hsource
          refine ⟨r, hr, hlegacy, ?_⟩
          rw [hmoved, heq]
          exact url_update _ _

/-- No URL is lost, and running again completes it, iff the condition holds. -/
theorem migrate_loses_nothing_iff (faults : Faults) (db : Db V) :
    (LosesNothing db (migrateVideoWidgets faults db) ∧
      Complete db (migrateVideoWidgets {} (migrateVideoWidgets faults db))) ↔
      Spared faults db := by
  constructor
  · rintro ⟨hkept, -⟩ wgt hw hwant
    by_contra hcond
    rw [not_or, not_forall] at hcond
    obtain ⟨hcalls, d, hd⟩ := hcond
    simp only [Classical.not_imp, not_or] at hd
    obtain ⟨hlinked, hlegacy, hwidgets, hsources, hdelete⟩ := hd
    obtain ⟨wgt', hw', hk⟩ := hkept wgt hw
    have hsame : wgt' = wgt := by
      rw [eq_moved hw hw' hk.id]
      exact moved_eq_self (source_eq_none fun h => hcalls h.2)
    obtain ⟨r, -, hr, hurl⟩ | hstay := hk.linked hwant d hlinked hlegacy
    · rw [hsame, hwant.2] at hurl
      exact hr.2 hurl.symm
    · exact ((migrate_linked faults).mp hstay).2
        ⟨hwidgets, hsources, hlegacy.1, hdelete⟩
  · intro hspared
    have hkept : LosesNothing db (migrateVideoWidgets faults db) := by
      intro wgt hw
      refine ⟨_, mem_moved hw, kept_moved ?_⟩
      intro hwant d hlinked hd
      exact hasUrl_or_linked hspared hw hwant hlinked hd
    exact ⟨hkept, complete_of_losesNothing hkept⟩

def film : WidgetRow Unit := ⟨1, "video", "Film", some fun _ => none⟩

def clip : DataSource := ⟨5, "video", "https://youtu.be/dQw4w9WgXcQ"⟩

def unmigrated : Db Unit where
  widgets := [film]
  dataSources := [clip]
  widgetSources := [⟨1, 5⟩]
  widgetKey := by decide
  dataSourceKey := by decide

/-- `UpdateWidget` fails once, and the URL is gone. -/
theorem migrate_loses_url :
    (migrateVideoWidgets { updateWidget := fun _ => true } unmigrated).dataSources = [] ∧
    ((migrateVideoWidgets {} (migrateVideoWidgets { updateWidget := fun _ => true }
      unmigrated)).widgets.map fun wgt => url wgt.cfg) = [""] ∧
    ¬ LosesNothing unmigrated
      (migrateVideoWidgets { updateWidget := fun _ => true } unmigrated) := by
  refine ⟨by decide, by decide, fun h => ?_⟩
  have hw : film ∈ unmigrated.widgets := List.mem_singleton.mpr rfl
  have hlinked : Linked unmigrated film clip := ⟨by decide, by decide⟩
  obtain ⟨wgt', hw', hkept⟩ := h film hw
  have hsame : wgt' = film := by
    rw [eq_moved hw hw' hkept.id]
    apply moved_eq_self
    apply source_eq_none
    intro hok
    exact hok.2.2 rfl
  obtain ⟨r, -, hr, hurl⟩ | hstay :=
    hkept.linked (by decide) clip hlinked (by decide)
  · rw [hsame] at hurl
    exact hr.2 (hurl.symm.trans (by decide))
  · exact List.not_mem_nil hstay.2

end FamilyPlanner.Server.Migration
