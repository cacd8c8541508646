import FamilyPlanner.Foundation.Interleaving
import FamilyPlanner.Foundation.Run
import FamilyPlanner.Screen.Layout
import FamilyPlanner.Server.Playlists
import FamilyPlanner.VoiceClock.Chime

/-!
# Starting up

Each start of the server migrates what an older build has left and seeds what
is missing.  A call of the store may fail, and the process may stop at any one
of them; between two starts the users change what they like.
-/

namespace FamilyPlanner.Server.Bootstrap

open FamilyPlanner.Foundation FamilyPlanner.VoiceClock

/-! ## The tables -/

inductive Key where
  | cacheSchemaVersion
  | halfChimeMigrated
  | passphraseHash
  | defaultTheme
  deriving DecidableEq, Repr

/-- `layout` is `none` for an empty `layout_json`. -/
structure View where
  id : Int
  name : String
  cols : Int
  rows : Int
  themeID : String
  inRotation : Int
  rotationOrder : Int
  dwellSeconds : Int
  layout : Option (Screen.Node Int) := none

structure Widget where
  id : Int
  name : String
  type : String
  configJson : String

structure Placement where
  viewID : Int
  widgetID : Int
  col : Int
  row : Int
  colSpan : Int
  rowSpan : Int
  configJson : String

structure Rows where
  views : List View := []
  widgets : List Widget := []
  placements : List Placement := []
  playlists : List Playlist := []
  items : List PlaylistItem := []
  viewSeq : Int := 0
  widgetSeq : Int := 0
  playlistSeq : Int := 0
  itemSeq : Int := 0

/-- `voiceclock` is `none` where its text is missing or does not decode.  The
rows of the widget cache stand with the schema of the build that wrote them. -/
structure Database where
  settings : Key → Option String := fun _ => none
  voiceclock : Option Config := none
  cache : List (Int × String) := []
  rows : Rows := {}

/-! ## The calls -/

inductive Call where
  | getSetting (key : Key)
  | setSetting (key : Key) (value : String)
  | getVoiceclock
  | setVoiceclock (cfg : Config)
  | clearWidgetCache
  | hashPassphrase (passphrase : String)
  | countViews
  | createView (v : View)
  | createWidget (name type configJson : String)
  | createPlacement (p : Placement)
  | setViewLayout (layout : Screen.Node Int) (id : Int)
  | createPlaylist (name : String) (isDefault defaultDwellSeconds : Int)
  | addPlaylistItem (playlistID viewID position dwellSeconds : Int)

/-- Of a row that is created, its id. -/
@[reducible] def Call.Res : Call → Type
  | getSetting _ => Except ReadError String
  | getVoiceclock => Option Config
  | hashPassphrase _ => Option String
  | countViews => Option Nat
  | createView _ | createWidget _ _ _ | createPlaylist _ _ _ => Option Int
  | _ => Bool

/-- The answer is whether `bootstrap` returned no error. -/
abbrev Boot := Prog Call Call.Res Bool

def orFail (c : Call) (next : Call.Res c → Option Boot) : Boot :=
  .call c fun r => (next r).getD (.ret false)

def create {α : Type} (next : α → Boot) : Option α → Option Boot := Option.map next

def done (next : Boot) (ok : Bool) : Option Boot := if ok then some next else none

def invalidateStaleCache (cacheSchemaVersion : String) (next : Boot) : Boot :=
  .call (.getSetting .cacheSchemaVersion) fun (cur : Except ReadError String) =>
    let clear : Boot :=
      .call .clearWidgetCache fun (ok : Bool) =>
        if ok then .call (.setSetting .cacheSchemaVersion cacheSchemaVersion) fun _ => next
        else next
    match cur with
    | .ok cur => if cur = cacheSchemaVersion then next else clear
    | .error _ => clear

def migrateHalfChime (next : Boot) : Boot :=
  let flag : Boot := .call (.setSetting .halfChimeMigrated "1") fun _ => next
  .call (.getSetting .halfChimeMigrated) fun (seen : Except ReadError String) =>
    match seen with
    | .error .noRows =>
        .call .getVoiceclock fun (v : Option Config) =>
          match v with
          | some cfg =>
              .call (.setVoiceclock { cfg with halfSound := Sound.bong.name }) fun _ => flag
          | none => flag
    | _ => next

def seedPassphrase (adminPassphrase : String) (next : Boot) : Boot :=
  .call (.getSetting .passphraseHash) fun (stored : Except ReadError String) =>
    match stored with
    | .error .noRows =>
        if adminPassphrase ≠ "" then
          orFail (.hashPassphrase adminPassphrase)
            (create fun hash => orFail (.setSetting .passphraseHash hash) (done next))
        else next
    | _ => next

def seedTheme (next : Boot) : Boot :=
  .call (.getSetting .defaultTheme) fun (stored : Except ReadError String) =>
    match stored with
    | .error .noRows => orFail (.setSetting .defaultTheme "licht") (done next)
    | _ => next

def demoLayout (countdown clock : Int) : Screen.Node Int :=
  .split "row" [(2, .leaf { widgetID := countdown }), (1, .leaf { widgetID := clock })]

def seedPlaylist (view aftellen : Int) : Boot :=
  orFail (.createPlaylist "Standaard" 1 15) (create fun playlist =>
    orFail (.addPlaylistItem playlist view 0 0) (done (
      orFail (.addPlaylistItem playlist aftellen 1 10) (done (.ret true)))))

/-- The layouts are set whether or not that succeeds. -/
def seedLayouts (view countdown clock aftellen : Int) : Boot :=
  .call (.setViewLayout (demoLayout countdown clock) view) fun _ =>
    .call (.setViewLayout (.leaf { widgetID := countdown }) aftellen) fun _ =>
      seedPlaylist view aftellen

def seedPlacements (view countdown clock : Int) : Boot :=
  orFail (.createPlacement ⟨view, countdown, 1, 1, 2, 2, "\x7b\x7d"⟩) (done (
    orFail (.createPlacement ⟨view, clock, 3, 1, 1, 2, "\x7b\x7d"⟩) (done (
      orFail (.createView ⟨0, "Aftellen", 1, 1, "donker", 1, 1, 10, none⟩) (create fun aftellen =>
        orFail (.createPlacement ⟨aftellen, countdown, 1, 1, 1, 1, "\x7b\x7d"⟩) (done (
          seedLayouts view countdown clock aftellen)))))))

def seedDemo : Boot :=
  orFail (.createView ⟨0, "Demo", 3, 2, "licht", 1, 0, 15, none⟩) (create fun view =>
    orFail (.createWidget "Kerst" "countdown"
        "\x7b\"title\":\"Kerstmis\",\"date\":\"2026-12-25\"\x7d") (create fun countdown =>
      orFail (.createWidget "Klok" "clock" "\x7b\x7d") (create fun clock =>
        seedPlacements view countdown clock)))

def seedViews : Boot :=
  .call .countViews fun (n : Option Nat) =>
    match n with
    | none => .ret false
    | some n => if n = 0 then seedDemo else .ret true

/-- The migration of the video widgets is a model of its own. -/
def bootstrap (cacheSchemaVersion adminPassphrase : String) : Boot :=
  invalidateStaleCache cacheSchemaVersion
    (migrateHalfChime (seedPassphrase adminPassphrase (seedTheme seedViews)))

/-! ## Executing the calls -/

namespace Rows

def createView (r : Rows) (v : View) : Rows :=
  { r with
    views := r.views ++ [{ v with id := r.viewSeq + 1 }]
    viewSeq := r.viewSeq + 1 }

def createWidget (r : Rows) (name type configJson : String) : Rows :=
  { r with
    widgets := r.widgets ++ [⟨r.widgetSeq + 1, name, type, configJson⟩]
    widgetSeq := r.widgetSeq + 1 }

def setViewLayout (r : Rows) (layout : Screen.Node Int) (id : Int) : Rows :=
  { r with
    views := r.views.map fun v => if v.id = id then { v with layout := some layout } else v }

def createPlaylist (r : Rows) (name : String) (isDefault defaultDwellSeconds : Int) : Rows :=
  { r with
    playlists := r.playlists ++ [⟨r.playlistSeq + 1, name, isDefault, defaultDwellSeconds⟩]
    playlistSeq := r.playlistSeq + 1 }

def addPlaylistItem (r : Rows) (playlistID viewID position dwellSeconds : Int) : Rows :=
  { r with
    items := r.items ++ [⟨r.itemSeq + 1, playlistID, viewID, position, dwellSeconds⟩]
    itemSeq := r.itemSeq + 1 }

end Rows

/-- `salted` is the hash of a passphrase, `none` an error. -/
structure Env where
  failed : Bool := false
  salted : Option String := none
  deriving DecidableEq, Repr

namespace Database

variable (db : Database)

def set (key : Key) (value : String) : Database :=
  { db with settings := Function.update db.settings key (some value) }

def withRows (rows : Rows) : Database := { db with rows }

end Database

def Call.exec (env : Env) : (c : Call) → Database → Call.Res c × Database
  | getSetting key, db => (Tables.answer env.failed (db.settings key), db)
  | getVoiceclock, db => (if env.failed then none else db.voiceclock, db)
  | hashPassphrase _, db => (env.salted, db)
  | countViews, db => (if env.failed then none else some db.rows.views.length, db)
  | setSetting key value, db =>
      if env.failed then (false, db) else (true, db.set key value)
  | setVoiceclock cfg, db =>
      if env.failed then (false, db) else (true, { db with voiceclock := some cfg })
  | clearWidgetCache, db => if env.failed then (false, db) else (true, { db with cache := [] })
  | createView v, db =>
      if env.failed then (none, db)
      else (some (db.rows.viewSeq + 1), db.withRows (db.rows.createView v))
  | createWidget name type configJson, db =>
      if env.failed then (none, db)
      else (some (db.rows.widgetSeq + 1), db.withRows (db.rows.createWidget name type configJson))
  | createPlacement p, db =>
      if env.failed then (false, db)
      else (true, db.withRows { db.rows with placements := db.rows.placements ++ [p] })
  | setViewLayout layout id, db =>
      if env.failed then (false, db)
      else (true, db.withRows (db.rows.setViewLayout layout id))
  | createPlaylist name isDefault dwell, db =>
      if env.failed then (none, db)
      else
        (some (db.rows.playlistSeq + 1),
          db.withRows (db.rows.createPlaylist name isDefault dwell))
  | addPlaylistItem playlistID viewID position dwell, db =>
      if env.failed then (false, db)
      else (true, db.withRows (db.rows.addPlaylistItem playlistID viewID position dwell))

def Call.renewsCache : Call → Bool
  | clearWidgetCache | setSetting .cacheSchemaVersion _ => true
  | _ => false

/-! ## Starts and what lies between them -/

/-- What a start has found so far: the schema that stands in the store, which
settings are missing, whether the cache was cleared and whether a call for that
has failed. -/
structure Told where
  schema : Option String := none
  cleared : Bool := false
  unmigrated : Bool := false
  noPassphrase : Bool := false
  noTheme : Bool := false
  broken : Bool := false
  deriving DecidableEq, Repr

def absent (r : Except ReadError String) : Bool :=
  match r with
  | .error .noRows => true
  | _ => false

def Told.after : (c : Call) → Call.Res c → Told → Told
  | .getSetting .cacheSchemaVersion, (r : Except ReadError String), k =>
      { k with schema := r.toOption }
  | .getSetting .halfChimeMigrated, (r : Except ReadError String), k =>
      { k with unmigrated := absent r }
  | .getSetting .passphraseHash, (r : Except ReadError String), k =>
      { k with noPassphrase := absent r }
  | .getSetting .defaultTheme, (r : Except ReadError String), k => { k with noTheme := absent r }
  | .setSetting .cacheSchemaVersion value, (ok : Bool), k =>
      if ok then { k with schema := some value } else { k with broken := true }
  | .setSetting .halfChimeMigrated _, (ok : Bool), k =>
      { k with unmigrated := k.unmigrated && !ok }
  | .setSetting .passphraseHash _, (ok : Bool), k =>
      { k with noPassphrase := k.noPassphrase && !ok }
  | .setSetting .defaultTheme _, (ok : Bool), k => { k with noTheme := k.noTheme && !ok }
  | .clearWidgetCache, (ok : Bool), k =>
      if ok then { k with cleared := true } else { k with broken := true }
  | _, _, k => k

/-- `told` is history, and so is `before`: the rows at the start, or as a user
has left them since. -/
structure Process where
  version : String
  rest : Boot
  told : Told := {}
  before : Rows

def Process.serving (p : Process) : Bool :=
  match p.rest with
  | .ret ok => ok
  | .call _ _ => false

/-- `themeChosen` and `voiceChosen` are history: the last choice of a user, of
the voice clock only since the migration is marked as done. -/
structure Host where
  db : Database := {}
  process : Option Process := none
  themeChosen : Option String := none
  voiceChosen : Option Config := none

/-- A start of a build, a call of that start, the end of the process, and what
users and the broker change while it serves. -/
inductive Act where
  | start (version adminPassphrase : String)
  | resume (env : Env)
  | stop
  | cacheWrite (widgetID : Int)
  | chooseTheme (id : String)
  | chooseVoice (cfg : Config)
  | edit (rows : Rows)

def Act.failing : Act → Bool
  | .resume env => env.failed
  | _ => false

namespace Host

def whileServing (s : Host) (f : Process → Host) : Option Host :=
  match s.process with
  | some p => if p.serving then some (f p) else none
  | none => none

def step (s : Host) : Act → Option Host
  | .start version adminPassphrase =>
      some { s with
        process := some
          { version, rest := bootstrap version adminPassphrase, before := s.db.rows } }
  | .resume env =>
      match s.process with
      | none => none
      | some p =>
          match p.rest with
          | .ret _ => none
          | .call c next =>
              some { s with
                db := (c.exec env s.db).2
                process := some { p with
                  rest := next (c.exec env s.db).1
                  told := p.told.after c (c.exec env s.db).1 } }
  | .stop => some { s with process := none }
  | .cacheWrite widgetID =>
      s.whileServing fun p => { s with
        db := { s.db with
          cache := s.db.cache.filter (·.1 ≠ widgetID) ++ [(widgetID, p.version)] } }
  | .chooseTheme id =>
      s.whileServing fun _ => { s with
        db := s.db.set .defaultTheme id
        themeChosen := some id }
  | .chooseVoice cfg =>
      s.whileServing fun _ => { s with
        db := { s.db with voiceclock := some cfg }
        voiceChosen :=
          if (s.db.settings .halfChimeMigrated).isSome then some cfg else s.voiceChosen }
  | .edit rows =>
      s.whileServing fun p => { s with
        db := s.db.withRows rows
        process := some { p with before := rows } }

def acts : System Host Act := ⟨step⟩

end Host

/-! ## What a start may do -/

/-- Of the settings, only what was found missing is written. -/
def Asks (version : String) (k : Told) : Call → Prop
  | .setSetting .cacheSchemaVersion value => value = version ∧ k.cleared = true
  | .setSetting .passphraseHash _ => k.noPassphrase = true
  | .setSetting .defaultTheme _ => k.noTheme = true
  | .setSetting .halfChimeMigrated _ | .setVoiceclock _ => k.unmigrated = true
  | _ => True

/-- The store holds the schema of the build, or a call for that has failed. -/
def Settled (version : String) (k : Told) : Prop :=
  k.broken = true ∨ k.schema = some version

abbrev Honoured (version : String) (k : Told) (p : Boot) : Prop :=
  p.Honours Told.after (Asks version) (fun k ok => ok = true → Settled version k) k

variable {version : String} {k : Told}

theorem honoured_orFail {c : Call} {next : Call.Res c → Option Boot} (hasks : Asks version k c)
    (hnext : ∀ r, ∀ p ∈ next r, Honoured version (k.after c r) p) :
    Honoured version k (orFail c next) := by
  refine ⟨hasks, ?_⟩
  intro r
  cases hr : next r with
  | none =>
      dsimp only
      rw [hr]
      intro hok
      cases hok
  | some p =>
      dsimp only
      rw [hr]
      exact hnext r p hr

theorem honoured_create {α : Type} {next : α → Boot} {r : Option α}
    (h : ∀ a, Honoured version k (next a)) : ∀ p ∈ create next r, Honoured version k p := by
  intro p hp
  obtain ⟨a, -, rfl⟩ := Option.map_eq_some_iff.mp hp
  exact h a

theorem honoured_done {next : Boot} {ok : Bool} (h : Honoured version k next) :
    ∀ p ∈ done next ok, Honoured version k p := by
  intro p hp
  unfold done at hp
  split at hp
  · cases hp
    exact h
  · cases hp

theorem honoured_seedPlaylist (hk : Settled version k)
    (view aftellen : Int) : Honoured version k (seedPlaylist view aftellen) := by
  refine honoured_orFail trivial ?_
  intro r
  apply honoured_create
  intro playlist
  refine honoured_orFail trivial ?_
  intro r
  apply honoured_done
  refine honoured_orFail trivial ?_
  intro r
  apply honoured_done
  exact fun _ => hk

theorem honoured_seedPlacements (hk : Settled version k)
    (view countdown clock : Int) : Honoured version k (seedPlacements view countdown clock) := by
  refine honoured_orFail trivial ?_
  intro r
  apply honoured_done
  refine honoured_orFail trivial ?_
  intro r
  apply honoured_done
  refine honoured_orFail trivial ?_
  intro r
  apply honoured_create
  intro aftellen
  refine honoured_orFail trivial ?_
  intro r
  apply honoured_done
  exact ⟨trivial, fun _ => ⟨trivial, fun _ => honoured_seedPlaylist hk _ _⟩⟩

theorem honoured_seedDemo (hk : Settled version k) : Honoured version k seedDemo := by
  refine honoured_orFail trivial ?_
  intro r
  apply honoured_create
  intro view
  refine honoured_orFail trivial ?_
  intro r
  apply honoured_create
  intro countdown
  refine honoured_orFail trivial ?_
  intro r
  apply honoured_create
  intro clock
  exact honoured_seedPlacements hk _ _ _

theorem honoured_seedViews (hk : Settled version k) : Honoured version k seedViews := by
  refine ⟨trivial, ?_⟩
  intro n
  cases n with
  | none =>
      intro hok
      cases hok
  | some n =>
      dsimp only
      split
      · exact honoured_seedDemo hk
      · exact fun _ => hk

theorem honoured_seedTheme {next : Boot} (hk : Settled version k)
    (hnext : ∀ k, Settled version k → Honoured version k next) :
    Honoured version k (seedTheme next) := by
  refine ⟨trivial, ?_⟩
  intro stored
  have hk' : Settled version (k.after (.getSetting .defaultTheme) stored) := hk
  dsimp only
  split
  · refine honoured_orFail rfl ?_
    intro ok
    apply honoured_done
    exact hnext _ hk
  · exact hnext _ hk'

theorem honoured_seedPassphrase {adminPassphrase : String} {next : Boot} (hk : Settled version k)
    (hnext : ∀ k, Settled version k → Honoured version k next) :
    Honoured version k (seedPassphrase adminPassphrase next) := by
  refine ⟨trivial, ?_⟩
  intro stored
  have hk' : Settled version (k.after (.getSetting .passphraseHash) stored) := hk
  dsimp only
  split
  · split
    · refine honoured_orFail trivial ?_
      intro r
      apply honoured_create
      intro hash
      refine honoured_orFail rfl ?_
      intro ok
      apply honoured_done
      exact hnext _ hk
    · exact hnext _ hk
  · exact hnext _ hk'

theorem honoured_migrateHalfChime {next : Boot} (hk : Settled version k)
    (hnext : ∀ k, Settled version k → Honoured version k next) :
    Honoured version k (migrateHalfChime next) := by
  refine ⟨trivial, ?_⟩
  intro seen
  have hk' : Settled version (k.after (.getSetting .halfChimeMigrated) seen) := hk
  dsimp only
  split
  · refine ⟨trivial, ?_⟩
    intro v
    cases v with
    | none => exact ⟨rfl, fun ok => hnext _ hk⟩
    | some cfg => exact ⟨rfl, fun _ => ⟨rfl, fun ok => hnext _ hk⟩⟩
  · exact hnext _ hk'

theorem honoured_invalidateStaleCache {next : Boot}
    (hnext : ∀ k, Settled version k → Honoured version k next) :
    Honoured version k (invalidateStaleCache version next) := by
  have hclear (k : Told) : Honoured version k
      (.call .clearWidgetCache fun (ok : Bool) =>
        if ok then .call (.setSetting .cacheSchemaVersion version) fun _ => next else next) := by
    refine ⟨trivial, ?_⟩
    intro ok
    cases ok with
    | false => exact hnext _ (.inl rfl)
    | true =>
        refine ⟨⟨rfl, rfl⟩, ?_⟩
        intro ok
        cases ok with
        | false => exact hnext _ (.inl rfl)
        | true => exact hnext _ (.inr rfl)
  refine ⟨trivial, ?_⟩
  intro cur
  cases cur with
  | error e => exact hclear _
  | ok cur =>
      dsimp only
      split
      · rename_i hcur
        exact hnext _ (.inr (congrArg some hcur))
      · exact hclear _

theorem honoured_bootstrap (adminPassphrase : String) :
    Honoured version k (bootstrap version adminPassphrase) := by
  apply honoured_invalidateStaleCache
  intro k hk
  apply honoured_migrateHalfChime hk
  intro k hk
  apply honoured_seedPassphrase hk
  intro k hk
  apply honoured_seedTheme hk
  intro k hk
  exact honoured_seedViews hk

/-! ## What a start has found is right -/

structure Told.Right (k : Told) (db : Database) : Prop where
  schema : ∀ v, k.schema = some v → db.settings .cacheSchemaVersion = some v
  cleared : k.cleared = true → db.cache = []
  unmigrated : k.unmigrated = true → db.settings .halfChimeMigrated = none
  noPassphrase : k.noPassphrase = true → db.settings .passphraseHash = none
  noTheme : k.noTheme = true → db.settings .defaultTheme = none

theorem eq_none_of_absent {failed : Bool} {row : Option String}
    (h : absent (Tables.answer failed row) = true) : row = none := by
  unfold Tables.answer at h
  cases failed with
  | true => cases h
  | false =>
      cases row with
      | none => rfl
      | some a => cases h

theorem eq_some_of_toOption {failed : Bool} {row : Option String} {v : String}
    (h : (Tables.answer failed row).toOption = some v) : row = some v := by
  unfold Tables.answer at h
  cases failed with
  | true => cases h
  | false =>
      cases row with
      | none => cases h
      | some a => exact h

variable {db : Database} {env : Env}

theorem Told.Right.read (h : k.Right db) (key : Key) :
    (k.after (.getSetting key) (Tables.answer env.failed (db.settings key))).Right db := by
  cases key with
  | cacheSchemaVersion => exact { h with schema := fun v hv => eq_some_of_toOption hv }
  | halfChimeMigrated => exact { h with unmigrated := eq_none_of_absent }
  | passphraseHash => exact { h with noPassphrase := eq_none_of_absent }
  | defaultTheme => exact { h with noTheme := eq_none_of_absent }

theorem Told.Right.set (h : k.Right db) (key : Key) (value : String) :
    (k.after (.setSetting key value) true).Right (db.set key value) := by
  cases key with
  | cacheSchemaVersion =>
      refine { h with schema := ?_ }
      intro v hv
      cases hv
      rfl
  | halfChimeMigrated =>
      refine { h with unmigrated := ?_ }
      intro hk
      simp [Told.after] at hk
  | passphraseHash =>
      refine { h with noPassphrase := ?_ }
      intro hk
      simp [Told.after] at hk
  | defaultTheme =>
      refine { h with noTheme := ?_ }
      intro hk
      simp [Told.after] at hk

theorem Told.Right.setFailed (h : k.Right db) (key : Key) (value : String) :
    (k.after (.setSetting key value) false).Right db := by
  cases key with
  | cacheSchemaVersion => exact { h with }
  | halfChimeMigrated =>
      refine { h with unmigrated := fun hk => h.unmigrated ?_ }
      simpa [Told.after] using hk
  | passphraseHash =>
      refine { h with noPassphrase := fun hk => h.noPassphrase ?_ }
      simpa [Told.after] using hk
  | defaultTheme =>
      refine { h with noTheme := fun hk => h.noTheme ?_ }
      simpa [Told.after] using hk

theorem Told.Right.call (env : Env) (h : k.Right db) {c : Call} (hasks : Asks version k c) :
    (k.after c (c.exec env db).1).Right (c.exec env db).2 := by
  cases c with
  | getSetting key => exact h.read key
  | setSetting key value =>
      simp only [Call.exec]
      split
      · exact h.setFailed key value
      · exact h.set key value
  | getVoiceclock => exact h
  | hashPassphrase passphrase => exact h
  | setVoiceclock cfg =>
      simp only [Call.exec]
      split
      · exact h
      · exact { h with }
  | clearWidgetCache =>
      simp only [Call.exec]
      split
      · exact { h with }
      · exact { h with cleared := fun _ => rfl }
  | countViews => exact h
  | createView _ | createWidget _ _ _ | createPlacement _ | setViewLayout _ _
  | createPlaylist _ _ _ | addPlaylistItem _ _ _ _ =>
      simp only [Call.exec]
      split
      · exact h
      · exact { h with }

/-! ## What a call leaves alone -/

/-- A setting that is there is not written, nor the voice clock once its
migration is marked as done. -/
structure Spared (db db' : Database) : Prop where
  passphrase : (db.settings .passphraseHash).isSome →
    db'.settings .passphraseHash = db.settings .passphraseHash
  theme : (db.settings .defaultTheme).isSome →
    db'.settings .defaultTheme = db.settings .defaultTheme
  migrated : (db.settings .halfChimeMigrated).isSome →
    (db'.settings .halfChimeMigrated).isSome ∧ db'.voiceclock = db.voiceclock

theorem Spared.refl (db : Database) : Spared db db :=
  ⟨fun _ => rfl, fun _ => rfl, fun h => ⟨h, rfl⟩⟩

theorem Spared.set {key : Key} (value : String)
    (hnone : key ≠ .cacheSchemaVersion → db.settings key = none) :
    Spared db (db.set key value) := by
  cases key with
  | cacheSchemaVersion => exact ⟨fun _ => rfl, fun _ => rfl, fun h => ⟨h, rfl⟩⟩
  | halfChimeMigrated =>
      refine ⟨fun _ => rfl, fun _ => rfl, ?_⟩
      intro h
      simp [hnone (by decide)] at h
  | passphraseHash =>
      refine ⟨?_, fun _ => rfl, fun h => ⟨h, rfl⟩⟩
      intro h
      simp [hnone (by decide)] at h
  | defaultTheme =>
      refine ⟨fun _ => rfl, ?_, fun h => ⟨h, rfl⟩⟩
      intro h
      simp [hnone (by decide)] at h

theorem Told.Right.spared (env : Env) (h : k.Right db) {c : Call} (hasks : Asks version k c) :
    Spared db (c.exec env db).2 := by
  cases hfailed : env.failed with
  | true => cases c <;> simp only [Call.exec, hfailed, if_true] <;> exact .refl db
  | false =>
      cases c with
      | setSetting key value =>
          simp only [Call.exec, hfailed, Bool.false_eq_true, if_false]
          apply Spared.set
          intro hkey
          cases key with
          | cacheSchemaVersion => exact absurd rfl hkey
          | halfChimeMigrated => exact h.unmigrated hasks
          | passphraseHash => exact h.noPassphrase hasks
          | defaultTheme => exact h.noTheme hasks
      | setVoiceclock cfg =>
          simp only [Call.exec, hfailed, Bool.false_eq_true, if_false]
          refine ⟨fun _ => rfl, fun _ => rfl, ?_⟩
          intro hsome
          simp [h.unmigrated hasks] at hsome
      | getSetting key => exact .refl db
      | getVoiceclock => exact .refl db
      | hashPassphrase passphrase => exact .refl db
      | clearWidgetCache | countViews | createView _ | createWidget _ _ _ | createPlacement _
      | setViewLayout _ _ | createPlaylist _ _ _ | addPlaylistItem _ _ _ _ =>
          simp only [Call.exec, hfailed, Bool.false_eq_true, if_false]
          exact ⟨fun _ => rfl, fun _ => rfl, fun h => ⟨h, rfl⟩⟩

/-! ## What the demo adds -/

def demoViews (r : Rows) (laid laid' : Bool) : List View :=
  [⟨r.viewSeq + 1, "Demo", 3, 2, "licht", 1, 0, 15,
      if laid then some (demoLayout (r.widgetSeq + 1) (r.widgetSeq + 2)) else none⟩,
    ⟨r.viewSeq + 2, "Aftellen", 1, 1, "donker", 1, 1, 10,
      if laid' then some (.leaf { widgetID := r.widgetSeq + 1 }) else none⟩]

def demoWidgets (r : Rows) : List Widget :=
  [⟨r.widgetSeq + 1, "Kerst", "countdown",
      "\x7b\"title\":\"Kerstmis\",\"date\":\"2026-12-25\"\x7d"⟩,
    ⟨r.widgetSeq + 2, "Klok", "clock", "\x7b\x7d"⟩]

def demoPlacements (r : Rows) : List Placement :=
  [⟨r.viewSeq + 1, r.widgetSeq + 1, 1, 1, 2, 2, "\x7b\x7d"⟩,
    ⟨r.viewSeq + 1, r.widgetSeq + 2, 3, 1, 1, 2, "\x7b\x7d"⟩,
    ⟨r.viewSeq + 2, r.widgetSeq + 1, 1, 1, 1, 1, "\x7b\x7d"⟩]

def demoPlaylists (r : Rows) : List Playlist := [⟨r.playlistSeq + 1, "Standaard", 1, 15⟩]

def demoItems (r : Rows) : List PlaylistItem :=
  [⟨r.itemSeq + 1, r.playlistSeq + 1, r.viewSeq + 1, 0, 0⟩,
    ⟨r.itemSeq + 2, r.playlistSeq + 1, r.viewSeq + 2, 1, 10⟩]

/-- The rows with the first so many of the demo in each table, and the layouts
that were set. -/
def Rows.withDemo (r : Rows) (views widgets placements playlists items : Nat)
    (laid laid' : Bool) : Rows where
  views := r.views ++ (demoViews r laid laid').take views
  widgets := r.widgets ++ (demoWidgets r).take widgets
  placements := r.placements ++ (demoPlacements r).take placements
  playlists := r.playlists ++ (demoPlaylists r).take playlists
  items := r.items ++ (demoItems r).take items
  viewSeq := r.viewSeq + ((demoViews r laid laid').take views).length
  widgetSeq := r.widgetSeq + ((demoWidgets r).take widgets).length
  playlistSeq := r.playlistSeq + ((demoPlaylists r).take playlists).length
  itemSeq := r.itemSeq + ((demoItems r).take items).length

/-- Nothing was added, or there was no view and part of the demo was. -/
def Seeded (before rows : Rows) : Prop :=
  rows = before ∨ before.views = [] ∧
    ∃ views widgets placements playlists items laid laid',
      rows = before.withDemo views widgets placements playlists items laid laid'

abbrev Demo (before : Rows) (p : Boot) (db : Database) : Prop :=
  p.Throughout Call.exec (fun db => Seeded before db.rows) db

variable {before : Rows}

theorem Seeded.demo (hviews : before.views = []) {views widgets placements playlists items : Nat}
    {laid laid' : Bool}
    (hrows : db.rows = before.withDemo views widgets placements playlists items laid laid') :
    Seeded before db.rows := .inr ⟨hviews, _, _, _, _, _, _, _, hrows⟩

theorem demo_orFail (rows : Rows) {c : Call} {next : Call.Res c → Option Boot} {db' : Database}
    {bad good : Call.Res c} {p : Boot} (hnow : Seeded before db.rows)
    (hexec : ∀ env, c.exec env db = if env.failed then (bad, db) else (good, db'))
    (hbad : next bad = none) (hgood : next good = some p) (hrows : db'.rows = rows)
    (hp : ∀ db', db'.rows = rows → Demo before p db') : Demo before (orFail c next) db := by
  refine ⟨hnow, ?_⟩
  intro env
  rw [hexec]
  cases env.failed with
  | true =>
      simp only [if_true, hbad]
      exact hnow
  | false =>
      simp only [Bool.false_eq_true, if_false, hgood]
      exact hp db' hrows

theorem demo_seedPlaylist (hviews : before.views = []) {laid laid' : Bool}
    (hrows : db.rows = before.withDemo 2 2 3 0 0 laid laid') :
    Demo before (seedPlaylist (before.viewSeq + 1) (before.viewSeq + 2)) db := by
  refine demo_orFail (before.withDemo 2 2 3 1 0 laid laid') (.demo hviews hrows) (fun _ => rfl)
    rfl rfl ?_ ?_
  · simp [hrows, Database.withRows, Rows.createPlaylist, Rows.withDemo, demoPlaylists]
  intro db' hrows'
  have hid : db.rows.playlistSeq + 1 = before.playlistSeq + 1 := by simp [hrows, Rows.withDemo]
  rw [hid]
  refine demo_orFail (before.withDemo 2 2 3 1 1 laid laid') (.demo hviews hrows') (fun _ => rfl)
    rfl rfl ?_ ?_
  · simp [hrows', Database.withRows, Rows.addPlaylistItem, Rows.withDemo, demoItems]
  intro db' hrows'
  refine demo_orFail (before.withDemo 2 2 3 1 2 laid laid') (.demo hviews hrows') (fun _ => rfl)
    rfl rfl ?_ ?_
  · simp [hrows', Database.withRows, Rows.addPlaylistItem, Rows.withDemo, demoItems, add_assoc]
  intro db' hrows'
  exact Seeded.demo hviews hrows'

theorem demo_setViewLayout (rows rows' : Rows) {layout : Screen.Node Int} {id : Int} {next : Boot}
    (hnow : Seeded before db.rows) (hrows : db.rows = rows)
    (hset : rows.setViewLayout layout id = rows')
    (hnext : ∀ db', db'.rows = rows ∨ db'.rows = rows' → Demo before next db') :
    Demo before (.call (.setViewLayout layout id) fun _ => next) db := by
  refine ⟨hnow, ?_⟩
  intro env
  apply hnext
  cases hfailed : env.failed with
  | true => simp [Call.exec, hfailed, hrows]
  | false => simp [Call.exec, hfailed, Database.withRows, hrows, hset]

theorem demo_seedLayouts (hviews : before.views = [])
    (hrows : db.rows = before.withDemo 2 2 3 0 0 false false) :
    Demo before (seedLayouts (before.viewSeq + 1) (before.widgetSeq + 1) (before.widgetSeq + 2)
      (before.viewSeq + 2)) db := by
  refine demo_setViewLayout _ (before.withDemo 2 2 3 0 0 true false) (.demo hviews hrows) hrows
    ?_ ?_
  · simp [Rows.setViewLayout, Rows.withDemo, demoViews, hviews]
  intro db' hfirst
  obtain ⟨laid, hfirst⟩ : ∃ laid, db'.rows = before.withDemo 2 2 3 0 0 laid false :=
    hfirst.elim (fun h => ⟨_, h⟩) fun h => ⟨_, h⟩
  refine demo_setViewLayout _ (before.withDemo 2 2 3 0 0 laid true) (.demo hviews hfirst) hfirst
    ?_ ?_
  · simp [Rows.setViewLayout, Rows.withDemo, demoViews, hviews]
  intro db' hsecond
  rcases hsecond with hsecond | hsecond
  · exact demo_seedPlaylist hviews hsecond
  · exact demo_seedPlaylist hviews hsecond

theorem demo_seedPlacements (hviews : before.views = [])
    (hrows : db.rows = before.withDemo 1 2 0 0 0 false false) :
    Demo before (seedPlacements (before.viewSeq + 1) (before.widgetSeq + 1)
      (before.widgetSeq + 2)) db := by
  refine demo_orFail (before.withDemo 1 2 1 0 0 false false) (.demo hviews hrows) (fun _ => rfl)
    rfl rfl ?_ ?_
  · simp [hrows, Database.withRows, Rows.withDemo, demoPlacements]
  intro db' hrows'
  refine demo_orFail (before.withDemo 1 2 2 0 0 false false) (.demo hviews hrows') (fun _ => rfl)
    rfl rfl ?_ ?_
  · simp [hrows', Database.withRows, Rows.withDemo, demoPlacements]
  intro db hrows
  refine demo_orFail (before.withDemo 2 2 2 0 0 false false) (.demo hviews hrows) (fun _ => rfl)
    rfl rfl ?_ ?_
  · simp [hrows, Database.withRows, Rows.createView, Rows.withDemo, demoViews, add_assoc]
  intro db' hrows'
  have hid : db.rows.viewSeq + 1 = before.viewSeq + 2 := by
    simp [hrows, Rows.withDemo, demoViews, add_assoc]
  rw [hid]
  refine demo_orFail (before.withDemo 2 2 3 0 0 false false) (.demo hviews hrows') (fun _ => rfl)
    rfl rfl ?_ ?_
  · simp [hrows', Database.withRows, Rows.withDemo, demoPlacements]
  intro db' hrows'
  exact demo_seedLayouts hviews hrows'

theorem demo_seedDemo (hviews : before.views = []) (hrows : db.rows = before) :
    Demo before seedDemo db := by
  refine demo_orFail (before.withDemo 1 0 0 0 0 false false) (.inl hrows) (fun _ => rfl)
    rfl rfl ?_ ?_
  · simp [hrows, Database.withRows, Rows.createView, Rows.withDemo, demoViews]
  intro db₁ hrows₁
  rw [hrows]
  refine demo_orFail (before.withDemo 1 1 0 0 0 false false) (.demo hviews hrows₁) (fun _ => rfl)
    rfl rfl ?_ ?_
  · simp [hrows₁, Database.withRows, Rows.createWidget, Rows.withDemo, demoWidgets]
  intro db₂ hrows₂
  have hcountdown : db₁.rows.widgetSeq + 1 = before.widgetSeq + 1 := by
    simp [hrows₁, Rows.withDemo]
  rw [hcountdown]
  refine demo_orFail (before.withDemo 1 2 0 0 0 false false) (.demo hviews hrows₂) (fun _ => rfl)
    rfl rfl ?_ ?_
  · simp [hrows₂, Database.withRows, Rows.createWidget, Rows.withDemo, demoWidgets, add_assoc]
  intro db₃ hrows₃
  have hclock : db₂.rows.widgetSeq + 1 = before.widgetSeq + 2 := by
    simp [hrows₂, Rows.withDemo, demoWidgets, add_assoc]
  rw [hclock]
  exact demo_seedPlacements hviews hrows₃

theorem demo_seedViews (hrows : db.rows = before) : Demo before seedViews db := by
  refine ⟨.inl hrows, ?_⟩
  intro env
  cases hfailed : env.failed with
  | true =>
      simp only [Call.exec, hfailed, if_true]
      exact .inl hrows
  | false =>
      simp only [Call.exec, hfailed, Bool.false_eq_true, if_false]
      split
      · rename_i hnone
        rw [hrows] at hnone
        exact demo_seedDemo (List.length_eq_zero_iff.mp hnone) hrows
      · exact .inl hrows

/-! The calls before that leave the rows alone. -/

def Call.isSetting : Call → Bool
  | getSetting _ | setSetting _ _ | getVoiceclock | setVoiceclock _ | clearWidgetCache
  | hashPassphrase _ => true
  | _ => false

theorem exec_rows {c : Call} (hc : c.isSetting = true) (env : Env) (db : Database) :
    (c.exec env db).2.rows = db.rows := by
  cases c with
  | setSetting key value =>
      simp only [Call.exec]
      split <;> rfl
  | setVoiceclock cfg =>
      simp only [Call.exec]
      split <;> rfl
  | clearWidgetCache =>
      simp only [Call.exec]
      split <;> rfl
  | getSetting _ | getVoiceclock | hashPassphrase _ => rfl
  | _ => cases hc

theorem demo_call {c : Call} {next : Call.Res c → Boot} (hc : c.isSetting = true)
    (hrows : db.rows = before)
    (hnext : ∀ r db', db'.rows = before → Demo before (next r) db') :
    Demo before (.call c next) db :=
  ⟨.inl hrows, fun env => hnext _ _ ((exec_rows hc env db).trans hrows)⟩

variable {next : Boot} (hnext : ∀ db, db.rows = before → Demo before next db)

include hnext

theorem demo_seedTheme (hrows : db.rows = before) : Demo before (seedTheme next) db := by
  refine demo_call rfl hrows ?_
  intro stored db' hrows'
  split
  · refine ⟨.inl hrows', fun env => ?_⟩
    have hrows'' : ((Call.setSetting .defaultTheme "licht").exec env db').2.rows = before :=
      (exec_rows rfl env db').trans hrows'
    cases hok : ((Call.setSetting .defaultTheme "licht").exec env db').1 with
    | true => exact hnext _ hrows''
    | false => exact .inl hrows''
  · exact hnext _ hrows'

theorem demo_seedPassphrase (adminPassphrase : String) (hrows : db.rows = before) :
    Demo before (seedPassphrase adminPassphrase next) db := by
  refine demo_call rfl hrows ?_
  intro stored db' hrows'
  split
  · split
    · refine demo_call rfl hrows' ?_
      intro hash db' hrows'
      cases hash with
      | none => exact .inl hrows'
      | some hash =>
          refine demo_call rfl hrows' ?_
          intro ok db' hrows'
          cases ok with
          | true => exact hnext _ hrows'
          | false => exact .inl hrows'
    · exact hnext _ hrows'
  · exact hnext _ hrows'

theorem demo_migrateHalfChime (hrows : db.rows = before) :
    Demo before (migrateHalfChime next) db := by
  refine demo_call rfl hrows ?_
  intro seen db' hrows'
  split
  · refine demo_call rfl hrows' ?_
    intro v db' hrows'
    cases v with
    | none => exact demo_call rfl hrows' fun _ => hnext
    | some cfg =>
        refine demo_call rfl hrows' ?_
        intro ok db' hrows'
        exact demo_call rfl hrows' fun _ => hnext
  · exact hnext _ hrows'

theorem demo_invalidateStaleCache (cacheSchemaVersion : String) (hrows : db.rows = before) :
    Demo before (invalidateStaleCache cacheSchemaVersion next) db := by
  have hclear {db : Database} (hrows : db.rows = before) : Demo before
      (.call .clearWidgetCache fun (ok : Bool) =>
        if ok then .call (.setSetting .cacheSchemaVersion cacheSchemaVersion) fun _ => next
        else next) db := by
    refine demo_call rfl hrows ?_
    intro ok db' hrows'
    cases ok with
    | true => exact demo_call rfl hrows' fun _ => hnext
    | false => exact hnext _ hrows'
  refine demo_call rfl hrows ?_
  intro cur db' hrows'
  cases cur with
  | error e => exact hclear hrows'
  | ok cur =>
      dsimp only
      split
      · exact hnext _ hrows'
      · exact hclear hrows'

omit hnext

theorem demo_bootstrap (cacheSchemaVersion adminPassphrase : String) (hrows : db.rows = before) :
    Demo before (bootstrap cacheSchemaVersion adminPassphrase) db := by
  apply demo_invalidateStaleCache _ _ hrows
  intro db hrows
  apply demo_migrateHalfChime _ hrows
  intro db hrows
  apply demo_seedPassphrase _ _ hrows
  intro db hrows
  apply demo_seedTheme _ hrows
  intro db hrows
  exact demo_seedViews hrows

/-! ## Runs -/

namespace Host

variable {s s' : Host} {db₀ : Database}

structure Sound (db₀ : Database) (s : Host) : Prop where
  honoured : ∀ p, s.process = some p → Honoured p.version p.told p.rest
  right : ∀ p, s.process = some p → p.serving = false → p.told.Right s.db
  demo : ∀ p, s.process = some p → Demo p.before p.rest s.db
  schema : ∀ p, s.process = some p → ∀ v, p.told.schema = some v →
    s.db.settings .cacheSchemaVersion = some v
  passphrase : ∀ h, db₀.settings .passphraseHash = some h →
    s.db.settings .passphraseHash = some h
  theme : ∀ id, s.themeChosen = some id → s.db.settings .defaultTheme = some id
  voice : ∀ cfg, s.voiceChosen = some cfg →
    (s.db.settings .halfChimeMigrated).isSome ∧ s.db.voiceclock = some cfg

theorem whileServing_cases {f : Process → Host} (h : s.whileServing f = some s') :
    ∃ p, s.process = some p ∧ p.serving = true ∧ s' = f p := by
  unfold whileServing at h
  split at h
  · rename_i p hp
    split at h
    · rename_i hserving
      cases h
      exact ⟨p, hp, hserving, rfl⟩
    · contradiction
  · contradiction

theorem resume_cases {env : Env} (h : s.step (.resume env) = some s') :
    ∃ p c next, s.process = some p ∧ p.rest = .call c next ∧ s' = { s with
      db := (c.exec env s.db).2
      process := some { p with
        rest := next (c.exec env s.db).1
        told := p.told.after c (c.exec env s.db).1 } } := by
  simp only [step] at h
  split at h
  · contradiction
  · rename_i p hp
    split at h
    · contradiction
    · rename_i c next hrest
      cases h
      exact ⟨p, c, next, hp, hrest, rfl⟩

theorem Sound.resume (hs : s.Sound db₀) {env : Env} {p : Process} {c : Call}
    {next : Call.Res c → Boot} (hp : s.process = some p) (hrest : p.rest = .call c next) :
    Sound db₀ { s with
      db := (c.exec env s.db).2
      process := some { p with
        rest := next (c.exec env s.db).1
        told := p.told.after c (c.exec env s.db).1 } } := by
  have hhonoured := hs.honoured p hp
  rw [hrest] at hhonoured
  obtain ⟨hasks, hnext⟩ := hhonoured
  have hdemo := hs.demo p hp
  rw [hrest] at hdemo
  have hright := hs.right p hp (by simp [Process.serving, hrest])
  have hcall := hright.call env hasks
  have hspared := hright.spared env hasks
  constructor
  · intro p' hp'
    cases hp'
    exact hnext _
  · intro p' hp' _
    cases hp'
    exact hcall
  · intro p' hp'
    cases hp'
    exact hdemo.2 env
  · intro p' hp'
    cases hp'
    exact hcall.schema
  · intro h hh
    have hold := hs.passphrase h hh
    rw [← hold]
    exact hspared.passphrase (by simp [hold])
  · intro id hid
    have hold := hs.theme id hid
    rw [← hold]
    exact hspared.theme (by simp [hold])
  · intro cfg hcfg
    obtain ⟨hdone, hold⟩ := hs.voice cfg hcfg
    obtain ⟨hdone', hsame⟩ := hspared.migrated hdone
    exact ⟨hdone', hsame.trans hold⟩

theorem Sound.serve (hs : s.Sound db₀) {p : Process} (hp : s.process = some p)
    (hserving : p.serving = true) {db : Database} {themeChosen : Option String}
    {voiceChosen : Option Config} (hrows : db.rows = s.db.rows)
    (hsettings : ∀ key, key ≠ .defaultTheme → db.settings key = s.db.settings key)
    (htheme : ∀ id, themeChosen = some id → db.settings .defaultTheme = some id)
    (hvoice : ∀ cfg, voiceChosen = some cfg →
      (s.db.settings .halfChimeMigrated).isSome ∧ db.voiceclock = some cfg) :
    Sound db₀ { s with db, themeChosen, voiceChosen } := by
  constructor
  · exact hs.honoured
  · intro p' hp' hidle
    cases hp.symm.trans hp'
    exact absurd (hserving.symm.trans hidle) (by decide)
  · intro p' hp'
    cases hp.symm.trans hp'
    have hnow := (hs.demo p hp).now
    unfold Process.serving at hserving
    split at hserving
    · rename_i ok hrest
      rw [hrest]
      show Seeded p.before db.rows
      rw [hrows]
      exact hnow
    · contradiction
  · intro p' hp' v hv
    exact (hsettings _ (by decide)).trans (hs.schema p' hp' v hv)
  · intro h hh
    exact (hsettings _ (by decide)).trans (hs.passphrase h hh)
  · exact htheme
  · intro cfg hcfg
    rw [hsettings .halfChimeMigrated (by decide)]
    exact hvoice cfg hcfg

theorem Sound.edit (hs : s.Sound db₀) {p : Process} (hp : s.process = some p)
    (hserving : p.serving = true) (rows : Rows) :
    Sound db₀ { s with
      db := s.db.withRows rows
      process := some { p with before := rows } } := by
  refine { hs with honoured := ?_, right := ?_, demo := ?_, schema := ?_ }
  · intro p' hp'
    cases hp'
    exact hs.honoured p hp
  · intro p' hp' hidle
    cases hp'
    exact absurd (hserving.symm.trans hidle) (by decide)
  · intro p' hp'
    cases hp'
    unfold Process.serving at hserving
    split at hserving
    · rename_i ok hrest
      rw [hrest]
      exact .inl rfl
    · contradiction
  · intro p' hp'
    cases hp'
    exact hs.schema p hp

theorem Sound.step (hs : s.Sound db₀) {a : Act} (h : s.step a = some s') : s'.Sound db₀ := by
  cases a with
  | start version adminPassphrase =>
      cases h
      refine { hs with honoured := ?_, right := ?_, demo := ?_, schema := ?_ }
      · intro p hp
        cases hp
        exact honoured_bootstrap adminPassphrase
      · intro p hp _
        cases hp
        constructor
        all_goals simp
      · intro p hp
        cases hp
        exact demo_bootstrap version adminPassphrase rfl
      · intro p hp v hv
        cases hp
        cases hv
  | resume env =>
      obtain ⟨p, c, next, hp, hrest, rfl⟩ := resume_cases h
      exact hs.resume hp hrest
  | stop =>
      cases h
      refine { hs with honoured := ?_, right := ?_, demo := ?_, schema := ?_ }
      all_goals
        intro p hp
        cases hp
  | cacheWrite widgetID =>
      obtain ⟨p, hp, hserving, rfl⟩ := whileServing_cases h
      exact hs.serve hp hserving rfl (fun _ _ => rfl) hs.theme hs.voice
  | chooseTheme id =>
      obtain ⟨p, hp, hserving, rfl⟩ := whileServing_cases h
      refine hs.serve hp hserving rfl ?_ ?_ hs.voice
      · intro key hkey
        exact Function.update_of_ne hkey _ _
      · intro id' hid'
        cases hid'
        rfl
  | chooseVoice cfg =>
      obtain ⟨p, hp, hserving, rfl⟩ := whileServing_cases h
      refine hs.serve hp hserving rfl (fun _ _ => rfl) hs.theme ?_
      intro cfg' hcfg'
      split at hcfg'
      · rename_i hdone
        exact ⟨hdone, hcfg'⟩
      · rename_i hundone
        exact absurd (hs.voice cfg' hcfg').1 hundone
  | edit rows =>
      obtain ⟨p, hp, hserving, rfl⟩ := whileServing_cases h
      exact hs.edit hp hserving rows

theorem Sound.initial (db : Database) : Sound db { db } := by
  constructor <;> simp

theorem Sound.run {db : Database} {as : List Act} (hrun : acts.run { db } as = some s) :
    s.Sound db :=
  System.run_invariant (fun _ _ _ hu h => hu.step h) (Sound.initial db) hrun

/--
However often the server is started, whatever calls fail and wherever a start
stops: the passphrase that is stored stays, the theme and, once its migration
is marked as done, the voice clock are what a user chose last, and all rows are
as they were before the start or the last edit, or there was no view and those
of the demo have been added, as far as the start has come.
-/
theorem starts_keep {db : Database} {as as' : List Act} {m : Host}
    (hmid : acts.run { db } as = some m) (hrun : acts.run m as' = some s) :
    (∀ h, m.db.settings .passphraseHash = some h → s.db.settings .passphraseHash = some h) ∧
    (∀ id, s.themeChosen = some id → s.db.settings .defaultTheme = some id) ∧
    (∀ cfg, s.voiceChosen = some cfg → s.db.voiceclock = some cfg) ∧
    ∀ p, s.process = some p → Seeded p.before s.db.rows := by
  have hm : m.Sound m.db := { Sound.run hmid with passphrase := fun _ => id }
  have hs : s.Sound m.db := System.run_invariant (fun _ _ _ hu h => hu.step h) hm hrun
  exact ⟨hs.passphrase, hs.theme, fun cfg hcfg => (hs.voice cfg hcfg).2,
    fun p hp => (hs.demo p hp).now⟩

/-- A start that fails at the first widget leaves one view; the next one finds it. -/
private def interrupted : List Act :=
  [.start "8" "geheim"] ++ List.replicate 13 (.resume { salted := some "hash" }) ++
    [.resume { failed := true }]

private def restarted : List Act :=
  [.start "8" "anders"] ++ List.replicate 5 (.resume { salted := some "other" }) ++
    [.chooseTheme "donker", .start "8" "anders"] ++
    List.replicate 5 (.resume { salted := some "other" })

theorem starts_keep_interrupted :
    ∃ m s, acts.run {} interrupted = some m ∧ acts.run m restarted = some s ∧
      s.db.settings .passphraseHash = some "hash" ∧
      s.db.settings .defaultTheme = some "donker" ∧ s.db.rows.views.length = 1 ∧
      ∀ p, s.process = some p → Seeded p.before s.db.rows := by
  obtain ⟨m, hmid⟩ : ∃ m, acts.run {} interrupted = some m := ⟨_, rfl⟩
  have hhash : m.db.settings .passphraseHash = some "hash" := by
    cases hmid
    rfl
  obtain ⟨s, hrun⟩ : ∃ s, acts.run m restarted = some s := by
    cases hmid
    exact ⟨_, rfl⟩
  have hchosen : s.themeChosen = some "donker" ∧ s.db.rows.views.length = 1 := by
    cases hmid
    cases hrun
    exact ⟨rfl, rfl⟩
  obtain ⟨hpassphrase, htheme, -, hrows⟩ := starts_keep hmid hrun
  exact ⟨m, s, hmid, hrun, hpassphrase _ hhash, htheme _ hchosen.1, hchosen.2, hrows⟩

/-! ## The widget cache -/

/-- Every row was written under the schema that the store names. -/
def Coherent (db : Database) : Prop :=
  ∀ row ∈ db.cache, db.settings .cacheSchemaVersion = some row.2

/-- The calls that renew the cache do not fail. -/
def Reliable (s : Host) : Act → Prop
  | .resume env =>
      ∀ p, s.process = some p → ∀ c next, p.rest = .call c next → c.renewsCache = true →
        env.failed = false
  | _ => True

theorem reliable_of_not_failing {a : Act} (h : a.failing = false) : s.Reliable a := by
  cases a with
  | resume env => exact fun _ _ _ _ _ _ => h
  | _ => trivial

structure Fresh (s : Host) : Prop where
  coherent : Coherent s.db
  unbroken : ∀ p, s.process = some p → p.told.broken = false

theorem Sound.settled (hs : s.Sound db₀) (hfresh : s.Fresh) {p : Process}
    (hp : s.process = some p) (hserving : p.serving = true) :
    s.db.settings .cacheSchemaVersion = some p.version := by
  have hhonoured := hs.honoured p hp
  have hunbroken := hfresh.unbroken p hp
  unfold Process.serving at hserving
  split at hserving
  · rename_i ok hrest
    rw [hrest] at hhonoured
    rcases hhonoured hserving with hbroken | hschema
    · exact absurd (hbroken.symm.trans hunbroken) (by decide)
    · exact hs.schema p hp _ hschema
  · contradiction

theorem Coherent.call {db : Database} {k : Told} {version : String} {c : Call} {env : Env}
    (h : Coherent db) (hright : k.Right db) (hasks : Asks version k c) :
    Coherent (c.exec env db).2 := by
  cases hfailed : env.failed with
  | true => cases c <;> simpa only [Call.exec, hfailed, if_true] using h
  | false =>
      cases c with
      | clearWidgetCache =>
          intro row hrow
          simp [Call.exec, hfailed] at hrow
      | setSetting key value =>
          cases key with
          | cacheSchemaVersion =>
              intro row hrow
              have hnone := hright.cleared hasks.2
              simp [Call.exec, hfailed, Database.set, hnone] at hrow
          | halfChimeMigrated | passphraseHash | defaultTheme =>
              simp only [Call.exec, hfailed, Bool.false_eq_true, if_false]
              exact h
      | _ =>
          simp only [Call.exec, hfailed, Bool.false_eq_true, if_false]
          exact h

theorem unbroken_after {k : Told} {c : Call} {env : Env} {db : Database} (h : k.broken = false)
    (henv : c.renewsCache = true → env.failed = false) :
    (k.after c (c.exec env db).1).broken = false := by
  cases c with
  | setSetting key value =>
      cases key with
      | cacheSchemaVersion => simpa [Told.after, Call.exec, henv rfl] using h
      | halfChimeMigrated | passphraseHash | defaultTheme => exact h
  | clearWidgetCache => simpa [Told.after, Call.exec, henv rfl] using h
  | getSetting key => cases key <;> exact h
  | _ => exact h

theorem Fresh.step (hfresh : s.Fresh) (hs : s.Sound db₀) {a : Act} (hreliable : s.Reliable a)
    (h : s.step a = some s') : s'.Fresh := by
  cases a with
  | start version adminPassphrase =>
      cases h
      refine ⟨hfresh.coherent, ?_⟩
      intro p hp
      cases hp
      rfl
  | resume env =>
      obtain ⟨p, c, next, hp, hrest, rfl⟩ := resume_cases h
      have hhonoured := hs.honoured p hp
      rw [hrest] at hhonoured
      have hright := hs.right p hp (by simp [Process.serving, hrest])
      refine ⟨hfresh.coherent.call hright hhonoured.1, ?_⟩
      intro p' hp'
      cases hp'
      exact unbroken_after (hfresh.unbroken p hp) (hreliable p hp c next hrest)
  | stop =>
      cases h
      refine ⟨hfresh.coherent, ?_⟩
      intro p hp
      cases hp
  | cacheWrite widgetID =>
      obtain ⟨p, hp, hserving, rfl⟩ := whileServing_cases h
      refine ⟨?_, hfresh.unbroken⟩
      intro row hrow
      rcases List.mem_append.mp hrow with hold | hnew
      · exact hfresh.coherent row (List.mem_filter.mp hold).1
      · rw [List.mem_singleton.mp hnew]
        exact hs.settled hfresh hp hserving
  | chooseTheme id =>
      obtain ⟨p, hp, hserving, rfl⟩ := whileServing_cases h
      exact ⟨hfresh.coherent, hfresh.unbroken⟩
  | chooseVoice cfg =>
      obtain ⟨p, hp, hserving, rfl⟩ := whileServing_cases h
      exact ⟨hfresh.coherent, hfresh.unbroken⟩
  | edit rows =>
      obtain ⟨p, hp, hserving, rfl⟩ := whileServing_cases h
      refine ⟨hfresh.coherent, ?_⟩
      intro p' hp'
      cases hp'
      exact hfresh.unbroken p hp

/--
While a build serves, it finds no row in the cache that a build of another
schema has written, whatever starts, crashes and failures of other calls there
have been.
-/
theorem serves_own_cache {db : Database} {as : List Act} (hcoherent : Coherent db)
    (hreliable : acts.Along Reliable { db } as) (hrun : acts.run { db } as = some s)
    {p : Process} (hp : s.process = some p) (hserving : p.serving = true) :
    ∀ row ∈ s.db.cache, row.2 = p.version := by
  have hinv : s.Sound db ∧ s.Fresh := by
    apply System.run_invariant_along (I := fun s => s.Sound db ∧ s.Fresh) _ _ hreliable hrun
    · intro u u' a hu ha h
      exact ⟨hu.1.step h, hu.2.step hu.1 ha h⟩
    · exact ⟨Sound.initial db, hcoherent, by simp⟩
  obtain ⟨hs, hfresh⟩ := hinv
  intro row hrow
  have hschema := hfresh.coherent row hrow
  rw [hs.settled hfresh hp hserving] at hschema
  exact (Option.some.inj hschema).symm

/-- A newer build drops what the older one has cached. -/
theorem serves_own_cache_upgraded :
    ∃ s p, acts.run {}
        ([.start "7" ""] ++ List.replicate 22 (.resume {}) ++
          [.cacheWrite 1, .cacheWrite 2, .stop, .start "8" ""] ++ List.replicate 7 (.resume {}) ++
          [.cacheWrite 2]) = some s ∧
      s.process = some p ∧ s.db.cache = [(2, "8")] ∧ ∀ row ∈ s.db.cache, row.2 = p.version := by
  obtain ⟨s, hrun⟩ : ∃ s, acts.run {}
      ([.start "7" ""] ++ List.replicate 22 (.resume {}) ++
        [.cacheWrite 1, .cacheWrite 2, .stop, .start "8" ""] ++ List.replicate 7 (.resume {}) ++
        [.cacheWrite 2]) = some s := ⟨_, rfl⟩
  have hcache : s.db.cache = [(2, "8")] := by
    cases hrun
    rfl
  obtain ⟨p, hp, hserving⟩ : ∃ p, s.process = some p ∧ p.serving = true := by
    cases hrun
    exact ⟨_, rfl, rfl⟩
  refine ⟨s, p, hrun, hp, hcache, ?_⟩
  refine serves_own_cache ?_ ?_ hrun hp hserving
  · simp [Coherent]
  · refine System.Along.mono ?_ (System.Along.of_mem (C := fun a => a.failing = false) ?_ _)
    · intro s a ha
      exact reliable_of_not_failing ha
    · decide +kernel

end Host

end FamilyPlanner.Server.Bootstrap
